import K64Gateway.Modbus.SlaveAnswers

/-
  The slaves with the holding registers of the device.

  Proved: what is written to outputs over a line is read over it as it was written
  (`write_then_read`); an exception tells that nothing has changed, but for function 23, which
  writes before it fails to read (`exception_kept`, `readWrite_exception`); and a write whose data
  is missing takes it from the check and from what lies in the buffer behind it (`short_write`).
-/

namespace K64Gateway.Modbus

open Window MbCrc
open VarManage (WriteRequest VarReal)

variable {R : Type} [VarReal R]

/-! ## The device -/

/-- What the callbacks work on, and how many of them have been made. -/
structure Device (R : Type) where
  regs : UserRegs R
  sent : List (Nat × WriteRequest)
  saved : Bool
  calls : Nat

/-- What can be seen of the device. -/
def Device.view {R : Type} (d : Device R) : UserRegs R × List (Nat × WriteRequest) × Bool :=
  (d.regs, d.sent, d.saved)

/-- `eMBRegHoldingCB` on the device; `env` is what each call finds around it. -/
def holdingCB (env : Nat → Surroundings R) (eMode : MBRegisterMode) : RegCB (Device R) :=
  fun pucRegBuffer usAddress usNRegs d =>
    let reply := eMBRegHoldingCB (env d.calls) d.regs pucRegBuffer usAddress usNRegs eMode
    ⟨reply.eStatus, reply.read,
      ⟨reply.regs, d.sent ++ reply.sent, d.saved || reply.saved, d.calls + 1⟩⟩

/-- The table of the device. -/
def deviceFuncs (env : Nat → Surroundings R) : List (UInt8 × FuncHandler (Device R)) :=
  xFuncHandlers (holdingCB env .read) (holdingCB env .write)

/-- A device whose registers are all zero. -/
def blankDevice : Device Int where
  regs :=
    { g_xDevInfoReg := ⟨fun _ => 0, [], []⟩
      g_xAIResultReg := fun _ => 0
      g_xDIResultReg := fun _ => 0
      g_xDOResultReg := fun _ => 0
      g_xNetCfgReg := fun _ => 0
      g_net_cfg := ⟨0, [], [], [], []⟩
      regsFlag := fun _ => false
      ext := ⟨[], fun _ => 0, []⟩ }
  sent := []
  saved := false
  calls := 0

def blankSurroundings : Surroundings Int where
  tm := ⟨0, 0, 0, 0, 0, 0⟩
  netif_list := none
  poll := ⟨fun _ _ _ => none, fun _ _ => 0⟩
  ports := ⟨false, fun _ => false, fun _ => 0, fun _ => false⟩

/-- The slave 1 on each port. -/
def blankStack : Stack (Device Int) :=
  ⟨fun _ => idlePort, fun _ => 1, fun _ => ⟨0, 0, 0⟩, blankDevice⟩

theorem keepsOnError_holdingCB (env : Nat → Surroundings R) (eMode : MBRegisterMode) :
    KeepsOnError Device.view (holdingCB env eMode) := by
  intro pucRegBuffer usAddress usNRegs d herr
  have hsame := (eMBRegHoldingCB_spec (env d.calls) d.regs pucRegBuffer usAddress
    usNRegs).error_unchanged eMode herr
  unfold holdingCB Device.view
  dsimp only
  rw [hsame, List.append_nil, Bool.or_false]

/-! ## Exceptions -/

/-- A slave that answers with another code than that of the request has changed nothing, unless it
    was asked to write and read. -/
theorem exception_kept (env : Nat → Surroundings R) (v : Server (Device R)) {p : Nat}
    (haddr : v.ucMBAddress p ≠ 0) {pdu reply : List UInt8} (hpos : 0 < pdu.length)
    (hfit : pdu.length ≤ mbPduSizeMax) (h23 : pdu.head? ≠ some 23)
    (hline : (v.serve (deviceFuncs env) (p, encodeFrame (v.ucMBAddress p) pdu)).line p =
      v.line p ++ encodeFrame (v.ucMBAddress p) reply)
    (hcode : reply.head? ≠ pdu.head?) :
    (v.serve (deviceFuncs env) (p, encodeFrame (v.ucMBAddress p) pdu)).g.view = v.g.view := by
  let buf := overlay (v.buf p) 0 (encodeFrame (v.ucMBAddress p) pdu)
  have hfirst : buf (0 + 1) = pdu.headD 0 := buf_code (v.buf p) (v.ucMBAddress p) hpos
  have hspec := answerSpec (keepsOnError_holdingCB env .read) (keepsOnError_holdingCB env .write) p
    (fun i => buf (i + 1)) v.g hpos hfit
  rw [serve_request v haddr hpos hfit] at hline ⊢
  dsimp only at hline
  rw [Function.update_self] at hline
  unfold deviceFuncs at hline ⊢
  generalize callHandler (xFuncHandlers (holdingCB env .read) (holdingCB env .write)) p
    (fun i => buf (i + 1)) pdu.length v.g = out at hspec hline ⊢
  have hreply := encodeFrame_inj (List.append_cancel_left hline)
  have hex : out.eStatus ≠ .none := fun hnone =>
    hcode ((congrArg List.head? hreply).symm.trans (hspec.head hnone hpos hfirst))
  refine hspec.kept hex fun hmulti => h23 ?_
  rw [hfirst] at hmulti
  cases pdu with
  | nil => exact absurd hpos (Nat.lt_irrefl 0)
  | cons c rest => exact congrArg some hmulti

/-- A function that no slave has. -/
theorem exception_kept_unknown :
    let v : Server (Device Int) := ⟨fun _ => 1, fun _ _ => 0, fun _ => [], blankDevice⟩
    let env : Nat → Surroundings Int := fun _ => blankSurroundings
    let v' := v.serve (deviceFuncs env) (0, encodeFrame (v.ucMBAddress 0) [99])
    v'.line 0 = v.line 0 ++ encodeFrame (v.ucMBAddress 0) [99 ||| 128, 1] ∧
      v'.g.view = v.g.view := by
  intro v env v'
  have hline : v'.line 0 = v.line 0 ++ encodeFrame (v.ucMBAddress 0) [99 ||| 128, 1] := by
    decide +kernel
  exact ⟨hline, exception_kept env v (show v.ucMBAddress 0 ≠ 0 by decide)
    (by decide : 0 < [(99 : UInt8)].length) (by decide) (by decide) hline (by decide)⟩

/-! ## Writes and reads -/

/-- The request to write `n` registers from `ad` on. -/
def writePdu (ad n : UInt16) (values : List UInt8) : List UInt8 :=
  16 :: (ad >>> 8).toUInt8 :: ad.toUInt8 :: (n >>> 8).toUInt8 :: n.toUInt8 :: (2 * n).toUInt8 ::
    values

/-- The request to read `n` registers from `ad` on. -/
def readPdu (ad n : UInt16) : List UInt8 :=
  [3, (ad >>> 8).toUInt8, ad.toUInt8, (n >>> 8).toUInt8, n.toUInt8]

theorem word_eq {mem : Nat → UInt8} {off : Nat} {n : UInt16} (hhigh : mem off = (n >>> 8).toUInt8)
    (hlow : mem (off + 1) = n.toUInt8) : word mem off = n := by
  unfold word
  rw [hhigh, hlow]
  apply UInt16.toNat_inj.mp
  rw [toNat_join, UInt16.toNat_toUInt8, UInt16.toNat_toUInt8, UInt16.toNat_shiftRight]
  have hlt := n.toNat_lt
  show n.toNat % 256 + 256 * ((n.toNat >>> 8) % 256) = n.toNat
  rw [Nat.shiftRight_eq_div_pow]
  omega

omit [VarReal R] in
theorem count_le {ad n : UInt16} (h : Area.dout.Has ad n) : n.toNat ≤ 8 := by
  obtain ⟨hstart, -, hend⟩ := h
  simp only [Area.start, Area.size, Area.last, userRegDoStart, userRegDoEnd] at hstart hend
  omega

/-- A write of outputs, whatever the memory behind its head holds. -/
theorem writeMultiple_eq (env : Nat → Surroundings R) {mem : Nat → UInt8} {len : Nat}
    (d : Device R) {ad n : UInt16} (hin : Area.dout.Has ad n) (hn : 1 ≤ n) (hlen : 6 ≤ len)
    (had : word mem 1 = ad) (hcount : word mem 3 = n) (hbytes : mem 5 = (2 * n).toUInt8) :
    eMBFuncWriteMultipleHoldingRegister (holdingCB env .write) mem len d =
      ⟨.none, mem, 5,
        { d with
          regs := { d.regs with
            g_xDOResultReg :=
              writtenDo d.regs.g_xDOResultReg (fun i => mem (6 + i)) (ad + 1) n }
          calls := d.calls + 1 }⟩ := by
  have hmax : n ≤ 0x78 := by
    have hle := count_le hin
    show n.toNat ≤ 120
    omega
  have hback : ad + 1 - 1 = ad := add_sub_cancel_right ad 1
  have hwrite := (eMBRegHoldingCB_spec (env d.calls) d.regs (fun i => mem (6 + i)) (ad + 1)
    n).do_write (by rw [hback]; exact hin)
  unfold eMBFuncWriteMultipleHoldingRegister writeFunc holdingCB
  dsimp only
  rw [had, hcount, if_pos hlen, if_pos ⟨hn, hmax, hbytes⟩, hwrite]
  dsimp only
  rw [if_neg (not_not_intro rfl), List.append_nil, Bool.or_false]

/-- A read of outputs. -/
theorem readHolding_eq (env : Nat → Surroundings R) {mem : Nat → UInt8} (d : Device R)
    {ad n : UInt16} (hin : Area.dout.Has ad n) (hn : 1 ≤ n) (had : word mem 1 = ad)
    (hcount : word mem 3 = n) :
    eMBFuncReadHoldingRegister (holdingCB env .read) mem 5 d =
      ⟨.none,
        overlay (overlay mem 0 [3, UInt8.ofNat (2 * n.toNat)]) 2
          (RegisterBytes.get (memory (vBigEdianDOResult d.regs.g_xDOResultReg))
            (ad.toNat - userRegDoStart) n.toNat),
        2 + 2 * n.toNat, { d with calls := d.calls + 1 }⟩ := by
  have hvalid : (decide (1 ≤ n) && decide (n ≤ 0x7D)) = true := by
    have hle := count_le hin
    rw [Bool.and_eq_true]
    refine ⟨decide_eq_true hn, decide_eq_true ?_⟩
    show n.toNat ≤ 125
    omega
  have hback : ad + 1 - 1 = ad := add_sub_cancel_right ad 1
  have hread : eMBRegHoldingCB (env d.calls) d.regs
      (fun i => overlay mem 0 [3, UInt8.ofNat (2 * n.toNat)] (2 + i)) (ad + 1) n .read = _ :=
    read_do _ _ _ (by rw [hback]; exact hin)
  rw [hback] at hread
  unfold eMBFuncReadHoldingRegister readFunc holdingCB
  dsimp only
  rw [if_pos rfl, had, hcount, if_pos hvalid, hread]
  dsimp only
  rw [if_neg (not_not_intro rfl), List.append_nil, Bool.or_false]

theorem callHandler_write (env : Nat → Surroundings R) (p : Nat) {mem : Nat → UInt8} (len : Nat)
    (d : Device R) (h : mem 0 = 16) :
    callHandler (deviceFuncs env) p mem len d =
      eMBFuncWriteMultipleHoldingRegister (holdingCB env .write) mem len d := by
  unfold callHandler
  rw [h]
  rfl

theorem callHandler_read (env : Nat → Surroundings R) (p : Nat) {mem : Nat → UInt8} (len : Nat)
    (d : Device R) (h : mem 0 = 3) :
    callHandler (deviceFuncs env) p mem len d =
      eMBFuncReadHoldingRegister (holdingCB env .read) mem len d := by
  unfold callHandler
  rw [h]
  rfl

/-- A request to write outputs, with as much data as it has. -/
theorem serve_write (env : Nat → Surroundings R) (v : Server (Device R)) {p : Nat}
    (haddr : v.ucMBAddress p ≠ 0) {ad n : UInt16} (hin : Area.dout.Has ad n) (hn : 1 ≤ n)
    {values : List UInt8} (hfit : values.length + 6 ≤ mbPduSizeMax) :
    let frame := encodeFrame (v.ucMBAddress p) (writePdu ad n values)
    let v' := v.serve (deviceFuncs env) (p, frame)
    v'.line p = v.line p ++ encodeFrame (v.ucMBAddress p) ((writePdu ad n values).take 5) ∧
      v'.g.regs = { v.g.regs with
        g_xDOResultReg := writtenDo v.g.regs.g_xDOResultReg
          (fun i => overlay (v.buf p) 0 frame (7 + i)) (ad + 1) n } := by
  intro frame v'
  have hlen : (writePdu ad n values).length = values.length + 6 := rfl
  have hcell : ∀ i, i < values.length + 6 →
      overlay (v.buf p) 0 frame (i + 1) = (writePdu ad n values).getD i 0 := by
    intro i hi
    exact buf_pdu (v.buf p) (v.ucMBAddress p) (by rw [hlen]; exact hi)
  have hout : callHandler (deviceFuncs env) p (fun i => overlay (v.buf p) 0 frame (i + 1))
      (writePdu ad n values).length v.g = _ :=
    (callHandler_write env p _ v.g (hcell 0 (by omega))).trans
      (writeMultiple_eq env v.g hin hn (by rw [hlen]; omega)
        (word_eq (hcell 1 (by omega)) (hcell 2 (by omega)))
        (word_eq (hcell 3 (by omega)) (hcell 4 (by omega))) (hcell 5 (by omega)))
  have hserve : v' = _ := serve_request v haddr (by rw [hlen]; omega) (by rw [hlen]; exact hfit)
  rw [hserve, hout]
  refine ⟨?_, ?_⟩
  · dsimp only
    rw [Function.update_self]
    rfl
  · have hdata : ∀ i, 6 + i + 1 = 7 + i := by omega
    simp only [hdata]

/-- A request to read outputs. -/
theorem serve_read (env : Nat → Surroundings R) (v : Server (Device R)) {p : Nat}
    (haddr : v.ucMBAddress p ≠ 0) {ad n : UInt16} (hin : Area.dout.Has ad n) (hn : 1 ≤ n) :
    (v.serve (deviceFuncs env) (p, encodeFrame (v.ucMBAddress p) (readPdu ad n))).line p =
      v.line p ++ encodeFrame (v.ucMBAddress p) (3 :: UInt8.ofNat (2 * n.toNat) ::
        RegisterBytes.get (memory (vBigEdianDOResult v.g.regs.g_xDOResultReg))
          (ad.toNat - userRegDoStart) n.toNat) := by
  have hcell : ∀ i, i < 5 →
      overlay (v.buf p) 0 (encodeFrame (v.ucMBAddress p) (readPdu ad n)) (i + 1) =
        (readPdu ad n).getD i 0 := by
    intro i hi
    exact buf_pdu (v.buf p) (v.ucMBAddress p) hi
  have hout : callHandler (deviceFuncs env) p
      (fun i => overlay (v.buf p) 0 (encodeFrame (v.ucMBAddress p) (readPdu ad n)) (i + 1))
      (readPdu ad n).length v.g = _ :=
    (callHandler_read env p _ v.g (hcell 0 (by omega))).trans
      (readHolding_eq env v.g hin hn (word_eq (hcell 1 (by omega)) (hcell 2 (by omega)))
        (word_eq (hcell 3 (by omega)) (hcell 4 (by omega))))
  have hserve : v.serve (deviceFuncs env) (p, encodeFrame (v.ucMBAddress p) (readPdu ad n)) = _ :=
    serve_request v haddr (show 0 < 5 by decide) (show 5 ≤ 253 by decide)
  rw [hserve, hout]
  dsimp only
  rw [Function.update_self]
  congr 2
  generalize hbytes : RegisterBytes.get (memory (vBigEdianDOResult v.g.regs.g_xDOResultReg))
    (ad.toNat - userRegDoStart) n.toNat = bytes
  have hlen : (3 :: UInt8.ofNat (2 * n.toNat) :: bytes).length = 2 + 2 * n.toNat := by
    rw [List.length_cons, List.length_cons, ← hbytes, RegisterBytes.length_get]
    omega
  generalize (fun i => overlay (v.buf p) 0 (encodeFrame (v.ucMBAddress p) (readPdu ad n)) (i + 1)) =
    mem
  have hwhole : overlay (overlay mem 0 [3, UInt8.ofNat (2 * n.toNat)]) 2 bytes =
      overlay mem 0 (3 :: UInt8.ofNat (2 * n.toNat) :: bytes) :=
    (overlay_append mem 0 [3, UInt8.ofNat (2 * n.toNat)] bytes).symm
  have hwindow := window_overlay mem 0 (3 :: UInt8.ofNat (2 * n.toNat) :: bytes)
  rw [hlen, ← hwhole] at hwindow
  exact hwindow

/-- The bytes of outputs that have been written are those that were written. -/
theorem writtenDo_bytes (env : Surroundings R) (r : UserRegs R) (data : Nat → UInt8) {ad n : UInt16}
    (hin : Area.dout.Has ad n) :
    RegisterBytes.get (memory (vBigEdianDOResult (writtenDo r.g_xDOResultReg data (ad + 1) n)))
      (ad.toNat - userRegDoStart) n.toNat = (List.range (2 * n.toNat)).map data := by
  have hback : ad + 1 - 1 = ad := add_sub_cancel_right ad 1
  have hin' : Area.dout.Has (ad + 1 - 1) n := by
    rw [hback]
    exact hin
  have hspec := eMBRegHoldingCB_spec env r data (ad + 1) n
  have hread := hspec.do_read_back hin' env data
  rw [hspec.do_write hin'] at hread
  dsimp only at hread
  rw [read_do env _ data hin', hback] at hread
  exact congrArg Reply.read hread

omit [VarReal R] in
/-- The data that a write takes: what the request has, its check, and what lies behind it. -/
theorem serve_write_data (v : Server (Device R)) {p : Nat} {ad n : UInt16} {values : List UInt8} :
    (fun i => overlay (v.buf p) 0 (encodeFrame (v.ucMBAddress p) (writePdu ad n values)) (7 + i)) =
      overlay (fun i => v.buf p (7 + i)) 0
        (values ++ crcBytes (v.ucMBAddress p :: writePdu ad n values)) := by
  funext i
  have hframe : encodeFrame (v.ucMBAddress p) (writePdu ad n values) =
      (v.ucMBAddress p :: writePdu ad n []) ++
        (values ++ crcBytes (v.ucMBAddress p :: writePdu ad n values)) := rfl
  rw [hframe]
  generalize values ++ crcBytes (v.ucMBAddress p :: writePdu ad n values) = cells
  rw [overlay_append]
  show overlay (overlay (v.buf p) 0 (v.ucMBAddress p :: writePdu ad n [])) (0 + 7) cells (7 + i) = _
  by_cases hi : i < cells.length
  · rw [Nat.zero_add, overlay_add hi]
    exact ((congrArg _ (Nat.zero_add i).symm).trans (overlay_add hi)).symm
  · rw [overlay_of_le (by omega), overlay_of_le (show 0 + cells.length ≤ i by omega),
      overlay_of_le (show 0 + 7 ≤ 7 + i by omega)]

/-! ## What stands between a write and a read -/

section
variable {G V : Type}

/-- What a function does not change. -/
def Keeps (view : G → V) (func : (Nat → UInt8) → Nat → G → FuncReply G) : Prop :=
  ∀ pucFrame usLen g, view (func pucFrame usLen g).g = view g

theorem keeps_readFunc {code : UInt8} {valid : UInt16 → Bool} {size : UInt16 → Nat} {view : G → V}
    {readCB : RegCB G} (h : ∀ buf ad n g, view (readCB buf ad n g).g = view g) :
    Keeps view (readFunc code valid size readCB) := by
  intro pucFrame usLen g
  unfold readFunc
  split
  · dsimp only
    split
    · split <;> exact h ..
    · rfl
  · rfl

theorem keeps_writeFunc {sizeMin : Nat} {max : UInt16} {byteCount : UInt16 → UInt8} {view : G → V}
    {writeCB : RegCB G} (h : ∀ buf ad n g, view (writeCB buf ad n g).g = view g) :
    Keeps view (writeFunc sizeMin max byteCount writeCB) := by
  intro pucFrame usLen g
  unfold writeFunc
  split
  · dsimp only
    split
    · split <;> exact h ..
    · rfl
  · rfl

theorem keeps_writeCoil (view : G → V) : Keeps view eMBFuncWriteCoil := by
  intro pucFrame usLen g
  unfold eMBFuncWriteCoil
  split
  · split <;> rfl
  · rfl

/-- The functions that write holding registers. -/
def writeCodes : List UInt8 := [6, 16, 23]

/-- No other function changes what reading does not change. -/
theorem callHandler_keeps {view : G → V} {readCB : RegCB G} (writeCB : RegCB G)
    (hread : ∀ buf ad n g, view (readCB buf ad n g).g = view g) (p : Nat) {mem : Nat → UInt8}
    (len : Nat) (g : G) (h : mem 0 ∉ writeCodes) :
    view (callHandler (xFuncHandlers readCB writeCB) p mem len g).g = view g := by
  unfold callHandler
  cases hfind : findHandler (mem 0) (xFuncHandlers readCB writeCB) with
  | none => rfl
  | some pxHandler =>
    have hno : ∀ buf ad n g, view (noRegCB buf ad n g : RegReply G).g = view g :=
      fun _ _ _ _ => rfl
    have hentry : ∀ {c : UInt8} {func : (Nat → UInt8) → Nat → G → FuncReply G} {ht : Tidy c func},
        Keeps view func → (mem 0, pxHandler) = entry c func ht →
        view (pxHandler.run p mem len g).g = view g := by
      rintro c func ht hkeep heq
      obtain ⟨-, rfl⟩ := Prod.mk.inj heq
      exact hkeep mem len g
    have hwrites : ∀ {c : UInt8} {func : (Nat → UInt8) → Nat → G → FuncReply G} {ht : Tidy c func},
        c ∈ writeCodes → (mem 0, pxHandler) = entry c func ht →
        view (pxHandler.run p mem len g).g = view g := by
      rintro c func ht hc heq
      obtain ⟨rfl, -⟩ := Prod.mk.inj heq
      exact absurd hc h
    have hmem := findHandler_mem hfind
    unfold xFuncHandlers at hmem
    simp only [List.mem_cons, List.not_mem_nil, or_false] at hmem
    dsimp only
    rcases hmem with h | h | h | h | h | h | h | h | h | h
    · exact hentry (fun _ _ _ => rfl) h
    · exact hentry (keeps_readFunc hno) h
    · exact hentry (keeps_readFunc hread) h
    · exact hwrites (by decide) h
    · exact hwrites (by decide) h
    · exact hwrites (by decide) h
    · exact hentry (keeps_readFunc hno) h
    · exact hentry (keeps_writeCoil view) h
    · exact hentry (keeps_writeFunc hno) h
    · exact hentry (keeps_readFunc hno) h

/-- A burst that is no request to write. -/
def NoWrite (bytes : List UInt8) : Prop :=
  ∀ addr pdu, decodeFrame bytes = some (addr, pdu) → pdu.headD 0 ∉ writeCodes

theorem serve_keeps (view : G → V) {readCB : RegCB G} (writeCB : RegCB G)
    (hread : ∀ buf ad n g, view (readCB buf ad n g).g = view g) (v : Server G)
    {burst : Nat × List UInt8} (h : NoWrite burst.2) :
    view (v.serve (xFuncHandlers readCB writeCB) burst).g = view v.g := by
  obtain ⟨p, bytes⟩ := burst
  unfold Server.serve
  dsimp only
  split
  · rfl
  · next addr pdu hsome =>
    split at hsome
    · next hfit =>
      have hlen : bytes.length < 65536 := by
        unfold mbSerPduSizeMax at hfit
        omega
      obtain ⟨hbytes, hpos⟩ := (decodeFrame_eq_some_iff hlen).mp hsome
      have hfirst : overlay (v.buf p) 0 (bytes.take mbSerPduSizeMax) (0 + 1) = pdu.headD 0 := by
        rw [List.take_of_length_le hfit, hbytes]
        exact buf_code (v.buf p) addr hpos
      have hcode : overlay (v.buf p) 0 (bytes.take mbSerPduSizeMax) (0 + 1) ∉ writeCodes := by
        rw [hfirst]
        exact h addr pdu hsome
      split
      · unfold Server.answer
        dsimp only
        rw [Function.update_self]
        split <;> exact callHandler_keeps writeCB hread p pdu.length v.g hcode
      · rfl
    · exact absurd hsome (by simp)

end

/-- Reading leaves the outputs as they are. -/
theorem holdingCB_read_do (env : Nat → Surroundings R) (buf : Nat → UInt8) (ad n : UInt16)
    (d : Device R) :
    (holdingCB env .read buf ad n d).g.regs.g_xDOResultReg = d.regs.g_xDOResultReg := by
  have hrefresh : ∀ a, (refreshGlobals (env d.calls) .read d.regs a).g_xDOResultReg =
      d.regs.g_xDOResultReg := by
    intro a
    cases a <;> rfl
  unfold holdingCB eMBRegHoldingCB
  dsimp only
  split
  · split
    · rfl
    · exact hrefresh _
  · rfl

/-- The server after bursts that write nothing has the outputs that it had. -/
theorem serve_do (env : Nat → Surroundings R) (v : Server (Device R))
    {bursts : List (Nat × List UInt8)} (h : ∀ burst ∈ bursts, NoWrite burst.2) :
    (bursts.foldl (Server.serve (deviceFuncs env)) v).g.regs.g_xDOResultReg =
      v.g.regs.g_xDOResultReg := by
  induction bursts generalizing v with
  | nil => rfl
  | cons burst bursts ih =>
    have hfirst := serve_keeps (fun d : Device R => d.regs.g_xDOResultReg) (holdingCB env .write)
      (holdingCB_read_do env) v (h burst List.mem_cons_self)
    rw [List.foldl_cons, ih _ fun b hb => h b (List.mem_cons_of_mem _ hb)]
    exact hfirst

theorem serve_line_prefix (v : Server (Device R)) (env : Nat → Surroundings R) {p : Nat}
    (haddr : v.ucMBAddress p ≠ 0) (bursts : List (Nat × List UInt8)) :
    ∃ between, (bursts.foldl (Server.serve (deviceFuncs env)) v).line p = v.line p ++ between := by
  obtain ⟨frames, -, hline⟩ := serve_answers (holdingCB env .read) (holdingCB env .write) v haddr
    bursts
  exact ⟨frames.flatten, hline⟩

theorem foldl_serve_ucMBAddress (v : Server (Device R)) (env : Nat → Surroundings R)
    (bursts : List (Nat × List UInt8)) :
    (bursts.foldl (Server.serve (deviceFuncs env)) v).ucMBAddress = v.ucMBAddress := by
  induction bursts generalizing v with
  | nil => rfl
  | cons burst bursts ih =>
    rw [List.foldl_cons, ih]
    exact serve_ucMBAddress v burst

/-- Outputs that are written over a line are read over it as they were written, whatever else is
    asked in between at any port. -/
theorem write_then_read (env : Nat → Surroundings R) (slot : Nat → Nat) (held : Option MBEvent)
    {k : Nat} (hk : mbSerPduSizeMax < k) {s : Stack (Device R)} (hready : ∀ p, Ready (s.port p))
    {p : Nat} (haddr : s.ucMBAddress p ≠ 0) {ad n : UInt16} (hin : Area.dout.Has ad n) (hn : 1 ≤ n)
    {values : List UInt8} (hvalues : values.length = 2 * n.toNat)
    {mid : List (Nat × List UInt8)} (hmid : ∀ burst ∈ mid, NoWrite burst.2) :
    let addr := s.ucMBAddress p
    let bursts := (p, encodeFrame addr (writePdu ad n values)) :: mid ++
      [(p, encodeFrame addr (readPdu ad n))]
    ∃ between, ((s.run (deviceFuncs env) slot (bursts.flatMap (burstEvents held k))).port p).line =
      (s.port p).line ++ encodeFrame addr ((writePdu ad n values).take 5) ++ between ++
        encodeFrame addr (3 :: UInt8.ofNat (2 * n.toNat) :: values) := by
  intro addr bursts
  let v : Server (Device R) :=
    ⟨s.ucMBAddress, fun p => (s.port p).ucRTUBuf, fun p => (s.port p).line, s.g⟩
  have hfit : values.length + 6 ≤ mbPduSizeMax := by
    have hle := count_le hin
    unfold mbPduSizeMax
    omega
  let v₁ := v.serve (deviceFuncs env) (p, encodeFrame addr (writePdu ad n values))
  let v₂ := mid.foldl (Server.serve (deviceFuncs env)) v₁
  obtain ⟨hline₁, hregs₁⟩ := serve_write env v haddr hin hn hfit
  have haddr₁ : v₁.ucMBAddress = s.ucMBAddress := serve_ucMBAddress v _
  have haddr₂ : v₂.ucMBAddress = s.ucMBAddress := (foldl_serve_ucMBAddress v₁ env mid).trans haddr₁
  obtain ⟨between, hline₂⟩ := serve_line_prefix v₁ env (by rw [haddr₁]; exact haddr) mid
  have hread := serve_read env v₂ (by rw [haddr₂]; exact haddr) hin hn
  -- the outputs are still those that were written
  have hdo : v₂.g.regs.g_xDOResultReg = _ :=
    (serve_do env v₁ hmid).trans (congrArg UserRegs.g_xDOResultReg hregs₁)
  have hdata : (List.range (2 * n.toNat)).map
      (fun i => overlay (v.buf p) 0 (encodeFrame (v.ucMBAddress p) (writePdu ad n values)) (7 + i)) =
        values := by
    rw [serve_write_data, overlay_append, ← hvalues, map_range_eq_window,
      window_overlay_apart (Or.inl (Nat.le_refl _)), window_overlay]
  rw [hdo, writtenDo_bytes (env 0) v.g.regs _ hin, hdata, haddr₂] at hread
  refine ⟨between, ?_⟩
  have hrun := serving_bursts (deviceFuncs env) slot held hk (serving_self hready) bursts
  refine (hrun.line p).trans ?_
  show ((((p, encodeFrame addr (writePdu ad n values)) :: mid) ++
    [(p, encodeFrame addr (readPdu ad n))]).foldl (Server.serve (deviceFuncs env)) v).line p = _
  rw [List.foldl_append, List.foldl_cons]
  show (v₂.serve (deviceFuncs env) (p, encodeFrame (s.ucMBAddress p) (readPdu ad n))).line p = _
  rw [hread, hline₂, hline₁]

/-- Outputs that are written, a read by another line, and the read of them. -/
theorem write_then_read_three :
    let env : Nat → Surroundings Int := fun _ => blankSurroundings
    let addr := blankStack.ucMBAddress 0
    let mid := [(1, encodeFrame 1 (readPdu 80 1))]
    let bursts := (0, encodeFrame addr (writePdu 81 2 [0, 1, 0, 0])) :: mid ++
      [(0, encodeFrame addr (readPdu 81 2))]
    mbSerPduSizeMax < 257 ∧ Area.dout.Has 81 2 ∧ (∀ burst ∈ mid, NoWrite burst.2) ∧
      ∃ between, ((blankStack.run (deviceFuncs env) shared
        (bursts.flatMap (burstEvents none 257))).port 0).line =
          (blankStack.port 0).line ++ encodeFrame addr ((writePdu 81 2 [0, 1, 0, 0]).take 5) ++
            between ++
              encodeFrame addr (3 :: UInt8.ofNat (2 * (2 : UInt16).toNat) :: [0, 1, 0, 0]) := by
  dsimp only
  have hmid : ∀ burst ∈ [(1, encodeFrame 1 (readPdu 80 1))], NoWrite burst.2 := by
    intro burst hmem
    rw [List.mem_singleton.mp hmem]
    intro addr pdu hdec
    have hpdu : decodeFrame (encodeFrame 1 (readPdu 80 1)) = some (1, readPdu 80 1) := by
      decide +kernel
    obtain ⟨-, rfl⟩ := Prod.mk.inj (Option.some.inj (hpdu.symm.trans hdec))
    decide
  have hin : Area.dout.Has 81 2 := by decide +kernel
  have hk : mbSerPduSizeMax < 257 := by decide
  have haddr : blankStack.ucMBAddress 0 ≠ 0 := by decide
  exact ⟨hk, hin, hmid, write_then_read _ shared none hk (fun _ => ready_idlePort) haddr hin
    (by decide) (by decide) hmid⟩

/-! ## Writes that go wrong -/

/-- A request to write outputs is done with as many values as it asks for: those that it has, then
    the bytes of its check, then what lies in the buffer behind them. -/
theorem short_write (env : Nat → Surroundings R) (slot : Nat → Nat) (held : Option MBEvent)
    {k : Nat} (hk : mbSerPduSizeMax < k) {s : Stack (Device R)} (hready : ∀ p, Ready (s.port p))
    {p : Nat} (haddr : s.ucMBAddress p ≠ 0) {ad n : UInt16} (hin : Area.dout.Has ad n) (hn : 1 ≤ n)
    {values : List UInt8} (hfit : values.length + 6 ≤ mbPduSizeMax) :
    let addr := s.ucMBAddress p
    let pdu := writePdu ad n values
    let s' := s.run (deviceFuncs env) slot (burstEvents held k (p, encodeFrame addr pdu))
    let data := overlay (fun i => (s.port p).ucRTUBuf (7 + i)) 0
      (values ++ crcBytes (addr :: pdu))
    (s'.port p).line = (s.port p).line ++ encodeFrame addr (pdu.take 5) ∧
      s'.g.regs = { s.g.regs with
        g_xDOResultReg := writtenDo s.g.regs.g_xDOResultReg data (ad + 1) n } := by
  intro addr pdu s' data
  let v : Server (Device R) :=
    ⟨s.ucMBAddress, fun p => (s.port p).ucRTUBuf, fun p => (s.port p).line, s.g⟩
  have hrun : Serving (v.serve (deviceFuncs env) (p, encodeFrame addr pdu)) s' :=
    serving_burst (serving_self hready) hk (p, encodeFrame addr pdu)
  obtain ⟨hline, hregs⟩ := serve_write env v haddr hin hn hfit
  rw [serve_write_data] at hregs
  exact ⟨(hrun.line p).trans hline, (congrArg Device.regs hrun.g).symm.trans hregs⟩

/-- A write of one output without a value. -/
theorem short_write_bare :
    let env : Nat → Surroundings Int := fun _ => blankSurroundings
    let addr := blankStack.ucMBAddress 0
    let pdu := writePdu 80 1 []
    let s' := blankStack.run (deviceFuncs env) shared (burstEvents none 257 (0, encodeFrame addr pdu))
    mbSerPduSizeMax < 257 ∧ Area.dout.Has 80 1 ∧
      (s'.port 0).line = (blankStack.port 0).line ++ encodeFrame addr (pdu.take 5) ∧
        s'.g.regs = { blankStack.g.regs with
          g_xDOResultReg := writtenDo blankStack.g.regs.g_xDOResultReg
            (overlay (fun i => (blankStack.port 0).ucRTUBuf (7 + i)) 0
              ([] ++ crcBytes (addr :: pdu))) (80 + 1) 1 } := by
  dsimp only
  have hin : Area.dout.Has 80 1 := by decide +kernel
  have hk : mbSerPduSizeMax < 257 := by decide
  have haddr : blankStack.ucMBAddress 0 ≠ 0 := by decide
  exact ⟨hk, hin, short_write _ shared none hk (fun _ => ready_idlePort) haddr hin (by decide)
    (by decide)⟩

/-- The request to write `n` registers from `ad` on and to read `readN` from `readAd` on. -/
def readWritePdu (readAd readN ad n : UInt16) (values : List UInt8) : List UInt8 :=
  23 :: (readAd >>> 8).toUInt8 :: readAd.toUInt8 :: (readN >>> 8).toUInt8 :: readN.toUInt8 ::
    (ad >>> 8).toUInt8 :: ad.toUInt8 :: (n >>> 8).toUInt8 :: n.toUInt8 :: (2 * n).toUInt8 :: values

theorem callHandler_readWrite (env : Nat → Surroundings R) (p : Nat) {mem : Nat → UInt8} (len : Nat)
    (d : Device R) (h : mem 0 = 23) :
    callHandler (deviceFuncs env) p mem len d =
      eMBFuncReadWriteMultipleHoldingRegister (holdingCB env .read) (holdingCB env .write) mem len
        d := by
  unfold callHandler
  rw [h]
  rfl

theorem writtenDo_congr (file : DoFile) {data data' : Nat → UInt8} {usAddress n : UInt16}
    (h : ∀ i < 2 * n.toNat, data i = data' i) :
    writtenDo file data usAddress n = writtenDo file data' usAddress n := by
  funext i
  unfold writtenDo
  dsimp only
  split
  · rw [h _ (by omega), h _ (by omega)]
  · rfl

/-- A write of outputs that is kept though the read behind it finds no registers. -/
theorem readWriteMultiple_eq (env : Nat → Surroundings R) {mem : Nat → UInt8} {len : Nat}
    (d : Device R) {readAd readN ad n : UInt16} (hread : areaOf readAd readN = none)
    (hreadN : 1 ≤ readN ∧ readN ≤ 0x7D) (hin : Area.dout.Has ad n) (hn : 1 ≤ n) (hlen : 10 ≤ len)
    (hreadAd : word mem 1 = readAd) (hreadCount : word mem 3 = readN) (had : word mem 5 = ad)
    (hcount : word mem 7 = n) (hbytes : mem 9 = (2 * n).toUInt8) :
    eMBFuncReadWriteMultipleHoldingRegister (holdingCB env .read) (holdingCB env .write) mem len d =
      ⟨.illegalDataAddress, overlay (overlay mem 0 [23, UInt8.ofNat (readN.toNat * 2)]) 2 [], 2,
        { d with
          regs := { d.regs with
            g_xDOResultReg :=
              writtenDo d.regs.g_xDOResultReg (fun i => mem (10 + i)) (ad + 1) n }
          calls := d.calls + 1 + 1 }⟩ := by
  have hle := count_le hin
  have hmax : n ≤ 0x79 := by
    show n.toNat ≤ 121
    omega
  have hdouble : 2 * n.toNat = ((2 * n).toUInt8).toNat := by
    rw [UInt16.toNat_toUInt8, UInt16.toNat_mul]
    show 2 * n.toNat = 2 * n.toNat % 65536 % 256
    omega
  have hback : ad + 1 - 1 = ad := add_sub_cancel_right ad 1
  have hreadBack : readAd + 1 - 1 = readAd := add_sub_cancel_right readAd 1
  have hwrite := (eMBRegHoldingCB_spec (env d.calls) d.regs (fun i => mem (10 + i)) (ad + 1)
    n).do_write (by rw [hback]; exact hin)
  have hnone : ∀ (e : Surroundings R) (r : UserRegs R) (buf : Nat → UInt8),
      eMBRegHoldingCB e r buf (readAd + 1) readN .read = ⟨.noReg, [], r, [], false⟩ := by
    intro e r buf
    unfold eMBRegHoldingCB
    dsimp only
    rw [hreadBack, hread]
  unfold eMBFuncReadWriteMultipleHoldingRegister holdingCB
  dsimp only
  rw [if_pos hlen, hreadAd, hreadCount, had, hcount, hbytes,
    if_pos ⟨hreadN.1, hreadN.2, hn, hmax, hdouble⟩, hwrite]
  dsimp only
  rw [if_pos rfl, hnone]
  dsimp only
  rw [if_neg (by decide), List.append_nil, List.append_nil, Bool.or_false, Bool.or_false]
  rfl

/-- An exception to a request that writes and reads does not tell that nothing was written. -/
theorem readWrite_exception (env : Nat → Surroundings R) (slot : Nat → Nat)
    (held : Option MBEvent) {k : Nat} (hk : mbSerPduSizeMax < k) {s : Stack (Device R)}
    (hready : ∀ p, Ready (s.port p)) {p : Nat} (haddr : s.ucMBAddress p ≠ 0)
    {readAd readN ad n : UInt16} (hread : areaOf readAd readN = none)
    (hreadN : 1 ≤ readN ∧ readN ≤ 0x7D) (hin : Area.dout.Has ad n) (hn : 1 ≤ n)
    {values : List UInt8} (hvalues : values.length = 2 * n.toNat) :
    let addr := s.ucMBAddress p
    let s' := s.run (deviceFuncs env) slot
      (burstEvents held k (p, encodeFrame addr (readWritePdu readAd readN ad n values)))
    (s'.port p).line = (s.port p).line ++ encodeFrame addr [23 ||| 128, 2] ∧
      s'.g.regs = { s.g.regs with
        g_xDOResultReg := writtenDo s.g.regs.g_xDOResultReg (fun i => values.getD i 0) (ad + 1)
          n } := by
  intro addr s'
  let v : Server (Device R) :=
    ⟨s.ucMBAddress, fun p => (s.port p).ucRTUBuf, fun p => (s.port p).line, s.g⟩
  have hle := count_le hin
  have hlen : (readWritePdu readAd readN ad n values).length = values.length + 10 := rfl
  have hcell : ∀ i, i < values.length + 10 →
      overlay (v.buf p) 0 (encodeFrame addr (readWritePdu readAd readN ad n values)) (i + 1) =
        (readWritePdu readAd readN ad n values).getD i 0 := by
    intro i hi
    exact buf_pdu (v.buf p) addr (by rw [hlen]; exact hi)
  have hout : callHandler (deviceFuncs env) p
      (fun i => overlay (v.buf p) 0 (encodeFrame addr (readWritePdu readAd readN ad n values))
        (i + 1)) (readWritePdu readAd readN ad n values).length v.g = _ :=
    (callHandler_readWrite env p _ v.g (hcell 0 (by omega))).trans
      (readWriteMultiple_eq env v.g hread hreadN hin hn (by rw [hlen]; omega)
        (word_eq (hcell 1 (by omega)) (hcell 2 (by omega)))
        (word_eq (hcell 3 (by omega)) (hcell 4 (by omega)))
        (word_eq (hcell 5 (by omega)) (hcell 6 (by omega)))
        (word_eq (hcell 7 (by omega)) (hcell 8 (by omega))) (hcell 9 (by omega)))
  have hserve : v.serve (deviceFuncs env)
      (p, encodeFrame addr (readWritePdu readAd readN ad n values)) = _ :=
    serve_request v haddr (by rw [hlen]; omega) (by rw [hlen]; unfold mbPduSizeMax; omega)
  have hrun : Serving (v.serve (deviceFuncs env)
      (p, encodeFrame addr (readWritePdu readAd readN ad n values))) s' :=
    serving_burst (serving_self hready) hk _
  rw [hserve, hout] at hrun
  refine ⟨(hrun.line p).trans ?_, (congrArg Device.regs hrun.g).symm.trans ?_⟩
  · dsimp only
    rw [Function.update_self]
    rfl
  · dsimp only
    rw [writtenDo_congr]
    intro i hi
    refine (hcell (10 + i) (by omega)).trans ?_
    rw [Nat.add_comm]
    rfl

/-- A write of one output, with a read of a register that is none. -/
theorem readWrite_exception_one :
    let env : Nat → Surroundings Int := fun _ => blankSurroundings
    let addr := blankStack.ucMBAddress 0
    let s' := blankStack.run (deviceFuncs env) shared
      (burstEvents none 257 (0, encodeFrame addr (readWritePdu 9 1 80 1 [0, 1])))
    areaOf 9 1 = none ∧ Area.dout.Has 80 1 ∧
      (s'.port 0).line = (blankStack.port 0).line ++ encodeFrame addr [23 ||| 128, 2] ∧
        s'.g.regs = { blankStack.g.regs with
          g_xDOResultReg := writtenDo blankStack.g.regs.g_xDOResultReg
            (fun i => [0, 1].getD i 0) (80 + 1) 1 } := by
  dsimp only
  have hnone : areaOf 9 1 = none := by decide +kernel
  have hin : Area.dout.Has 80 1 := by decide +kernel
  have hk : mbSerPduSizeMax < 257 := by decide
  have haddr : blankStack.ucMBAddress 0 ≠ 0 := by decide
  exact ⟨hnone, hin, readWrite_exception _ shared none hk (fun _ => ready_idlePort) haddr hnone
    (by decide) hin (by decide) (by decide)⟩

end K64Gateway.Modbus
