import K64Gateway.Modbus.HoldingRegs
import K64Gateway.Modbus.SlaveServer

/-
  The functions of a slave, `modbus/functions/mbfuncholding.c`, `mbfuncinput.c`, `mbfunccoils.c`,
  `mbfuncdisc.c` and `mbfuncother.c`, and the table of them in `mb.c`. The device has holding
  registers only; the callbacks of `port/user_mb_app.c` for the rest know no register.
-/

namespace K64Gateway.Modbus

open Window

variable {G V : Type}

/-! ## Callbacks -/

/-- What a callback leaves: its status, the bytes that it puts into the buffer and the globals. -/
structure RegReply (G : Type) where
  eStatus : MBErrorCode
  read : List UInt8
  g : G

/-- A callback, on the buffer, the address, the count and the globals. -/
abbrev RegCB (G : Type) := (Nat → UInt8) → UInt16 → UInt16 → G → RegReply G

/-- `eMBRegInputCB`, `eMBRegCoilsCB` and `eMBRegDiscreteCB` -/
def noRegCB : RegCB G := fun _ _ _ g => ⟨.noReg, [], g⟩

/-- `prveMBError2Exception` -/
def prveMBError2Exception : MBErrorCode → MBException
  | .noErr => .none
  | .noReg => .illegalDataAddress

/-! ## Functions -/

/-- Two bytes of the PDU. -/
def word (pucFrame : Nat → UInt8) (off : Nat) : UInt16 :=
  RegisterBytes.join (pucFrame (off + 1)) (pucFrame off)

/-- A function that reads: the counts that it takes, and the bytes that so many need. -/
def readFunc (ucFunctionCode : UInt8) (valid : UInt16 → Bool) (size : UInt16 → Nat)
    (readCB : RegCB G) (pucFrame : Nat → UInt8) (usLen : Nat) (g : G) : FuncReply G :=
  if usLen = 5 then
    let usRegAddress := word pucFrame 1 + 1
    let usRegCount := word pucFrame 3
    if valid usRegCount then
      let pucFrame := overlay pucFrame 0 [ucFunctionCode, UInt8.ofNat (size usRegCount)]
      let out := readCB (fun i => pucFrame (2 + i)) usRegAddress usRegCount g
      let pucFrame := overlay pucFrame 2 out.read
      if out.eStatus ≠ .noErr then ⟨prveMBError2Exception out.eStatus, pucFrame, 2, out.g⟩
      else ⟨.none, pucFrame, 2 + size usRegCount, out.g⟩
    else ⟨.illegalDataValue, pucFrame, usLen, g⟩
  else ⟨.illegalDataValue, pucFrame, usLen, g⟩

/-- The bytes that hold so many bits. -/
def bitBytes (usCount : UInt16) : Nat :=
  (if usCount &&& 7 ≠ 0 then usCount / 8 + 1 else usCount / 8).toUInt8.toNat

/-- `eMBFuncReadHoldingRegister` -/
def eMBFuncReadHoldingRegister (readCB : RegCB G) :=
  readFunc 3 (fun n => 1 ≤ n && n ≤ 0x7D) (fun n => 2 * n.toNat) readCB

/-- `eMBFuncReadInputRegister` -/
def eMBFuncReadInputRegister : (Nat → UInt8) → Nat → G → FuncReply G :=
  readFunc 4 (fun n => 1 ≤ n && n < 0x7D) (fun n => 2 * n.toNat) noRegCB

/-- `eMBFuncReadCoils` -/
def eMBFuncReadCoils : (Nat → UInt8) → Nat → G → FuncReply G :=
  readFunc 1 (fun n => 1 ≤ n && n < 0x07D0) bitBytes noRegCB

/-- `eMBFuncReadDiscreteInputs` -/
def eMBFuncReadDiscreteInputs : (Nat → UInt8) → Nat → G → FuncReply G :=
  readFunc 2 (fun n => 1 ≤ n && n < 0x07D0) bitBytes noRegCB

/-- `eMBFuncWriteHoldingRegister` -/
def eMBFuncWriteHoldingRegister (writeCB : RegCB G) (pucFrame : Nat → UInt8) (usLen : Nat) (g : G) :
    FuncReply G :=
  if usLen = 5 then
    let out := writeCB (fun i => pucFrame (3 + i)) (word pucFrame 1 + 1) 1 g
    ⟨prveMBError2Exception out.eStatus, pucFrame, usLen, out.g⟩
  else ⟨.illegalDataValue, pucFrame, usLen, g⟩

/-- `eMBFuncWriteCoil` -/
def eMBFuncWriteCoil (pucFrame : Nat → UInt8) (usLen : Nat) (g : G) : FuncReply G :=
  if usLen = 5 then
    if pucFrame 4 = 0 ∧ (pucFrame 3 = 0xFF ∨ pucFrame 3 = 0) then
      let ucBuf := overlay (fun _ => 0) 0 [if pucFrame 3 = 0xFF then 1 else 0]
      let out := noRegCB ucBuf (word pucFrame 1 + 1) 1 g
      ⟨prveMBError2Exception out.eStatus, pucFrame, usLen, out.g⟩
    else ⟨.illegalDataValue, pucFrame, usLen, g⟩
  else ⟨.illegalDataValue, pucFrame, usLen, g⟩

/-- A function that writes many: the shortest PDU that it takes, the counts, and the byte count that
    so many must have. The data is not looked for. -/
def writeFunc (sizeMin : Nat) (max : UInt16) (byteCount : UInt16 → UInt8) (writeCB : RegCB G)
    (pucFrame : Nat → UInt8) (usLen : Nat) (g : G) : FuncReply G :=
  if sizeMin ≤ usLen then
    let usRegAddress := word pucFrame 1 + 1
    let usRegCount := word pucFrame 3
    if 1 ≤ usRegCount ∧ usRegCount ≤ max ∧ pucFrame 5 = byteCount usRegCount then
      let out := writeCB (fun i => pucFrame (6 + i)) usRegAddress usRegCount g
      if out.eStatus ≠ .noErr then ⟨prveMBError2Exception out.eStatus, pucFrame, usLen, out.g⟩
      else ⟨.none, pucFrame, 5, out.g⟩
    else ⟨.illegalDataValue, pucFrame, usLen, g⟩
  else ⟨.illegalDataValue, pucFrame, usLen, g⟩

/-- `eMBFuncWriteMultipleHoldingRegister` -/
def eMBFuncWriteMultipleHoldingRegister (writeCB : RegCB G) :=
  writeFunc 6 0x78 (fun n => (2 * n).toUInt8) writeCB

/-- `eMBFuncWriteMultipleCoils` -/
def eMBFuncWriteMultipleCoils : (Nat → UInt8) → Nat → G → FuncReply G :=
  writeFunc 6 0x07B0 (fun n => UInt8.ofNat (bitBytes n)) noRegCB

/-- `eMBFuncReadWriteMultipleHoldingRegister`. A PDU that is too short gets no exception. -/
def eMBFuncReadWriteMultipleHoldingRegister (readCB writeCB : RegCB G) (pucFrame : Nat → UInt8)
    (usLen : Nat) (g : G) : FuncReply G :=
  if 10 ≤ usLen then
    let usRegReadAddress := word pucFrame 1 + 1
    let usRegReadCount := word pucFrame 3
    let usRegWriteAddress := word pucFrame 5 + 1
    let usRegWriteCount := word pucFrame 7
    if 1 ≤ usRegReadCount ∧ usRegReadCount ≤ 0x7D ∧ 1 ≤ usRegWriteCount ∧ usRegWriteCount ≤ 0x79 ∧
        2 * usRegWriteCount.toNat = (pucFrame 9).toNat then
      let out := writeCB (fun i => pucFrame (10 + i)) usRegWriteAddress usRegWriteCount g
      if out.eStatus = .noErr then
        let pucFrame := overlay pucFrame 0 [23, UInt8.ofNat (usRegReadCount.toNat * 2)]
        let out := readCB (fun i => pucFrame (2 + i)) usRegReadAddress usRegReadCount out.g
        let pucFrame := overlay pucFrame 2 out.read
        if out.eStatus = .noErr then ⟨.none, pucFrame, 2 + 2 * usRegReadCount.toNat, out.g⟩
        else ⟨prveMBError2Exception out.eStatus, pucFrame, 2, out.g⟩
      else ⟨prveMBError2Exception out.eStatus, pucFrame, usLen, out.g⟩
    else ⟨.illegalDataValue, pucFrame, usLen, g⟩
  else ⟨.none, pucFrame, usLen, g⟩

/-- `eMBFuncReportSlaveID` -/
def eMBFuncReportSlaveID (ucMBSlaveID : List UInt8) (pucFrame : Nat → UInt8) (_usLen : Nat)
    (g : G) : FuncReply G :=
  ⟨.none, overlay pucFrame 1 ucMBSlaveID, 1 + ucMBSlaveID.length, g⟩

/-! ## What a function leaves -/

/-- No PDU gets longer than the buffer or empty, and the function code stays. -/
structure Tidy (ucFunctionCode : UInt8) (func : (Nat → UInt8) → Nat → G → FuncReply G) :
    Prop where
  fits : ∀ pucFrame usLen g, usLen ≤ mbPduSizeMax → (func pucFrame usLen g).usLen ≤ mbPduSizeMax
  pos : ∀ pucFrame usLen g, 0 < usLen → 0 < (func pucFrame usLen g).usLen
  code : ∀ pucFrame usLen g, pucFrame 0 = ucFunctionCode →
    (func pucFrame usLen g).pucFrame 0 = ucFunctionCode

/-- An exception changes nothing that can be seen. -/
def KeepsOnException (view : G → V) (func : (Nat → UInt8) → Nat → G → FuncReply G) : Prop :=
  ∀ pucFrame usLen g, (func pucFrame usLen g).eStatus ≠ .none →
    view (func pucFrame usLen g).g = view g

/-- A callback that fails changes nothing that can be seen. -/
def KeepsOnError (view : G → V) (cb : RegCB G) : Prop :=
  ∀ buf ad n g, (cb buf ad n g).eStatus ≠ .noErr → view (cb buf ad n g).g = view g

theorem exception_none_iff (e : MBErrorCode) : prveMBError2Exception e = .none ↔ e = .noErr := by
  cases e <;> decide

theorem keepsOnError_noRegCB (view : G → V) : KeepsOnError view (noRegCB : RegCB G) := by
  intro buf ad n g _
  rfl

theorem overlay_read_zero (mem : Nat → UInt8) (code n : UInt8) (read : List UInt8) :
    overlay (overlay mem 0 [code, n]) 2 read 0 = code := by
  rw [overlay_of_lt _ (by decide)]
  rfl

theorem tidy_readFunc {code : UInt8} {valid : UInt16 → Bool} {size : UInt16 → Nat}
    (hsize : ∀ n, valid n = true → size n ≤ 251) (readCB : RegCB G) :
    Tidy code (readFunc code valid size readCB) := by
  refine ⟨fun pucFrame usLen g hlen => ?_, fun pucFrame usLen g hlen => ?_,
    fun pucFrame usLen g hcode => ?_⟩
  · unfold readFunc
    split
    · dsimp only
      split
      · next hvalid =>
        have hfit := hsize _ hvalid
        unfold mbPduSizeMax
        split
        · exact Nat.le_of_ble_eq_true rfl
        · dsimp only
          omega
      · exact hlen
    · exact hlen
  · unfold readFunc
    split
    · dsimp only
      split
      · split
        · exact Nat.zero_lt_two
        · dsimp only
          omega
      · exact hlen
    · exact hlen
  · unfold readFunc
    split
    · dsimp only
      split
      · split <;> dsimp only <;> exact overlay_read_zero ..
      · exact hcode
    · exact hcode

theorem keepsOnException_readFunc {code : UInt8} {valid : UInt16 → Bool} {size : UInt16 → Nat}
    {view : G → V} {readCB : RegCB G} (h : KeepsOnError view readCB) :
    KeepsOnException view (readFunc code valid size readCB) := by
  intro pucFrame usLen g hex
  unfold readFunc at hex ⊢
  split at hex
  · dsimp only at hex ⊢
    split at hex
    · split at hex
      · next hlen hvalid herr =>
        rw [if_pos hlen, if_pos hvalid, if_pos herr]
        exact h _ _ _ _ herr
      · exact absurd rfl hex
    · next hlen hvalid =>
      rw [if_pos hlen, if_neg hvalid]
  · next hlen =>
    rw [if_neg hlen]

theorem tidy_writeFunc {code : UInt8} {sizeMin : Nat} {max : UInt16} {byteCount : UInt16 → UInt8}
    (writeCB : RegCB G) : Tidy code (writeFunc sizeMin max byteCount writeCB) := by
  refine ⟨fun pucFrame usLen g hlen => ?_, fun pucFrame usLen g hlen => ?_,
    fun pucFrame usLen g hcode => ?_⟩
  · unfold writeFunc
    split
    · dsimp only
      split
      · split
        · exact hlen
        · exact Nat.le_of_ble_eq_true rfl
      · exact hlen
    · exact hlen
  · unfold writeFunc
    split
    · dsimp only
      split
      · split
        · exact hlen
        · exact Nat.le_of_ble_eq_true rfl
      · exact hlen
    · exact hlen
  · unfold writeFunc
    split
    · dsimp only
      split
      · split <;> exact hcode
      · exact hcode
    · exact hcode

theorem keepsOnException_writeFunc {sizeMin : Nat} {max : UInt16} {byteCount : UInt16 → UInt8}
    {view : G → V} {writeCB : RegCB G} (h : KeepsOnError view writeCB) :
    KeepsOnException view (writeFunc sizeMin max byteCount writeCB) := by
  intro pucFrame usLen g hex
  unfold writeFunc at hex ⊢
  split at hex
  · dsimp only at hex ⊢
    split at hex
    · split at hex
      · next hlen hvalid herr =>
        rw [if_pos hlen, if_pos hvalid, if_pos herr]
        exact h _ _ _ _ herr
      · exact absurd rfl hex
    · next hlen hvalid =>
      rw [if_pos hlen, if_neg hvalid]
  · next hlen =>
    rw [if_neg hlen]

theorem tidy_writeHolding (writeCB : RegCB G) : Tidy 6 (eMBFuncWriteHoldingRegister writeCB) := by
  refine ⟨fun pucFrame usLen g hlen => ?_, fun pucFrame usLen g hlen => ?_,
    fun pucFrame usLen g hcode => ?_⟩ <;> unfold eMBFuncWriteHoldingRegister <;> split <;> assumption

theorem keepsOnException_writeHolding {view : G → V} {writeCB : RegCB G}
    (h : KeepsOnError view writeCB) : KeepsOnException view (eMBFuncWriteHoldingRegister writeCB) := by
  intro pucFrame usLen g hex
  unfold eMBFuncWriteHoldingRegister at hex ⊢
  split at hex
  · next hlen =>
    rw [if_pos hlen]
    exact h _ _ _ _ fun herr => hex ((exception_none_iff _).mpr herr)
  · next hlen =>
    rw [if_neg hlen]

theorem tidy_writeCoil : Tidy 5 (eMBFuncWriteCoil : (Nat → UInt8) → Nat → G → FuncReply G) := by
  refine ⟨fun pucFrame usLen g hlen => ?_, fun pucFrame usLen g hlen => ?_,
    fun pucFrame usLen g hcode => ?_⟩ <;> unfold eMBFuncWriteCoil <;> split
  any_goals split
  all_goals assumption

theorem keepsOnException_writeCoil (view : G → V) :
    KeepsOnException view (eMBFuncWriteCoil : (Nat → UInt8) → Nat → G → FuncReply G) := by
  intro pucFrame usLen g _
  unfold eMBFuncWriteCoil
  split
  · split <;> rfl
  · rfl

theorem tidy_readWrite (readCB writeCB : RegCB G) :
    Tidy 23 (eMBFuncReadWriteMultipleHoldingRegister readCB writeCB) := by
  refine ⟨fun pucFrame usLen g hlen => ?_, fun pucFrame usLen g hlen => ?_,
    fun pucFrame usLen g hcode => ?_⟩
  · unfold eMBFuncReadWriteMultipleHoldingRegister
    split
    · dsimp only
      split
      · next hvalid =>
        have hcount : (word pucFrame 3).toNat ≤ 125 := hvalid.2.1
        unfold mbPduSizeMax at hlen ⊢
        split
        · split
          · dsimp only
            omega
          · exact Nat.le_of_ble_eq_true rfl
        · exact hlen
      · exact hlen
    · exact hlen
  · unfold eMBFuncReadWriteMultipleHoldingRegister
    split
    · dsimp only
      split
      · split
        · split
          · dsimp only
            omega
          · exact Nat.zero_lt_two
        · exact hlen
      · exact hlen
    · exact hlen
  · unfold eMBFuncReadWriteMultipleHoldingRegister
    split
    · dsimp only
      split
      · split
        · split <;> dsimp only <;> exact overlay_read_zero ..
        · exact hcode
      · exact hcode
    · exact hcode

theorem tidy_reportSlaveID {ucMBSlaveID : List UInt8} (h : ucMBSlaveID.length ≤ 252) :
    Tidy 17 (eMBFuncReportSlaveID ucMBSlaveID : (Nat → UInt8) → Nat → G → FuncReply G) := by
  refine ⟨fun pucFrame usLen g _ => ?_, fun pucFrame usLen g _ => ?_,
    fun pucFrame usLen g hcode => ?_⟩
  · unfold eMBFuncReportSlaveID mbPduSizeMax
    dsimp only
    omega
  · unfold eMBFuncReportSlaveID
    dsimp only
    omega
  · have hkeep : overlay pucFrame 1 ucMBSlaveID 0 = pucFrame 0 := overlay_of_lt _ Nat.zero_lt_one
    exact hkeep.trans hcode

theorem bitBytes_le (n : UInt16) (h : n < 0x07D0) : bitBytes n ≤ 251 := by
  have hn : n.toNat < 2000 := h
  unfold bitBytes
  split
  · have hdiv : (n / 8 + 1).toNat = n.toNat / 8 + 1 := by
      rw [UInt16.toNat_add, UInt16.toNat_div]
      show (n.toNat / 8 + 1) % 65536 = _
      omega
    rw [UInt16.toNat_toUInt8, hdiv]
    omega
  · have hdiv : (n / 8).toNat = n.toNat / 8 := UInt16.toNat_div ..
    rw [UInt16.toNat_toUInt8, hdiv]
    omega

/-! ## The table -/

theorem tidy_readHolding (readCB : RegCB G) : Tidy 3 (eMBFuncReadHoldingRegister readCB) := by
  refine tidy_readFunc (fun n hn => ?_) readCB
  have hle : n.toNat ≤ 125 := of_decide_eq_true (Bool.and_eq_true_iff.mp hn).2
  omega

theorem tidy_readInput :
    Tidy 4 (eMBFuncReadInputRegister : (Nat → UInt8) → Nat → G → FuncReply G) := by
  refine tidy_readFunc (fun n hn => ?_) noRegCB
  have hlt : n.toNat < 125 := of_decide_eq_true (Bool.and_eq_true_iff.mp hn).2
  omega

theorem tidy_readCoils : Tidy 1 (eMBFuncReadCoils : (Nat → UInt8) → Nat → G → FuncReply G) :=
  tidy_readFunc (fun n hn => bitBytes_le n (of_decide_eq_true (Bool.and_eq_true_iff.mp hn).2)) _

theorem tidy_readDiscrete :
    Tidy 2 (eMBFuncReadDiscreteInputs : (Nat → UInt8) → Nat → G → FuncReply G) :=
  tidy_readFunc (fun n hn => bitBytes_le n (of_decide_eq_true (Bool.and_eq_true_iff.mp hn).2)) _

theorem tidy_writeMultiple (writeCB : RegCB G) :
    Tidy 16 (eMBFuncWriteMultipleHoldingRegister writeCB) :=
  tidy_writeFunc writeCB

theorem tidy_writeMultipleCoils :
    Tidy 15 (eMBFuncWriteMultipleCoils : (Nat → UInt8) → Nat → G → FuncReply G) :=
  tidy_writeFunc noRegCB

/-- An entry of the table. -/
def entry (code : UInt8) (func : (Nat → UInt8) → Nat → G → FuncReply G) (h : Tidy code func) :
    UInt8 × FuncHandler G :=
  (code, ⟨fun _ => func, fun _ => h.fits⟩)

/-- `xFuncHandlers` of `mb.c`; nothing sets the identification of the slave. -/
def xFuncHandlers (readCB writeCB : RegCB G) : List (UInt8 × FuncHandler G) :=
  [entry 17 (eMBFuncReportSlaveID []) (tidy_reportSlaveID (Nat.zero_le _)),
    entry 4 eMBFuncReadInputRegister tidy_readInput,
    entry 3 (eMBFuncReadHoldingRegister readCB) (tidy_readHolding readCB),
    entry 16 (eMBFuncWriteMultipleHoldingRegister writeCB) (tidy_writeMultiple writeCB),
    entry 6 (eMBFuncWriteHoldingRegister writeCB) (tidy_writeHolding writeCB),
    entry 23 (eMBFuncReadWriteMultipleHoldingRegister readCB writeCB)
      (tidy_readWrite readCB writeCB),
    entry 1 eMBFuncReadCoils tidy_readCoils,
    entry 5 eMBFuncWriteCoil tidy_writeCoil,
    entry 15 eMBFuncWriteMultipleCoils tidy_writeMultipleCoils,
    entry 2 eMBFuncReadDiscreteInputs tidy_readDiscrete]

theorem findHandler_mem {code : UInt8} {table : List (UInt8 × FuncHandler G)} {h : FuncHandler G}
    (hfind : findHandler code table = some h) : (code, h) ∈ table := by
  induction table with
  | nil => exact absurd hfind (by simp [findHandler])
  | cons e table ih =>
    obtain ⟨c, f⟩ := e
    unfold findHandler at hfind
    split at hfind
    · exact absurd hfind (by simp)
    · split at hfind
      · next hc =>
        rw [← hc, ← Option.some.inj hfind]
        exact List.mem_cons_self
      · exact List.mem_cons_of_mem _ (ih hfind)

/-- What holds of each entry. -/
theorem xFuncHandlers_tidy {view : G → V} {readCB writeCB : RegCB G}
    (hread : KeepsOnError view readCB) (hwrite : KeepsOnError view writeCB) {code : UInt8}
    {pxHandler : FuncHandler G} (h : (code, pxHandler) ∈ xFuncHandlers readCB writeCB) :
    ∃ func, pxHandler.run = (fun _ => func) ∧ Tidy code func ∧
      (code ≠ 23 → KeepsOnException view func) := by
  have hnone := keepsOnError_noRegCB view
  have hentry : ∀ {c : UInt8} {func : (Nat → UInt8) → Nat → G → FuncReply G} {ht : Tidy c func},
      (c ≠ 23 → KeepsOnException view func) → (code, pxHandler) = entry c func ht →
      ∃ func, pxHandler.run = (fun _ => func) ∧ Tidy code func ∧
        (code ≠ 23 → KeepsOnException view func) := by
    rintro c func ht hkeep heq
    obtain ⟨rfl, rfl⟩ := Prod.mk.inj heq
    exact ⟨func, rfl, ht, hkeep⟩
  unfold xFuncHandlers at h
  simp only [List.mem_cons, List.not_mem_nil, or_false] at h
  rcases h with h | h | h | h | h | h | h | h | h | h
  · exact hentry (fun _ _ _ _ hex => absurd rfl hex) h
  · exact hentry (fun _ => keepsOnException_readFunc hnone) h
  · exact hentry (fun _ => keepsOnException_readFunc hread) h
  · exact hentry (fun _ => keepsOnException_writeFunc hwrite) h
  · exact hentry (fun _ => keepsOnException_writeHolding hwrite) h
  · exact hentry (fun hne => absurd rfl hne) h
  · exact hentry (fun _ => keepsOnException_readFunc hnone) h
  · exact hentry (fun _ => keepsOnException_writeCoil view) h
  · exact hentry (fun _ => keepsOnException_writeFunc hnone) h
  · exact hentry (fun _ => keepsOnException_readFunc hnone) h

/-! ## Answers -/

/-- The answer to a PDU: the code of the request comes back, or the code with the error bit and an
    exception. -/
structure AnswerSpec (view : G → V) (pdu : Nat → UInt8) (g : G) (out : FuncReply G) : Prop where
  pos : 0 < (answerPdu (pdu 0) out).2
  fits : (answerPdu (pdu 0) out).2 ≤ mbPduSizeMax
  code : out.eStatus = .none → (answerPdu (pdu 0) out).1 0 = pdu 0
  exception : out.eStatus ≠ .none →
    window (answerPdu (pdu 0) out).1 0 (answerPdu (pdu 0) out).2 =
      [pdu 0 ||| 128, out.eStatus.code]
  kept : out.eStatus ≠ .none → pdu 0 ≠ 23 → view out.g = view g

theorem answerSpec {view : G → V} {readCB writeCB : RegCB G} (hread : KeepsOnError view readCB)
    (hwrite : KeepsOnError view writeCB) (p : Nat) (pdu : Nat → UInt8) {len : Nat} (g : G)
    (hpos : 0 < len) (hfit : len ≤ mbPduSizeMax) :
    AnswerSpec view pdu g (callHandler (xFuncHandlers readCB writeCB) p pdu len g) := by
  have hout : let out := callHandler (xFuncHandlers readCB writeCB) p pdu len g
      0 < out.usLen ∧ out.pucFrame 0 = pdu 0 ∧
        (out.eStatus ≠ .none → pdu 0 ≠ 23 → view out.g = view g) := by
    unfold callHandler
    cases hfind : findHandler (pdu 0) (xFuncHandlers readCB writeCB) with
    | none => exact ⟨hpos, rfl, fun _ _ => rfl⟩
    | some pxHandler =>
      obtain ⟨func, hrun, htidy, hkeep⟩ := xFuncHandlers_tidy hread hwrite (findHandler_mem hfind)
      dsimp only
      rw [hrun]
      exact ⟨htidy.pos _ _ _ hpos, htidy.code _ _ _ rfl, fun hex hne => hkeep hne _ _ _ hex⟩
  have hfits := callHandler_fits (xFuncHandlers readCB writeCB) p pdu g hfit
  generalize callHandler (xFuncHandlers readCB writeCB) p pdu len g = out at hout hfits ⊢
  obtain ⟨houtPos, hcode, hkept⟩ := hout
  refine
    { pos := ?_
      fits := answerPdu_fits _ hfits
      code := fun hnone => ?_
      exception := fun hex => ?_
      kept := hkept }
  · unfold answerPdu
    split
    · exact Nat.zero_lt_two
    · exact houtPos
  · unfold answerPdu
    rw [if_neg (not_not_intro hnone)]
    exact hcode
  · unfold answerPdu
    rw [if_pos hex]
    exact window_overlay out.pucFrame 0 [pdu 0 ||| 128, out.eStatus.code]

end K64Gateway.Modbus
