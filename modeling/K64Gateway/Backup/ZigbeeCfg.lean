import K64Gateway.VarManage.Json
import K64Gateway.Backup.TcpipCfg

/-
  The Zigbee module, `board/cfg/zigbee_cfg.c`, with the commands to the module succeeding.

  Proved: exactly when the module's configuration that is restored from its own export is the same
  (`jsonZigbeeCfg_restore`).
-/

namespace K64Gateway.Backup

open CString Cjson
open VarManage (hexDigitX hex02X)

variable {R : Type} [CNumber R]

/-! ## Hardware addresses -/

/-- `UCHAR [8]` -/
def Mac : Type := { bytes : List UInt8 // bytes.length = 8 }

instance : DecidableEq Mac := inferInstanceAs (DecidableEq { bytes : List UInt8 // bytes.length = 8 })

def isHexDigit (c : UInt8) : Bool := (48 ≤ c && c ≤ 57) || (65 ≤ c && c ≤ 70) || (97 ≤ c && c ≤ 102)

def hexValue (c : UInt8) : Nat :=
  if c ≤ 57 then c.toNat - 48 else if c ≤ 70 then c.toNat - 55 else c.toNat - 87

/-- `%02x` of `sscanf`: two characters at most, a sign among them, after white space. -/
def scanHex (s : List UInt8) : Option (Int × List UInt8) :=
  let s := s.dropWhile isSpace
  let (sign, s, width) :=
    match s with
    | 43 :: t => ((1 : Int), t, 1)
    | 45 :: t => (-1, t, 1)
    | s => (1, s, 2)
  let digits := (s.take width).takeWhile isHexDigit
  if digits = [] then none
  else some (sign * ↑(digits.foldl (fun v c => 16 * v + hexValue c) 0), s.drop digits.length)

/-- `sscanf` of `n` numbers with colons between them: those that are not read are 0. -/
def scanMac : Nat → List UInt8 → List UInt8
  | 0, _ => []
  | n + 1, s =>
    match scanHex s with
    | none => List.replicate (n + 1) 0
    | some (v, 58 :: s) => UInt8.ofInt v :: scanMac n s
    | some (v, _) => UInt8.ofInt v :: List.replicate n 0

theorem length_scanMac (n : Nat) (s : List UInt8) : (scanMac n s).length = n := by
  induction n generalizing s with
  | zero => rfl
  | succ n ih =>
    unfold scanMac
    split
    · exact List.length_replicate
    · rw [List.length_cons, ih]
    · rw [List.length_cons, List.length_replicate]

def Mac.scan (s : List UInt8) : Mac := ⟨scanMac 8 s, length_scanMac 8 s⟩

/-- `"%02X:%02X:%02X:%02X:%02X:%02X:%02X:%02X"` -/
def Mac.text (m : Mac) : List UInt8 := [58].intercalate (m.val.map hex02X)

/-- The digits of `%02X` as those of `%02x`. -/
theorem hexDigitX_digits (b : UInt8) :
    isHexDigit (hexDigitX (b / 16)) = true ∧ isHexDigit (hexDigitX (b % 16)) = true ∧
      16 * hexValue (hexDigitX (b / 16)) + hexValue (hexDigitX (b % 16)) = b.toNat := by
  have hall : ∀ n < 256, isHexDigit (hexDigitX (UInt8.ofNat n / 16)) = true ∧
      isHexDigit (hexDigitX (UInt8.ofNat n % 16)) = true ∧
        16 * hexValue (hexDigitX (UInt8.ofNat n / 16)) + hexValue (hexDigitX (UInt8.ofNat n % 16)) =
          (UInt8.ofNat n).toNat := by decide +kernel
  have h := hall b.toNat b.toNat_lt
  rwa [UInt8.ofNat_toNat] at h

theorem isHexDigit_ne {c : UInt8} (h : isHexDigit c = true) :
    isSpace c = false ∧ c ≠ 43 ∧ c ≠ 45 ∧ c ≠ 0 := by
  have hall : ∀ n < 256, isHexDigit (UInt8.ofNat n) = true → isSpace (UInt8.ofNat n) = false ∧
      UInt8.ofNat n ≠ 43 ∧ UInt8.ofNat n ≠ 45 ∧ UInt8.ofNat n ≠ 0 := by decide +kernel
  have hc := hall c.toNat c.toNat_lt
  rw [UInt8.ofNat_toNat] at hc
  exact hc h

/-- Two digits are read back, whatever follows them. -/
theorem scanHex_hex02X (b : UInt8) (rest : List UInt8) :
    scanHex (hex02X b ++ rest) = some ((b.toNat : Int), rest) := by
  obtain ⟨hhigh, hlow, hvalue⟩ := hexDigitX_digits b
  obtain ⟨hspace, hplus, hminus, -⟩ := isHexDigit_ne hhigh
  have hdrop : (hex02X b ++ rest).dropWhile isSpace =
      hexDigitX (b / 16) :: hexDigitX (b % 16) :: rest :=
    List.dropWhile_cons_of_neg (by rw [hspace]; exact Bool.false_ne_true)
  unfold scanHex
  rw [hdrop]
  dsimp only
  split
  · next t hs => exact absurd (List.cons.inj hs).1 hplus
  · next t hs => exact absurd (List.cons.inj hs).1 hminus
  · simp [hhigh, hlow, hvalue]

theorem scanMac_text (bytes : List UInt8) :
    scanMac bytes.length ([58].intercalate (bytes.map hex02X)) = bytes := by
  have hbyte : ∀ b : UInt8, UInt8.ofInt (b.toNat : Int) = b := fun b => by
    show UInt8.ofNat ((b.toNat : Int) % 2 ^ 8).toNat = b
    rw [Int.emod_eq_of_lt (Int.natCast_nonneg _) (by have := b.toNat_lt; omega),
      Int.toNat_natCast, UInt8.ofNat_toNat]
  induction bytes with
  | nil => rfl
  | cons b bytes ih =>
    cases bytes with
    | nil =>
      have hscan := scanHex_hex02X b []
      rw [List.append_nil] at hscan
      rw [List.map_singleton, List.intercalate_singleton]
      show scanMac 1 (hex02X b) = [b]
      unfold scanMac
      rw [hscan]
      exact congrArg (· :: []) (hbyte b)
    | cons c bytes =>
      have hscan := scanHex_hex02X b (58 :: [58].intercalate ((c :: bytes).map hex02X))
      rw [List.map_cons, List.map_cons, List.intercalate_cons_cons, List.append_assoc]
      rw [List.map_cons] at hscan ih
      rw [List.length_cons, List.singleton_append, scanMac, hscan]
      show UInt8.ofInt _ :: scanMac (c :: bytes).length _ = _
      rw [hbyte, ih]

theorem Mac.scan_text (m : Mac) : Mac.scan m.text = m := by
  have hscan := scanMac_text m.val
  rw [m.property] at hscan
  exact Subtype.ext hscan

theorem Mac.text_inj {m m' : Mac} : m.text = m'.text ↔ m = m' :=
  ⟨fun h => by rw [← Mac.scan_text m, h, Mac.scan_text], fun h => by rw [h]⟩

theorem Mac.length_text (m : Mac) : m.text.length = 23 := by
  match m with
  | ⟨[_, _, _, _, _, _, _, _], _⟩ => rfl

theorem Mac.zero_not_mem_text (m : Mac) : (0 : UInt8) ∉ m.text := by
  refine zero_not_mem_intercalate (by decide) fun s hs hmem => ?_
  obtain ⟨b, -, rfl⟩ := List.mem_map.mp hs
  obtain ⟨hhigh, hlow, -⟩ := hexDigitX_digits b
  rcases List.mem_pair.mp hmem with h0 | h0
  · exact (isHexDigit_ne hhigh).2.2.2 h0.symm
  · exact (isHexDigit_ne hlow).2.2.2 h0.symm

/-! ## The configuration -/

/-- `zigbee_cfg_t`, with the fields of `xInfo` that are set or exported. -/
structure ZigbeeCfg where
  workMode : UInt8
  panID : UInt16
  addr : UInt16
  mac : Mac
  dstAddr : UInt16
  dstMac : Mac
  chan : UInt8
  msgMode : UInt8
  ulLearnStep : UInt32
  btSlaveAddr : UInt8
  nProtoType : Fin 2147483648
  tmode : UInt8
  dstType : UInt8
  dstCfg : XferDst

/-- `c_zigbee_default_cfg` -/
def ZigbeeCfg.default : ZigbeeCfg where
  workMode := 0
  panID := 0
  addr := 0
  mac := ⟨List.replicate 8 0, rfl⟩
  dstAddr := 0
  dstMac := ⟨List.replicate 8 0, rfl⟩
  chan := 11
  msgMode := 0
  ulLearnStep := 30
  btSlaveAddr := 0
  nProtoType := 0
  tmode := 0
  dstType := 0
  dstCfg := ⟨⟨0, 0, 0, 0⟩, 0⟩

/-- `if (v >= lo && v <= hi) field = v;` -/
def setIn {α : Type} (lo hi v : Int) (f : Nat → α) (field : α) : α :=
  if lo ≤ v ∧ v ≤ hi then f v.toNat else field

/-- `if (str && strlen(str) < 3 * sizeof(field)) sscanf(smac, …);`, where no number is read from a
    null pointer. -/
def setMac (str smac : Option (List UInt8)) (field : Mac) : Mac :=
  match str with
  | some s => if s.length < 24 then Mac.scan (smac.getD []) else field
  | none => field

/-- The fields of the mode `ZGB_TM_TRT`; `uty` is not set. -/
def ZigbeeCfg.setTrt (pCfg : Item R) (g : ZigbeeCfg) : ZigbeeCfg :=
  if g.tmode = 1 then
    { g with
      dstType := setIf (intAt pCfg (chars ['d', 't'])) UInt8.ofNat g.dstType
      dstCfg :=
        { g.dstCfg with
          cfg := g.dstCfg.cfg.set pCfg (chars ['u', 'b', 'r']) (chars ['u', 'd', 'b'])
            (chars ['u', 's', 'b']) (chars ['u', 'p', 'y']) } }
  else g

/-- `setZigbeeCfgWithJson`; the module takes the configuration. -/
def setZigbeeCfg (pCfg : Item R) (g : ZigbeeCfg) : ZigbeeCfg :=
  let smac := strAt pCfg (chars ['s', 'm', 'a', 'c'])
  let dmac := strAt pCfg (chars ['d', 'm', 'a', 'c'])
  let lstep := intAt pCfg (chars ['l', 's', 't', 'e', 'p'])
  let g := { g with
    workMode := setIn 0 2 (intAt pCfg (chars ['w', 'm', 'd'])) UInt8.ofNat g.workMode
    panID := setIn 1 65535 (intAt pCfg (chars ['p', 'i', 'd'])) UInt16.ofNat g.panID
    addr := setIn 1 65535 (intAt pCfg (chars ['s', 'r', 'c'])) UInt16.ofNat g.addr
    dstAddr := setIn 1 65535 (intAt pCfg (chars ['d', 's', 't'])) UInt16.ofNat g.dstAddr
    chan := setIn 11 26 (intAt pCfg (chars ['c', 'h'])) UInt8.ofNat g.chan
    msgMode := setIn 0 1 (intAt pCfg (chars ['m', 'm', 'd'])) UInt8.ofNat g.msgMode
    ulLearnStep := if 5 ≤ lstep then UInt32.ofNat lstep.toNat else g.ulLearnStep
    btSlaveAddr := setIf (intAt pCfg (chars ['s', 'l', 'v', 'a', 'd'])) UInt8.ofNat g.btSlaveAddr
    nProtoType := setIf (intAt pCfg (chars ['p', 'o'])) (Fin.ofNat _) g.nProtoType
    tmode := setIn 0 2 (intAt pCfg (chars ['t', 'm'])) UInt8.ofNat g.tmode
    mac := setMac smac smac g.mac
    -- The source scans `smac` here too.
    dstMac := setMac dmac smac g.dstMac }
  ({ g with tmode := if g.workMode = 2 then 0 else g.tmode } : ZigbeeCfg).setTrt pCfg

/-- `jsonZigbeeCfg`; `ver` is the version that the module tells. -/
def jsonZigbeeCfg (ver : List UInt8) (g : ZigbeeCfg) : Item R :=
  .object ([(chars ['w', 'm', 'd'], number g.workMode.toNat),
    (chars ['p', 'i', 'd'], number g.panID.toNat), (chars ['s', 'r', 'c'], number g.addr.toNat),
    (chars ['s', 'm', 'a', 'c'], .string g.mac.text),
    (chars ['d', 's', 't'], number g.dstAddr.toNat),
    (chars ['d', 'm', 'a', 'c'], .string g.dstMac.text),
    (chars ['c', 'h'], number g.chan.toNat), (chars ['m', 'm', 'd'], number g.msgMode.toNat),
    (chars ['v', 'e', 'r'], .string ver),
    (chars ['l', 's', 't', 'e', 'p'], number g.ulLearnStep.toNat),
    (chars ['s', 'l', 'v', 'a', 'd'], number g.btSlaveAddr.toNat),
    (chars ['p', 'o'], number g.nProtoType.val), (chars ['t', 'm'], number g.tmode.toNat)] ++
    (if g.tmode = 1 then (chars ['d', 't'], number g.dstType.toNat) :: jsonDst g.dstCfg else []))

/-! ## What the setter keeps -/

/-- The limits of the setter; a coordinator is in the mode `ZGB_TM_GW`. -/
structure ZigbeeCfg.Ok (g : ZigbeeCfg) : Prop where
  workMode : g.workMode.toNat ≤ 2
  coordinator : g.workMode = 2 → g.tmode = 0
  chan : 11 ≤ g.chan.toNat ∧ g.chan.toNat ≤ 26
  msgMode : g.msgMode.toNat ≤ 1
  learnStep : 5 ≤ g.ulLearnStep.toNat ∧ g.ulLearnStep.toNat < 2147483648
  tmode : g.tmode.toNat ≤ 2
  baudRate : g.dstCfg.cfg.baudRate.toNat < 2147483648

theorem ZigbeeCfg.ok_default : ZigbeeCfg.default.Ok :=
  ⟨by decide, fun _ => rfl, by decide, by decide, by decide, by decide, by decide⟩

/-- A byte stays in the limits it is set with. -/
theorem setIn_byte (lo hi : Nat) {v : Int} {field : UInt8} (hhi : hi < 256)
    (h : lo ≤ field.toNat ∧ field.toNat ≤ hi) :
    lo ≤ (setIn lo hi v UInt8.ofNat field).toNat ∧
      (setIn lo hi v UInt8.ofNat field).toNat ≤ hi := by
  unfold setIn
  split
  · rw [UInt8.toNat_ofNat_of_lt' (by show v.toNat < 256; omega)]
    omega
  · exact h

theorem ZigbeeCfg.setTrt_ok (pCfg : Item R) {g : ZigbeeCfg} (h : g.Ok) : (g.setTrt pCfg).Ok := by
  unfold ZigbeeCfg.setTrt
  split
  · exact ⟨h.workMode, h.coordinator, h.chan, h.msgMode, h.learnStep, h.tmode,
      setIf_lt h.baudRate (intAt_lt _ _) (by decide)⟩
  · exact h

theorem setZigbeeCfg_ok (pCfg : Item R) {g : ZigbeeCfg} (h : g.Ok) : (setZigbeeCfg pCfg g).Ok := by
  have hint := intAt_lt pCfg (chars ['l', 's', 't', 'e', 'p'])
  unfold setZigbeeCfg
  dsimp only
  refine ZigbeeCfg.setTrt_ok pCfg ⟨?_, ?_, ?_, ?_, ?_, ?_, h.baudRate⟩
  · exact (setIn_byte 0 2 (by decide) ⟨Nat.zero_le _, h.workMode⟩).2
  · intro hcoord
    exact if_pos hcoord
  · exact setIn_byte 11 26 (by decide) h.chan
  · exact (setIn_byte 0 1 (by decide) ⟨Nat.zero_le _, h.msgMode⟩).2
  · dsimp only
    split
    · rw [UInt32.toNat_ofNat_of_lt' (by show Int.toNat _ < 4294967296; omega)]
      omega
    · exact h.learnStep
  · dsimp only
    split
    · decide
    · exact (setIn_byte 0 2 (by decide) ⟨Nat.zero_le _, h.tmode⟩).2

/-! ## Restoring -/

/-- A byte in the limits is restored. -/
theorem setIn_toNat (lo hi : Nat) {x : UInt8} (h : lo ≤ x.toNat ∧ x.toNat ≤ hi) (field : UInt8) :
    setIn lo hi (x.toNat : Int) UInt8.ofNat field = x := by
  unfold setIn
  rw [if_pos ⟨by omega, by omega⟩, Int.toNat_natCast, UInt8.ofNat_toNat]

/-- A network address is restored unless it is 0. -/
theorem setIn_address (x field : UInt16) :
    setIn 1 65535 (x.toNat : Int) UInt16.ofNat field = if x = 0 then field else x := by
  have hlt := x.toNat_lt
  unfold setIn
  by_cases hzero : x = 0
  · rw [if_pos hzero, hzero]
    rfl
  · have hpos : x.toNat ≠ 0 := fun h0 => hzero (UInt16.toNat_inj.mp h0)
    rw [if_neg hzero, if_pos ⟨by omega, by omega⟩, Int.toNat_natCast, UInt16.ofNat_toNat]

/-- What the configuration becomes by the export of another one. -/
def ZigbeeCfg.merge (a b : ZigbeeCfg) : ZigbeeCfg :=
  { a with
    panID := if a.panID = 0 then b.panID else a.panID
    addr := if a.addr = 0 then b.addr else a.addr
    dstAddr := if a.dstAddr = 0 then b.dstAddr else a.dstAddr
    dstMac := a.mac
    dstType := if a.tmode = 1 then a.dstType else b.dstType
    dstCfg := if a.tmode = 1 then ⟨a.dstCfg.cfg, b.dstCfg.type⟩ else b.dstCfg }

/-- The fields of the mode `ZGB_TM_TRT`. -/
theorem ZigbeeCfg.setTrt_json {a : ZigbeeCfg} (h : a.Ok) (ver : List UInt8) {g : ZigbeeCfg}
    (htmode : g.tmode = a.tmode) :
    g.setTrt (jsonZigbeeCfg (R := R) ver a) =
      { g with
        dstType := if a.tmode = 1 then a.dstType else g.dstType
        dstCfg := if a.tmode = 1 then ⟨a.dstCfg.cfg, g.dstCfg.type⟩ else g.dstCfg } := by
  unfold ZigbeeCfg.setTrt
  rw [← htmode]
  by_cases htrt : g.tmode = 1
  · have hjson : jsonZigbeeCfg (R := R) ver a = jsonZigbeeCfg ver { a with tmode := 1 } := by
      rw [← htrt, htmode]
    have hdt : intAt (jsonZigbeeCfg (R := R) ver a) (chars ['d', 't']) = a.dstType.toNat := by
      rw [hjson]
      exact intAt_number (by have := a.dstType.toNat_lt; omega) rfl
    have hcfg : g.dstCfg.cfg.set (jsonZigbeeCfg (R := R) ver a) (chars ['u', 'b', 'r'])
        (chars ['u', 'd', 'b']) (chars ['u', 's', 'b']) (chars ['u', 'p', 'y']) = a.dstCfg.cfg := by
      rw [hjson]
      exact UartPortCfg.set_number h.baudRate rfl rfl rfl rfl _
    rw [if_pos htrt, if_pos htrt, if_pos htrt, hdt, hcfg, setIf_natCast, UInt8.ofNat_toNat]
  · rw [if_neg htrt, if_neg htrt, if_neg htrt]

theorem setMac_text (m smac field : Mac) :
    setMac (some m.text) (some smac.text) field = smac := by
  unfold setMac
  dsimp only
  rw [if_pos (by rw [Mac.length_text]; decide), Option.getD_some, Mac.scan_text]

/-- The fields outside of the mode `ZGB_TM_TRT`. -/
theorem setZigbeeCfg_json {a : ZigbeeCfg} (h : a.Ok) (ver : List UInt8) (b : ZigbeeCfg) :
    setZigbeeCfg (jsonZigbeeCfg (R := R) ver a) b = a.merge b := by
  have hnat := h.learnStep
  have hwmd : intAt (jsonZigbeeCfg (R := R) ver a) (chars ['w', 'm', 'd']) = a.workMode.toNat :=
    intAt_number (by have := a.workMode.toNat_lt; omega) rfl
  have hpid : intAt (jsonZigbeeCfg (R := R) ver a) (chars ['p', 'i', 'd']) = a.panID.toNat :=
    intAt_number (by have := a.panID.toNat_lt; omega) rfl
  have hsrc : intAt (jsonZigbeeCfg (R := R) ver a) (chars ['s', 'r', 'c']) = a.addr.toNat :=
    intAt_number (by have := a.addr.toNat_lt; omega) rfl
  have hdst : intAt (jsonZigbeeCfg (R := R) ver a) (chars ['d', 's', 't']) = a.dstAddr.toNat :=
    intAt_number (by have := a.dstAddr.toNat_lt; omega) rfl
  have hch : intAt (jsonZigbeeCfg (R := R) ver a) (chars ['c', 'h']) = a.chan.toNat :=
    intAt_number (by have := a.chan.toNat_lt; omega) rfl
  have hmmd : intAt (jsonZigbeeCfg (R := R) ver a) (chars ['m', 'm', 'd']) = a.msgMode.toNat :=
    intAt_number (by have := a.msgMode.toNat_lt; omega) rfl
  have hlstep : intAt (jsonZigbeeCfg (R := R) ver a) (chars ['l', 's', 't', 'e', 'p']) =
      a.ulLearnStep.toNat := intAt_number (by omega) rfl
  have hslvad : intAt (jsonZigbeeCfg (R := R) ver a) (chars ['s', 'l', 'v', 'a', 'd']) =
      a.btSlaveAddr.toNat := intAt_number (by have := a.btSlaveAddr.toNat_lt; omega) rfl
  have hpo : intAt (jsonZigbeeCfg (R := R) ver a) (chars ['p', 'o']) = a.nProtoType.val :=
    intAt_number a.nProtoType.isLt rfl
  have htm : intAt (jsonZigbeeCfg (R := R) ver a) (chars ['t', 'm']) = a.tmode.toNat :=
    intAt_number (by have := a.tmode.toNat_lt; omega) rfl
  have hsmac : strAt (jsonZigbeeCfg (R := R) ver a) (chars ['s', 'm', 'a', 'c']) =
      some a.mac.text := by
    rw [strAt_string (s := a.mac.text) rfl, cstr_of_not_mem a.mac.zero_not_mem_text]
  have hdmac : strAt (jsonZigbeeCfg (R := R) ver a) (chars ['d', 'm', 'a', 'c']) =
      some a.dstMac.text := by
    rw [strAt_string (s := a.dstMac.text) rfl, cstr_of_not_mem a.dstMac.zero_not_mem_text]
  have hmode : (if a.workMode = 2 then 0 else a.tmode) = a.tmode := by
    split
    · next hcoord => exact (h.coordinator hcoord).symm
    · rfl
  have hworkMode : setIn 0 2 (a.workMode.toNat : Int) UInt8.ofNat b.workMode = a.workMode :=
    setIn_toNat 0 2 ⟨Nat.zero_le _, h.workMode⟩ _
  have hchan : setIn 11 26 (a.chan.toNat : Int) UInt8.ofNat b.chan = a.chan :=
    setIn_toNat 11 26 h.chan _
  have hmsgMode : setIn 0 1 (a.msgMode.toNat : Int) UInt8.ofNat b.msgMode = a.msgMode :=
    setIn_toNat 0 1 ⟨Nat.zero_le _, h.msgMode⟩ _
  have htmode : setIn 0 2 (a.tmode.toNat : Int) UInt8.ofNat b.tmode = a.tmode :=
    setIn_toNat 0 2 ⟨Nat.zero_le _, h.tmode⟩ _
  unfold setZigbeeCfg ZigbeeCfg.merge
  dsimp only
  rw [hwmd, hpid, hsrc, hdst, hch, hmmd, hlstep, hslvad, hpo, htm, hsmac, hdmac, hworkMode, hchan,
    hmsgMode, htmode, if_pos (by omega : (5 : Int) ≤ a.ulLearnStep.toNat), setIn_address,
    setIn_address, setIn_address, setMac_text, setMac_text, setIf_natCast, setIf_natCast]
  simp only [UInt8.ofNat_toNat, Int.toNat_natCast, UInt32.ofNat_toNat, hmode, Fin.ofNat_val_eq_self]
  exact ZigbeeCfg.setTrt_json h ver rfl

/-- When the configuration comes back: no address is 0 over another one, both hardware addresses
    are the same, and the type of the target is the old one. -/
structure ZigbeeCfg.Restores (a b : ZigbeeCfg) : Prop where
  panID : a.panID = 0 → b.panID = 0
  addr : a.addr = 0 → b.addr = 0
  dstAddr : a.dstAddr = 0 → b.dstAddr = 0
  dstMac : a.dstMac = a.mac
  type : a.tmode = 1 → b.dstCfg.type = a.dstCfg.type

theorem jsonZigbeeCfg_restore [ExactNumber R] {a : ZigbeeCfg} (h : a.Ok) (ver : List UInt8)
    (b : ZigbeeCfg) :
    jsonZigbeeCfg (R := R) ver (setZigbeeCfg (jsonZigbeeCfg (R := R) ver a) b) =
        jsonZigbeeCfg ver a ↔
      a.Restores b := by
  have haddress : ∀ {x field : UInt16}, (number ((if x = 0 then field else x).toNat : Int) : Item R) =
      number (x.toNat : Int) → x = 0 → field = 0 := fun {x field} heq hzero => by
    rw [if_pos hzero, hzero] at heq
    exact UInt16.toNat_inj.mp
      ((number_inj (by have := field.toNat_lt; omega) (by decide)).mp heq)
  rw [setZigbeeCfg_json h]
  constructor
  · intro heq
    have hget : ∀ key, getObjectItem (jsonZigbeeCfg (R := R) ver (a.merge b)) key =
        getObjectItem (jsonZigbeeCfg ver a) key := fun key => by rw [heq]
    refine ⟨haddress (Option.some.inj (hget (chars ['p', 'i', 'd']))),
      haddress (Option.some.inj (hget (chars ['s', 'r', 'c']))),
      haddress (Option.some.inj (hget (chars ['d', 's', 't']))),
      (Mac.text_inj.mp (Item.string.inj (Option.some.inj
        (hget (chars ['d', 'm', 'a', 'c']))))).symm, fun htrt => ?_⟩
    have hjson : ∀ g : ZigbeeCfg, g.tmode = 1 →
        getObjectItem (jsonZigbeeCfg (R := R) ver g) (chars ['u', 't', 'y']) =
          some (number g.dstCfg.type.toNat) := fun g hg => by
      unfold jsonZigbeeCfg
      rw [if_pos hg]
      rfl
    have huty := (hjson (a.merge b) htrt).symm.trans ((hget _).trans (hjson a htrt))
    have hcfg : (a.merge b).dstCfg = ⟨a.dstCfg.cfg, b.dstCfg.type⟩ := if_pos htrt
    have htype : (a.merge b).dstCfg.type = b.dstCfg.type := by rw [hcfg]
    rw [htype] at huty
    exact UInt8.toNat_inj.mp ((number_inj (by have := b.dstCfg.type.toNat_lt; omega)
      (by have := a.dstCfg.type.toNat_lt; omega)).mp (Option.some.inj huty))
  · intro hrestores
    have haddr : ∀ {x field : UInt16}, (x = 0 → field = 0) → (if x = 0 then field else x) = x :=
      fun {x field} hzero => by
        split
        · next hx => rw [hzero hx, hx]
        · rfl
    unfold ZigbeeCfg.merge
    rw [haddr hrestores.panID, haddr hrestores.addr, haddr hrestores.dstAddr, ← hrestores.dstMac]
    unfold jsonZigbeeCfg
    dsimp only
    by_cases htrt : a.tmode = 1
    · rw [if_pos htrt, if_pos htrt, if_pos htrt, if_pos htrt, hrestores.type htrt,
        hrestores.dstMac]
    · rw [if_neg htrt, if_neg htrt, hrestores.dstMac]

end K64Gateway.Backup
