import Mathlib
import K64Gateway.Backup.CfgJson

/-
  The serial ports, `board/cfg/uart_cfg.c`, and the lists of the slaves that are reached through
  them, `board/cfg/xfer_cfg.c`.

  Proved: a port that is restored from its own export is the same except for a script name that is
  not overwritten by an empty one (`jsonUartCfg_restore`); a list comes back up to its 64 addresses
  (`jsonXferUartCfg_restore`).
-/

namespace K64Gateway.Backup

open CString Cjson

variable {R : Type} [CNumber R]

/-! ## Ports -/

/-- `uart_port_cfg_t` -/
structure UartPortCfg where
  baudRate : UInt32
  dataBits : BitVec 4
  stopBits : BitVec 2
  parity : BitVec 2
deriving DecidableEq

/-- `uart_cfg_t` without `uart_type`, which is the hardware's, and the handlers. `luaProto` is the
    string in the array: where it fills the array, the null pointer behind ends it. -/
structure UartCfg where
  portCfg : UartPortCfg
  protoType : UInt8
  protoMs : UInt8
  slaveAddr : UInt8
  interval : UInt32
  luaProto : List UInt8

/-- `DEFAULT_UART_CFG` -/
def UartCfg.default : UartCfg where
  portCfg := ⟨115200, 8, 0, 0⟩
  protoType := 0
  protoMs := 0
  slaveAddr := 0
  interval := 1000
  luaProto := []

/-- The numbers of a port in an object, at their keys. -/
def UartPortCfg.set (pCfg : Item R) (bd da st py : List UInt8) (g : UartPortCfg) :
    UartPortCfg where
  baudRate := setIf (intAt pCfg bd) UInt32.ofNat g.baudRate
  dataBits := setIf (intAt pCfg da) (BitVec.ofNat 4) g.dataBits
  stopBits := setIf (intAt pCfg st) (BitVec.ofNat 2) g.stopBits
  parity := setIf (intAt pCfg py) (BitVec.ofNat 2) g.parity

/-- `strncpy(lua_proto, luapo, 32)` for a string that is not empty. -/
def setLuaProto (luapo : Option (List UInt8)) (luaProto : List UInt8) : List UInt8 :=
  match luapo with
  | some s => if s ≠ [] then s.take 32 else luaProto
  | none => luaProto

/-- `setUartCfgWithJson` on its port; `ut` is not stored. -/
def setUartCfg (pCfg : Item R) (g : UartCfg) : UartCfg where
  portCfg := g.portCfg.set pCfg (chars ['b', 'd']) (chars ['d', 'a']) (chars ['s', 't'])
    (chars ['p', 'y'])
  protoType := setIf (intAt pCfg (chars ['p', 'o'])) UInt8.ofNat g.protoType
  protoMs := setIf (intAt pCfg (chars ['m', 's'])) UInt8.ofNat g.protoMs
  slaveAddr := setIf (intAt pCfg (chars ['a', 'd'])) UInt8.ofNat g.slaveAddr
  interval := setIf (intAt pCfg (chars ['i', 'n'])) UInt32.ofNat g.interval
  luaProto := setLuaProto (strAt pCfg (chars ['l', 'u', 'a', 'p', 'o'])) g.luaProto

/-- `jsonUartCfg`; `ut` is the type of the hardware's port. -/
def jsonUartCfg (n : Nat) (ut : UInt8) (g : UartCfg) : Item R :=
  .object [(chars ['n'], number n), (chars ['b', 'd'], number g.portCfg.baudRate.toNat),
    (chars ['u', 't'], number ut.toNat), (chars ['p', 'o'], number g.protoType.toNat),
    (chars ['p', 'y'], number g.portCfg.parity.toNat), (chars ['m', 's'], number g.protoMs.toNat),
    (chars ['a', 'd'], number g.slaveAddr.toNat), (chars ['i', 'n'], number g.interval.toNat),
    (chars ['d', 'a'], number g.portCfg.dataBits.toNat),
    (chars ['s', 't'], number g.portCfg.stopBits.toNat),
    (chars ['l', 'u', 'a', 'p', 'o'], .string g.luaProto)]

/-- What the setter keeps: the numbers of an `int`, and a string that fits the array. -/
structure UartCfg.Ok (g : UartCfg) : Prop where
  baudRate : g.portCfg.baudRate.toNat < 2147483648
  interval : g.interval.toNat < 2147483648
  luaLength : g.luaProto.length ≤ 32
  luaString : (0 : UInt8) ∉ g.luaProto

theorem UartCfg.ok_default : UartCfg.default.Ok :=
  ⟨by decide, by decide, Nat.zero_le _, List.not_mem_nil⟩

theorem setUartCfg_ok (pCfg : Item R) {g : UartCfg} (h : g.Ok) : (setUartCfg pCfg g).Ok := by
  have hlua : (setLuaProto (strAt pCfg (chars ['l', 'u', 'a', 'p', 'o'])) g.luaProto).length ≤ 32 ∧
      (0 : UInt8) ∉ setLuaProto (strAt pCfg (chars ['l', 'u', 'a', 'p', 'o'])) g.luaProto := by
    unfold setLuaProto strAt
    cases getString pCfg (chars ['l', 'u', 'a', 'p', 'o']) with
    | none => exact ⟨h.luaLength, h.luaString⟩
    | some s =>
      dsimp only [Option.map_some]
      split
      · exact ⟨List.length_take_le _ _,
          fun hmem => zero_not_mem_cstr s ((List.take_subset _ _) hmem)⟩
      · exact ⟨h.luaLength, h.luaString⟩
  exact ⟨setIf_lt h.baudRate (intAt_lt _ _) (by decide),
    setIf_lt h.interval (intAt_lt _ _) (by decide), hlua.1, hlua.2⟩

/-- The numbers of a port are set to those in the object. -/
theorem UartPortCfg.set_number {item : Item R} {bd da st py : List UInt8} {a : UartPortCfg}
    (hbaud : a.baudRate.toNat < 2147483648)
    (hbd : getObjectItem item bd = some (number a.baudRate.toNat))
    (hda : getObjectItem item da = some (number a.dataBits.toNat))
    (hst : getObjectItem item st = some (number a.stopBits.toNat))
    (hpy : getObjectItem item py = some (number a.parity.toNat)) (b : UartPortCfg) :
    b.set item bd da st py = a := by
  have hd := a.dataBits.isLt
  have hs := a.stopBits.isLt
  have hp := a.parity.isLt
  unfold UartPortCfg.set
  rw [intAt_number hbaud hbd, intAt_number (by omega) hda, intAt_number (by omega) hst,
    intAt_number (by omega) hpy]
  simp only [setIf_natCast, UInt32.ofNat_toNat, BitVec.ofNat_toNat, BitVec.setWidth_eq]

/-- What a port becomes by the export of another one. -/
theorem setUartCfg_json {a : UartCfg} (h : a.Ok) (n : Nat) (ut : UInt8) (b : UartCfg) :
    setUartCfg (jsonUartCfg (R := R) n ut a) b =
      { a with luaProto := if a.luaProto ≠ [] then a.luaProto else b.luaProto } := by
  have hport : b.portCfg.set (jsonUartCfg (R := R) n ut a) (chars ['b', 'd']) (chars ['d', 'a'])
      (chars ['s', 't']) (chars ['p', 'y']) = a.portCfg :=
    UartPortCfg.set_number h.baudRate rfl rfl rfl rfl _
  have hpo : intAt (jsonUartCfg (R := R) n ut a) (chars ['p', 'o']) = a.protoType.toNat :=
    intAt_number (by have := a.protoType.toNat_lt; omega) rfl
  have hms : intAt (jsonUartCfg (R := R) n ut a) (chars ['m', 's']) = a.protoMs.toNat :=
    intAt_number (by have := a.protoMs.toNat_lt; omega) rfl
  have had : intAt (jsonUartCfg (R := R) n ut a) (chars ['a', 'd']) = a.slaveAddr.toNat :=
    intAt_number (by have := a.slaveAddr.toNat_lt; omega) rfl
  have hin : intAt (jsonUartCfg (R := R) n ut a) (chars ['i', 'n']) = a.interval.toNat :=
    intAt_number h.interval rfl
  have hlua : strAt (jsonUartCfg (R := R) n ut a) (chars ['l', 'u', 'a', 'p', 'o']) =
      some a.luaProto := by
    rw [strAt_string (s := a.luaProto) rfl, cstr_of_not_mem h.luaString]
  unfold setUartCfg
  rw [hport, hpo, hms, had, hin, hlua]
  simp only [setIf_natCast, UInt8.ofNat_toNat, UInt32.ofNat_toNat, setLuaProto,
    List.take_of_length_le h.luaLength]

/-- The script name of a port is not overwritten by an empty one. -/
theorem jsonUartCfg_restore {a : UartCfg} (h : a.Ok) (n : Nat) (ut : UInt8) (b : UartCfg) :
    jsonUartCfg (R := R) n ut (setUartCfg (jsonUartCfg (R := R) n ut a) b) = jsonUartCfg n ut a ↔
      (a.luaProto = [] → b.luaProto = []) := by
  rw [setUartCfg_json h]
  constructor
  · intro heq hnil
    have hget := congrArg (fun item => getString item (chars ['l', 'u', 'a', 'p', 'o'])) heq
    have hlua : (if a.luaProto ≠ [] then a.luaProto else b.luaProto) = a.luaProto :=
      Option.some.inj hget
    rw [if_neg (not_not_intro hnil), hnil] at hlua
    exact hlua
  · intro hlua
    by_cases hnil : a.luaProto = []
    · rw [if_neg (not_not_intro hnil), hlua hnil, ← hnil]
    · rw [if_pos hnil]

/-! ## Lists of slaves -/

/-- `XFER_UART_ADDRS_NUM` -/
def xferUartAddrsNum : Nat := 64

scoped instance neZeroSign : NeZero 2147483648 := ⟨by decide⟩

/-- `xfer_uart_cfg_t`; `addrs` goes on with the memory behind the array. -/
structure XferUartCfg where
  enable : Bool
  count : Fin 2147483648
  addrs : Nat → UInt8

/-- `c_xfer_uart_cfg_default`, with the memory behind it. -/
def XferUartCfg.default (behind : Nat → UInt8) : XferUartCfg where
  enable := false
  count := 0
  addrs i := if i < xferUartAddrsNum then 0 else behind i

/-- The tokens of `strtok(addrs, ",")`, as numbers. -/
def parseAddrs (addrs : List UInt8) : List UInt8 :=
  ((addrs.splitOn 44).filter (· ≠ [])).map fun p => UInt8.ofInt (atoi p)

/-- `setXferUartCfgWithJson` on its port. -/
def setXferUartCfg (pXferUCfg : Item R) (g : XferUartCfg) : XferUartCfg :=
  let en := intAt pXferUCfg (chars ['e', 'n'])
  let cnt := intAt pXferUCfg (chars ['c', 'n', 't'])
  let tokens := parseAddrs ((strAt pXferUCfg (chars ['a', 'd', 'd', 'r', 's'])).getD [])
  { enable := setFlag en g.enable
    count := setIf cnt (Fin.ofNat _) g.count
    addrs i := if i < xferUartAddrsNum then tokens.getD i (g.addrs i) else g.addrs i }

/-- `memcmp` with the list before. -/
def XferUartCfg.changed (xbak g : XferUartCfg) : Bool :=
  xbak.enable ≠ g.enable || xbak.count ≠ g.count ||
    (List.range xferUartAddrsNum).any fun i => xbak.addrs i ≠ g.addrs i

/-- `%u` of an address. -/
def addrText (b : UInt8) : List UInt8 := if b = 0 then [48] else decimal b.toNat

/-- The addresses with commas between them. -/
def addrsText (addrs : List UInt8) : List UInt8 := [44].intercalate (addrs.map addrText)

/-- The addresses that are exported: as many as `count` tells, also behind the array. -/
def XferUartCfg.listed (g : XferUartCfg) : List UInt8 := (List.range g.count).map g.addrs

/-- `jsonXferUartCfg` for a serial port. -/
def jsonXferUartCfg (n : Nat) (g : XferUartCfg) : Item R :=
  .object [(chars ['n'], number n), (chars ['e', 'n'], number g.enable.toNat),
    (chars ['c', 'n', 't'], number g.count.val),
    (chars ['a', 'd', 'd', 'r', 's'], .string (if 0 < g.count.val then addrsText g.listed else []))]

theorem addrText_ne_nil (b : UInt8) : addrText b ≠ [] := by
  unfold addrText
  split
  · exact List.cons_ne_nil _ _
  · next h => exact decimal_ne_nil (Nat.pos_of_ne_zero fun h0 => h (UInt8.toNat_inj.mp h0))

theorem mem_addrText {b c : UInt8} (h : c ∈ addrText b) : 48 ≤ c ∧ c ≤ 57 := by
  unfold addrText at h
  split at h
  · rw [List.mem_singleton.mp h]
    decide
  · exact mem_decimal h

theorem atoi_addrText (b : UInt8) : UInt8.ofInt (atoi (addrText b)) = b := by
  have hall : ∀ n : Nat, n < 256 → UInt8.ofInt (n : Int) = UInt8.ofNat n := by decide +kernel
  unfold addrText
  split
  · next h =>
    rw [h]
    rfl
  · next h =>
    rw [atoi_decimal (Nat.pos_of_ne_zero fun h0 => h (UInt8.toNat_inj.mp h0)),
      hall _ b.toNat_lt, UInt8.ofNat_toNat]

/-- The text of a list is read back to it. -/
theorem parseAddrs_text (addrs : List UInt8) : parseAddrs (addrsText addrs) = addrs := by
  unfold parseAddrs addrsText
  by_cases hnil : addrs = []
  · rw [hnil]
    rfl
  · have hcomma : ∀ l ∈ addrs.map addrText, (44 : UInt8) ∉ l := fun l hl hmem => by
      obtain ⟨b, -, rfl⟩ := List.mem_map.mp hl
      exact absurd (mem_addrText hmem).1 (by decide)
    have hfilter : (addrs.map addrText).filter (· ≠ []) = addrs.map addrText := by
      rw [List.filter_eq_self]
      intro l hl
      obtain ⟨b, -, rfl⟩ := List.mem_map.mp hl
      exact decide_eq_true (addrText_ne_nil b)
    rw [List.splitOn_intercalate 44 hcomma (List.map_eq_nil_iff.not.mpr hnil), hfilter,
      List.map_map]
    exact (List.map_congr_left fun b _ => atoi_addrText b).trans (List.map_id addrs)

theorem addrsText_inj {l m : List UInt8} : addrsText l = addrsText m ↔ l = m :=
  ⟨fun h => by rw [← parseAddrs_text l, h, parseAddrs_text], fun h => by rw [h]⟩

/-- The text has no zero in it. -/
theorem zero_not_mem_addrsText (addrs : List UInt8) : (0 : UInt8) ∉ addrsText addrs := by
  refine zero_not_mem_intercalate (by decide) fun s hs hmem => ?_
  obtain ⟨b, -, rfl⟩ := List.mem_map.mp hs
  exact absurd (mem_addrText hmem).1 (by decide)

/-- What a list becomes by the export of another one: up to 64 addresses of that. -/
theorem setXferUartCfg_json (a : XferUartCfg) (n : Nat) (b : XferUartCfg) :
    setXferUartCfg (jsonXferUartCfg (R := R) n a) b =
      { enable := a.enable
        count := a.count
        addrs i := if i < xferUartAddrsNum ∧ i < a.count.val then a.addrs i else b.addrs i } := by
  have hen : intAt (jsonXferUartCfg (R := R) n a) (chars ['e', 'n']) = a.enable.toNat :=
    intAt_number (by have := a.enable.toNat_le; omega) rfl
  have hcnt : intAt (jsonXferUartCfg (R := R) n a) (chars ['c', 'n', 't']) = a.count.val :=
    intAt_number a.count.isLt rfl
  have htokens : parseAddrs ((strAt (jsonXferUartCfg (R := R) n a)
      (chars ['a', 'd', 'd', 'r', 's'])).getD []) = a.listed := by
    have hget : getObjectItem (jsonXferUartCfg (R := R) n a) (chars ['a', 'd', 'd', 'r', 's']) =
        some (.string (if 0 < a.count.val then addrsText a.listed else [])) := rfl
    rw [strAt_string hget, Option.getD_some]
    split
    · rw [cstr_of_not_mem (zero_not_mem_addrsText _), parseAddrs_text]
    · next hzero =>
      have hnil : a.listed = [] := by
        unfold XferUartCfg.listed
        rw [Nat.eq_zero_of_not_pos hzero]
        rfl
      rw [hnil]
      rfl
  have hcount : Fin.ofNat 2147483648 a.count.val = a.count := Fin.ofNat_val_eq_self a.count
  have haddr : ∀ i, a.listed.getD i (b.addrs i) =
      if i < a.count.val then a.addrs i else b.addrs i := fun i => by
    unfold XferUartCfg.listed
    by_cases hi : i < a.count.val
    · rw [if_pos hi, List.getD_eq_getElem _ _ (by rw [List.length_map, List.length_range]; exact hi),
        List.getElem_map, List.getElem_range]
    · rw [if_neg hi, List.getD_eq_default]
      rw [List.length_map, List.length_range]
      exact Nat.le_of_not_lt hi
  unfold setXferUartCfg
  dsimp only
  rw [hen, hcnt, htokens, setFlag_toNat, setIf_natCast, hcount]
  congr 1
  funext i
  rw [haddr]
  by_cases hi : i < xferUartAddrsNum
  · simp [hi]
  · simp [hi]

/-- What `memcmp` finds after a list was restored, from the lists before. -/
def XferUartCfg.differs (a b : XferUartCfg) : Bool :=
  b.enable ≠ a.enable || b.count ≠ a.count ||
    (List.range xferUartAddrsNum).any fun i => i < a.count.val && b.addrs i ≠ a.addrs i

theorem changed_setXferUartCfg (a : XferUartCfg) (n : Nat) (b : XferUartCfg) :
    b.changed (setXferUartCfg (jsonXferUartCfg (R := R) n a) b) = a.differs b := by
  have haddr : ∀ i ∈ List.range xferUartAddrsNum,
      decide (b.addrs i ≠ if i < xferUartAddrsNum ∧ i < a.count.val then a.addrs i else b.addrs i) =
        (decide (i < a.count.val) && decide (b.addrs i ≠ a.addrs i)) := fun i hi => by
    by_cases hlt : i < a.count.val
    · simp [hlt, List.mem_range.mp hi]
    · simp [hlt]
  rw [setXferUartCfg_json]
  unfold XferUartCfg.changed XferUartCfg.differs
  dsimp only
  congr 1
  rw [Bool.eq_iff_iff, List.any_eq_true, List.any_eq_true]
  exact exists_congr fun i => and_congr_right fun hi => by rw [haddr i hi]

/-- The same fields are exported. -/
structure SameList (a b : XferUartCfg) : Prop where
  enable : a.enable = b.enable
  count : a.count = b.count
  addrs : ∀ i < a.count.val, a.addrs i = b.addrs i

theorem jsonXferUartCfg_eq_iff [ExactNumber R] (n : Nat) (a b : XferUartCfg) :
    jsonXferUartCfg (R := R) n a = jsonXferUartCfg n b ↔ SameList a b := by
  constructor
  · intro heq
    have hen : (number (a.enable.toNat : Int) : Item R) = number (b.enable.toNat : Int) :=
      Option.some.inj (congrArg (fun item => getObjectItem item (chars ['e', 'n'])) heq)
    have hcnt : (number (a.count.val : Int) : Item R) = number (b.count.val : Int) :=
      Option.some.inj (congrArg (fun item => getObjectItem item (chars ['c', 'n', 't'])) heq)
    have haddrs : (if 0 < a.count.val then addrsText a.listed else []) =
        if 0 < b.count.val then addrsText b.listed else [] :=
      Option.some.inj (congrArg (fun item => getString item (chars ['a', 'd', 'd', 'r', 's'])) heq)
    have hcount : a.count = b.count :=
      Fin.ext ((number_inj (by omega) (by omega)).mp hcnt)
    refine ⟨number_flag_inj.mp hen, hcount, fun i hi => ?_⟩
    rw [← hcount, if_pos (Nat.zero_lt_of_lt hi), if_pos (Nat.zero_lt_of_lt hi),
      addrsText_inj] at haddrs
    unfold XferUartCfg.listed at haddrs
    rw [← hcount] at haddrs
    exact List.map_inj_left.mp haddrs i (List.mem_range.mpr hi)
  · intro hsame
    have hlisted : a.listed = b.listed := by
      unfold XferUartCfg.listed
      rw [← hsame.count]
      exact List.map_congr_left fun i hi => hsame.addrs i (List.mem_range.mp hi)
    unfold jsonXferUartCfg
    rw [hsame.enable, hsame.count, hlisted]

/-- A list comes back unless it goes on behind the array. -/
theorem jsonXferUartCfg_restore [ExactNumber R] (a : XferUartCfg) (n : Nat) (b : XferUartCfg) :
    jsonXferUartCfg (R := R) n (setXferUartCfg (jsonXferUartCfg (R := R) n a) b) =
        jsonXferUartCfg n a ↔
      ∀ i, xferUartAddrsNum ≤ i → i < a.count.val → a.addrs i = b.addrs i := by
  rw [setXferUartCfg_json, jsonXferUartCfg_eq_iff]
  constructor
  · intro hsame i hle hi
    have haddr := hsame.addrs i hi
    dsimp only at haddr
    rw [if_neg fun hand => absurd hand.1 (Nat.not_lt_of_le hle)] at haddr
    exact haddr.symm
  · intro hbehind
    refine ⟨rfl, rfl, fun i hi => ?_⟩
    dsimp only at hi ⊢
    by_cases hlt : i < xferUartAddrsNum
    · rw [if_pos ⟨hlt, hi⟩]
    · rw [if_neg fun hand => hlt hand.1, hbehind i (Nat.le_of_not_lt hlt) hi]

end K64Gateway.Backup
