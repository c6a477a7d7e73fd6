import K64Gateway.VarManage.ClearOnError
import K64Gateway.VarManage.ExpWriteBack

/-
  The reading of a DLT645 meter in its variable. `bVarManage_RefreshExtDataWithDlt645` lays the
  reading out with its high byte first, and the refresh decodes the registers with the rule of the
  variable.

  Proved: with which rule the reading gets into the variable (`reading_reaches_iff`). Rule 0 is the
  order it is laid out in; with another rule the bytes of the number have to be symmetric.
-/

namespace K64Gateway.VarManage

open Stores

variable {R : Type}

/-! ## The reading -/

section Reading

variable [VarReal R]

/-- The low `n` bytes of `bits` in `f_buf`, the high one first. -/
def bigEndian (n : Nat) (bits : UInt64) (k : Nat) : UInt8 :=
  if k < n then (bits >>> UInt64.ofNat (8 * (n - 1 - k))).toUInt8 else 0

/-- `f_buf`. `var_type` is signed, and `long` has 32 bits. -/
def fBuf (var_type : UInt8) (val : R) : Nat → UInt8 :=
  let intval := VarReal.toInt32 val
  if var_type.toInt8 ≤ eVarBit.toInt8 then bigEndian 1 (if intval ≠ 0 then 1 else 0)
  else if var_type ≤ eVarUint8 then bigEndian 1 intval.toUInt64
  else if var_type ≤ eVarUint16 then bigEndian 2 intval.toUInt64
  else if var_type ≤ eVarUint32 then bigEndian 4 intval.toUInt64
  else if var_type ≤ eVarFloat then bigEndian 4 (VarReal.toFloatBits val).toUInt64
  else if var_type = eVarDouble then bigEndian 8 (VarReal.toDoubleBits val)
  else fun _ => 0

/-- `var_type` of `__GetExtDataIoInfoWithDlt645Addr`, which is -1 without a variable. -/
def dlt645VarType (vars : List (ExtData R)) (dlt645_addr : Dlt645Addr) (addr : UInt16)
    (op : UInt32) : UInt8 :=
  match vars.find? (dlt645Has dlt645_addr addr op) with
  | some node => node.xIo.btVarType
  | none => 255

/-- `bVarManage_RefreshExtDataWithDlt645` with the result of the poll of a variable: `val` is
    `result->val`. -/
def refreshWithReading (env : PollEnv R) (s : Polled R) (v : ExtData R) (val : R) : Polled R :=
  let dlt645 := v.xIo.param.dlt645
  bVarManageRefreshExtDataWithDlt645 env s dlt645.addr v.xIo.usAddr dlt645.op
    (fBuf (dlt645VarType s.vars dlt645.addr v.xIo.usAddr dlt645.op) val)

/-- The reading converted to a type, by way of `long` where the type is one of integers. -/
def converted (type : UInt8) (val : R) : VarValue :=
  let intval := VarReal.toInt32 val
  let zero : VarValue := fun _ => 0
  if type = eVarBit then zero.put 1 (if intval ≠ 0 then 1 else 0)
  else if type = eVarInt8 ∨ type = eVarUint8 then zero.put 1 intval.toUInt64
  else if type = eVarInt16 ∨ type = eVarUint16 then zero.put 2 intval.toUInt64
  else if type = eVarInt32 ∨ type = eVarUint32 then zero.put 4 intval.toUInt64
  else if type = eVarFloat then zero.put 4 (VarReal.toFloatBits val).toUInt64
  else zero.put 8 (VarReal.toDoubleBits val)

/-- The variable at `i` has the reading as its value, and its registers hold it. -/
structure Reaches (i : Nat) (v : ExtData R) (val : R) (s' : Polled R) : Prop where
  value : ∃ x, valueOf s' i = some x ∧ ∀ j : Fin 8, j.val < valueSize v.xIo.btVarType →
    x j = converted v.xIo.btVarType val j
  regs : ∀ out, ∀ j : Fin 8, j.val < valueSize v.xIo.btVarType →
    vLittleEdianExtData v.xIo.btVarType v.xIo.btVarRuleType
      (valueAt s'.regs (regIndex v.xIo.usAddr)) out j = converted v.xIo.btVarType val j

end Reading

/-- No enabled variable in front of the one at `i` has its first register, or its meter address,
    its identifier and its own address. -/
structure FirstAt (vars : List (ExtData R)) (i : Nat) (v : ExtData R) : Prop where
  covers : vars.findIdx? (coversAddr v.xIo.usAddr) = some i
  dlt645 : vars.findIdx? (dlt645Has v.xIo.param.dlt645.addr v.xIo.usAddr v.xIo.param.dlt645.op) =
    some i

/-- The byte that a rule has in the place where rule 0 has byte `j` of a value of `n` bytes. -/
def Mirrored (n : Nat) (btRule : UInt8) (j k : Fin 8) : Prop :=
  if btRule = 1 then 2 * (j.val / 2) + 2 * (k.val / 2) + 2 = n ∧ j.val % 2 = k.val % 2
  else if btRule = 2 then j.val / 2 = k.val / 2 ∧ j ≠ k
  else j.val + k.val + 1 = n

/-- The value is the same with the rule as with rule 0: it has one register, or its registers (with
    rule 1), the two bytes of each register (with rule 2) or its bytes (with rule 3) can change
    places. -/
def RuleFits (type btRule : UInt8) (x : VarValue) : Prop :=
  valueSize type ≤ 2 ∨ btRule = 0 ∨
    ∀ j k : Fin 8, j.val < valueSize type → k.val < valueSize type →
      Mirrored (valueSize type) btRule j k → x j = x k

/-! ## The order of the bytes -/

/-- Where `vLittleEdianExtData` takes the bytes of a value from. -/
def byteOrder (type btRule : UInt8) (j : Fin 8) : Fin 8 :=
  if type = eVarInt16 ∨ type = eVarUint16 then ![1, 0, 2, 3, 4, 5, 6, 7] j
  else if type = eVarInt32 ∨ type = eVarUint32 ∨ type = eVarFloat then swapRule4 btRule j
  else if type = eVarDouble then swapRule8 btRule j
  else j

theorem valueSize_pos {type : UInt8} (h : 0 < valueSize type) :
    (valueSize type = 1 ∧ (type = eVarBit ∨ type = eVarInt8 ∨ type = eVarUint8)) ∨
      (valueSize type = 2 ∧ (type = eVarInt16 ∨ type = eVarUint16)) ∨
      (valueSize type = 4 ∧ (type = eVarInt32 ∨ type = eVarUint32 ∨ type = eVarFloat)) ∨
      (valueSize type = 8 ∧ type = eVarDouble) := by
  unfold valueSize at h ⊢
  split_ifs at h ⊢ with h8 h16 h32 h64
  · exact .inl ⟨rfl, h8⟩
  · exact .inr (.inl ⟨rfl, h16⟩)
  · exact .inr (.inr (.inl ⟨rfl, h32⟩))
  · exact .inr (.inr (.inr ⟨rfl, h64⟩))
  · exact absurd h (Nat.lt_irrefl 0)

theorem vLittleEdianExtData_byte {type : UInt8} (btRule : UInt8) (src out : VarValue) {j : Fin 8}
    (hj : j.val < valueSize type) :
    vLittleEdianExtData type btRule src out j = src (byteOrder type btRule j) := by
  have hpos : 0 < valueSize type := Nat.lt_of_le_of_lt (Nat.zero_le _) hj
  unfold vLittleEdianExtData vBigEdianExtData byteOrder
  rcases valueSize_pos hpos with ⟨-, rfl | rfl | rfl⟩ | ⟨-, rfl | rfl⟩ | ⟨-, rfl | rfl | rfl⟩ |
    ⟨-, rfl⟩
  · exact if_pos j.isLt
  · exact if_pos j.isLt
  · exact if_pos j.isLt
  · exact if_pos hj
  · exact if_pos hj
  · exact if_pos hj
  · exact if_pos hj
  · exact if_pos hj
  · exact if_pos j.isLt

/-- Byte `j` of a value of `n` bytes, counted from the other end. -/
def mirror (n : Nat) (j : Fin 8) : Fin 8 := ⟨(n - 1 - j.val) % 8, Nat.mod_lt _ (by decide)⟩

theorem mirror_val {n : Nat} (hn : n ≤ 8) {j : Fin 8} (hj : j.val < n) :
    (mirror n j).val = n - 1 - j.val :=
  Nat.mod_eq_of_lt (by omega)

/-- The byte of the value that the decoding takes for byte `j`. -/
def decodedFrom (type btRule : UInt8) (j : Fin 8) : Fin 8 :=
  mirror (valueSize type) (byteOrder type btRule j)

theorem byteOrder_lt {type : UInt8} (btRule : UInt8) {j : Fin 8} (hj : j.val < valueSize type) :
    (byteOrder type btRule j).val < valueSize type := by
  have hpos : 0 < valueSize type := Nat.lt_of_le_of_lt (Nat.zero_le _) hj
  unfold byteOrder
  rcases valueSize_pos hpos with ⟨-, rfl | rfl | rfl⟩ | ⟨hn, h16⟩ | ⟨hn, h32⟩ | ⟨hn, rfl⟩
  · exact hj
  · exact hj
  · exact hj
  · rw [if_pos h16, hn]
    rw [hn] at hj
    have hswap : ∀ k : Fin 2, (![1, 0, 2, 3, 4, 5, 6, 7] (k.castLE (by decide)) : Fin 8).val < 2 := by
      decide
    exact hswap ⟨j.val, hj⟩
  · have hnot16 : ¬ (type = eVarInt16 ∨ type = eVarUint16) := by
      rcases h32 with rfl | rfl | rfl <;> decide
    rw [if_neg hnot16, if_pos h32, hn]
    exact swapRule4_lt btRule (hn ▸ hj)
  · exact (Fin.isLt _).trans_eq hn.symm

/-- With rule 0 the value is decoded as it was laid out. -/
theorem decodedFrom_zero {type : UInt8} {j : Fin 8} (hj : j.val < valueSize type) :
    decodedFrom type 0 j = j := by
  have hpos : 0 < valueSize type := Nat.lt_of_le_of_lt (Nat.zero_le _) hj
  unfold decodedFrom
  rcases valueSize_pos hpos with ⟨-, rfl | rfl | rfl⟩ | ⟨-, rfl | rfl⟩ | ⟨-, rfl | rfl | rfl⟩ |
    ⟨-, rfl⟩
  all_goals
    revert j
    decide

theorem swapRule4_other {btRule : UInt8} (h0 : btRule ≠ 0) (h1 : btRule ≠ 1) (h2 : btRule ≠ 2) :
    swapRule4 btRule = swapRule4 3 := by
  funext j
  unfold swapRule4
  rw [if_neg h0, if_neg h1, if_neg h2]
  rfl

theorem swapRule8_other {btRule : UInt8} (h0 : btRule ≠ 0) (h1 : btRule ≠ 1) (h2 : btRule ≠ 2) :
    swapRule8 btRule = swapRule8 3 := by
  funext j
  unfold swapRule8
  rw [if_neg h0, if_neg h1, if_neg h2]
  rfl

/-- Every rule but 0, 1 and 2 is rule 3. -/
theorem rule_cases (btRule : UInt8) : ∃ rule, (rule = 0 ∨ rule = 1 ∨ rule = 2 ∨ rule = 3) ∧
    (btRule = 0 ↔ rule = 0) ∧ (∀ n j k, Mirrored n btRule j k ↔ Mirrored n rule j k) ∧
      ∀ type, byteOrder type btRule = byteOrder type rule := by
  by_cases h0 : btRule = 0
  · exact ⟨0, .inl rfl, by simp [h0], by simp [h0], by simp [h0]⟩
  by_cases h1 : btRule = 1
  · exact ⟨1, .inr (.inl rfl), by simp [h1], by simp [h1], by simp [h1]⟩
  by_cases h2 : btRule = 2
  · exact ⟨2, .inr (.inr (.inl rfl)), by simp [h2], by simp [h2], by simp [h2]⟩
  refine ⟨3, .inr (.inr (.inr rfl)), by simp [h0], fun n j k => ?_, fun type => ?_⟩
  · simp [Mirrored, h1, h2]
  · funext j
    unfold byteOrder
    rw [swapRule4_other h0 h1 h2, swapRule8_other h0 h1 h2]

theorem mirrored_iff {type : UInt8} (hbig : 2 < valueSize type) {btRule : UInt8}
    (hrule : btRule ≠ 0) {j k : Fin 8} (hj : j.val < valueSize type) (hk : k.val < valueSize type) :
    Mirrored (valueSize type) btRule j k ↔ k = decodedFrom type btRule j := by
  obtain ⟨rule, hcases, hzero, hmirrored, horder⟩ := rule_cases btRule
  rw [hmirrored]
  unfold decodedFrom
  rw [horder]
  unfold Mirrored
  rcases valueSize_pos (Nat.lt_trans Nat.zero_lt_two hbig) with
    ⟨hn, -⟩ | ⟨hn, -⟩ | ⟨-, rfl | rfl | rfl⟩ | ⟨-, rfl⟩
  · omega
  · omega
  all_goals
    rcases hcases with rfl | rfl | rfl | rfl
    · exact absurd (hzero.mpr rfl) hrule
    all_goals
      revert j k
      decide

/-- A value of at most one register does not see the rule. -/
theorem decodedFrom_small {type : UInt8} (hsmall : valueSize type ≤ 2) (btRule : UInt8)
    {j : Fin 8} (hj : j.val < valueSize type) : decodedFrom type btRule j = j := by
  have hzero := decodedFrom_zero hj
  have hpos : 0 < valueSize type := Nat.lt_of_le_of_lt (Nat.zero_le _) hj
  rcases valueSize_pos hpos with ⟨-, rfl | rfl | rfl⟩ | ⟨-, rfl | rfl⟩ | ⟨hn, -⟩ | ⟨hn, -⟩
  · exact hzero
  · exact hzero
  · exact hzero
  · exact hzero
  · exact hzero
  · omega
  · omega

/-- The rule fits a value if and only if the value is decoded from the order of rule 0. -/
theorem ruleFits_iff {type : UInt8} (btRule : UInt8) (x : VarValue) :
    RuleFits type btRule x ↔
      ∀ j : Fin 8, j.val < valueSize type → x (decodedFrom type btRule j) = x j := by
  constructor
  · rintro (hsmall | rfl | h) j hj
    · rw [decodedFrom_small hsmall btRule hj]
    · rw [decodedFrom_zero hj]
    · by_cases hsmall : valueSize type ≤ 2
      · rw [decodedFrom_small hsmall btRule hj]
      by_cases hrule : btRule = 0
      · rw [hrule, decodedFrom_zero hj]
      have hk : (decodedFrom type btRule j).val < valueSize type := by
        have hle : valueSize type ≤ 8 := by
          unfold valueSize
          split_ifs <;> decide
        unfold decodedFrom
        rw [mirror_val hle (byteOrder_lt btRule hj)]
        omega
      exact (h j _ hj hk ((mirrored_iff (by omega) hrule hj hk).mpr rfl)).symm
  · intro h
    by_cases hsmall : valueSize type ≤ 2
    · exact .inl hsmall
    by_cases hrule : btRule = 0
    · exact .inr (.inl hrule)
    refine .inr (.inr fun j k hj hk hm => ?_)
    rw [(mirrored_iff (by omega) hrule hj hk).mp hm, h j hj]

/-! ## What is stored -/

/-- The bytes that are stored come back from the registers. -/
theorem valueAt_refreshRegs (regs : Regs) (f : Nat → UInt8) (usAddr : UInt16) {n : Nat}
    {k : Fin 8} (hk : k.val < 2 * n) :
    valueAt (stores regs (refreshRegs f usAddr n)) (regIndex usAddr) k = f k.val := by
  unfold valueAt refreshRegs
  dsimp only
  rw [stores_block _ _ _ (by omega : k.val / 2 < n)]
  by_cases heven : k.val % 2 = 0
  · rw [if_pos heven, toUInt8_join]
    congr 1
    omega
  · rw [if_neg heven, toUInt8_shift_join]
    congr 1
    omega

theorem bigEndian_eq {n : Nat} (hn : n ≤ 8) (bits : UInt64) {k : Fin 8} (hk : k.val < n) :
    bigEndian n bits k.val = VarValue.put (fun _ => 0) n bits (mirror n k) := by
  unfold bigEndian VarValue.put
  rw [mirror_val hn hk, if_pos hk, if_pos (by omega)]

section Stored

variable [VarReal R]

theorem fBuf_eq {type : UInt8} (val : R) {k : Fin 8} (hk : k.val < valueSize type) :
    fBuf type val k.val = converted type val (mirror (valueSize type) k) := by
  have hpos : 0 < valueSize type := Nat.lt_of_le_of_lt (Nat.zero_le _) hk
  rcases valueSize_pos hpos with ⟨-, rfl | rfl | rfl⟩ | ⟨-, rfl | rfl⟩ | ⟨-, rfl | rfl | rfl⟩ |
    ⟨-, rfl⟩
  all_goals exact bigEndian_eq (by decide) _ hk

/-- The state in which the variable is refreshed. -/
def readingStored (s : Polled R) (w : ExtData R) (val : R) : Polled R :=
  s.store (refreshRegs (fBuf w.xIo.btVarType val) w.xIo.usAddr
    (if w.xIo.nregs > 4 then 4 else w.xIo.nregs))

/-- What the decoding makes of the reading in the registers. -/
theorem decoded_reading (s : Polled R) (w : ExtData R) (val : R) (out : VarValue)
    (hsize : valueSize w.xIo.btVarType ≤ w.xIo.btVarSize.toNat) {j : Fin 8}
    (hj : j.val < valueSize w.xIo.btVarType) :
    vLittleEdianExtData w.xIo.btVarType w.xIo.btVarRuleType
      (valueAt (readingStored s w val).regs (regIndex w.xIo.usAddr)) out j =
      converted w.xIo.btVarType val (decodedFrom w.xIo.btVarType w.xIo.btVarRuleType j) := by
  have hlt := byteOrder_lt w.xIo.btVarRuleType hj
  have hstored : (byteOrder w.xIo.btVarType w.xIo.btVarRuleType j).val <
      2 * (if w.xIo.nregs > 4 then 4 else w.xIo.nregs) := by
    unfold ExtDataIO.nregs
    split <;> omega
  unfold readingStored Polled.store
  dsimp only
  rw [vLittleEdianExtData_byte _ _ _ hj, valueAt_refreshRegs _ _ _ hstored, fBuf_eq val hlt]
  rfl

end Stored

/-! ## Which readings reach their variable -/

section Reaching

variable [VarReal R] (env : PollEnv R)

omit [VarReal R] in
/-- The settings of a variable, one by one. -/
theorem settings_congr {d d' : ExtData R} (h : d.key = d'.key) :
    d.xIo.btVarType = d'.xIo.btVarType ∧ d.xIo.btVarRuleType = d'.xIo.btVarRuleType ∧
      d.xIo.param = d'.xIo.param ∧ d.xIo.szExp = d'.xIo.szExp :=
  ⟨congrArg (fun k : Bool × ExtDataIO R => k.2.btVarType) h,
    congrArg (fun k : Bool × ExtDataIO R => k.2.btVarRuleType) h,
    congrArg (fun k : Bool × ExtDataIO R => k.2.param) h,
    congrArg (fun k : Bool × ExtDataIO R => k.2.szExp) h⟩

/-- The check reads settings only. -/
theorem check_key {d d' : ExtData R} (h : d.key = d'.key) (x : VarValue) :
    bVarManageCheckExtValue d x = bVarManageCheckExtValue d' x := by
  have htype : d.xIo.btVarType = d'.xIo.btVarType := congrArg (fun k => k.2.btVarType) h
  have hmax : d.xIo.bUseMax = d'.xIo.bUseMax ∧ d.xIo.fMax = d'.xIo.fMax :=
    ⟨congrArg (fun k => k.2.bUseMax) h, congrArg (fun k => k.2.fMax) h⟩
  have hmin : d.xIo.bUseMin = d'.xIo.bUseMin ∧ d.xIo.fMin = d'.xIo.fMin :=
    ⟨congrArg (fun k => k.2.bUseMin) h, congrArg (fun k => k.2.fMin) h⟩
  unfold bVarManageCheckExtValue
  rw [htype, hmax.1, hmax.2, hmin.1, hmin.2]

omit [VarReal R] in
theorem FirstAt.congr {vars vars' : List (ExtData R)} {i : Nat} {v : ExtData R}
    (h : FirstAt vars i v) (hkey : vars'.map ExtData.key = vars.map ExtData.key) :
    FirstAt vars' i v :=
  ⟨(findIdx?_key (coversAddr_congr _) hkey).trans h.covers,
    (findIdx?_key (dlt645Has_congr _ _ _) hkey).trans h.dlt645⟩

omit [VarReal R] in
theorem dlt645Has_self {v : ExtData R} (hen : v.bEnable = true) :
    dlt645Has v.xIo.param.dlt645.addr v.xIo.usAddr v.xIo.param.dlt645.op v = true := by
  simp [dlt645Has, hen]

omit [VarReal R] in
/-- The size and the type that the reading is stored with. -/
theorem dlt645Info_eq {vars : List (ExtData R)} {dlt645_addr : Dlt645Addr} {addr : UInt16}
    {op : UInt32} {m : Nat} {f : ExtData R}
    (hidx : vars.findIdx? (dlt645Has dlt645_addr addr op) = some m) (hm : vars[m]? = some f) :
    getExtDataIoInfoWithDlt645Addr vars dlt645_addr addr op = f.xIo.nregs ∧
      dlt645VarType vars dlt645_addr addr op = f.xIo.btVarType := by
  unfold getExtDataIoInfoWithDlt645Addr dlt645VarType
  rw [List.find?_eq_bind_findIdx?_getElem?, hidx, Option.bind_some, hm]
  exact ⟨rfl, rfl⟩

omit [VarReal R] in
/-- When the reading is stored and the variable is the first that has its first register, it is
    also the first with its meter address, identifier and address. -/
theorem first_dlt645 {vars : List (ExtData R)} {i : Nat} {w : ExtData R}
    (hi : vars[i]? = some w) (hen : w.bEnable = true)
    (hcovers : vars.findIdx? (coversAddr w.xIo.usAddr) = some i)
    (hpos : 0 < getExtDataIoInfoWithDlt645Addr vars w.xIo.param.dlt645.addr w.xIo.usAddr
      w.xIo.param.dlt645.op) :
    vars.findIdx? (dlt645Has w.xIo.param.dlt645.addr w.xIo.usAddr w.xIo.param.dlt645.op) =
      some i := by
  obtain ⟨hlt, hget⟩ := List.getElem?_eq_some_iff.mp hi
  obtain ⟨_, -, hcoversFirst⟩ := List.findIdx?_eq_some_iff_getElem.mp hcovers
  cases hidx : vars.findIdx?
      (dlt645Has w.xIo.param.dlt645.addr w.xIo.usAddr w.xIo.param.dlt645.op) with
  | none =>
    have hnone := List.findIdx?_eq_none_iff.mp hidx w (List.mem_of_getElem? hi)
    rw [dlt645Has_self hen] at hnone
    exact nomatch hnone
  | some m =>
    obtain ⟨hmlt, hhas, hfirst⟩ := List.findIdx?_eq_some_iff_getElem.mp hidx
    have hm : vars[m]? = some vars[m] := List.getElem?_eq_getElem hmlt
    rw [(dlt645Info_eq hidx hm).1] at hpos
    simp only [dlt645Has, Bool.and_eq_true, decide_eq_true_eq] at hhas
    have hcov : coversAddr w.xIo.usAddr vars[m] = true := by
      rw [← hhas.1.2]
      exact covers_usAddr hhas.1.1.1 hpos
    have hle : i ≤ m := Nat.not_lt.mp fun hmi => hcoversFirst m hmi hcov
    have hge : m ≤ i := Nat.not_lt.mp fun him =>
      hfirst i him (by rw [hget]; exact dlt645Has_self hen)
    rw [Nat.le_antisymm hge hle]

/-- Another variable takes the reading, or none. -/
theorem refreshWithReading_other {s : Polled R} {i : Nat} {w : ExtData R} (val : R)
    (hi : s.vars[i]? = some w) (hen : w.bEnable = true) (hnot : ¬ FirstAt s.vars i w) :
    (refreshWithReading env s w val).vars[i]? = s.vars[i]? := by
  unfold refreshWithReading bVarManageRefreshExtDataWithDlt645
  dsimp only
  split
  · next hpos =>
    generalize hs' : s.store _ = s'
    have hvars : s'.vars = s.vars := by rw [← hs']; rfl
    rcases refreshExtDataWithRegs_cases env s' w.xIo.usAddr with heq | ⟨j, f, hfind, -, hrefresh⟩
    · rw [heq, hvars]
    · obtain ⟨f', hset, -⟩ := hrefresh.record
      rw [hset, hvars]
      refine List.getElem?_set_ne fun hji => hnot ?_
      rw [hvars, hji] at hfind
      exact ⟨hfind, first_dlt645 hi hen hfind hpos⟩
  · rfl

/-- The variable is refreshed with the reading. -/
theorem refreshWithReading_first {s : Polled R} {i : Nat} {w : ExtData R} (val : R)
    (hi : s.vars[i]? = some w) (hpos : 0 < w.xIo.nregs) (hfirst : FirstAt s.vars i w) :
    refreshWithReading env s w val =
      refreshNode env (readingStored s w val) i w.xIo.usAddr w := by
  obtain ⟨hnregs, htype⟩ := dlt645Info_eq hfirst.dlt645 hi
  unfold refreshWithReading bVarManageRefreshExtDataWithDlt645
  dsimp only
  rw [hnregs, htype, if_pos hpos]
  exact refreshExtDataWithRegs_eq env hfirst.covers hi

/-- Without an expression the registers stay as they were stored. -/
theorem regs_refreshNode (s : Polled R) (i : Nat) (usAddress : UInt16) {w : ExtData R}
    (hexp : w.xIo.szExp = none) : (refreshNode env s i usAddress w).regs = s.regs := by
  refine funext fun k => (refreshNode_refreshed env s (i := i) usAddress w).regs k ?_
  rw [expRegs_none hexp]
  omega

/-- The reading is in the variable if and only if its rule fits. -/
theorem reaches_first_iff {s : Polled R} {i : Nat} {w : ExtData R} (val : R)
    (hi : s.vars[i]? = some w) (hexp : w.xIo.szExp = none)
    (htype : 0 < valueSize w.xIo.btVarType)
    (hsize : valueSize w.xIo.btVarType ≤ w.xIo.btVarSize.toNat)
    (hcheck : bVarManageCheckExtValue w (converted w.xIo.btVarType val) = true)
    (hfirst : FirstAt s.vars i w) :
    Reaches i w val (refreshWithReading env s w val) ↔
      RuleFits w.xIo.btVarType w.xIo.btVarRuleType (converted w.xIo.btVarType val) := by
  have hpos : 0 < w.xIo.nregs := by
    unfold ExtDataIO.nregs
    omega
  rw [refreshWithReading_first env val hi hpos hfirst, ruleFits_iff]
  constructor
  · intro h j hj
    have hreg := h.regs 0 j hj
    rw [regs_refreshNode env _ i _ hexp, decoded_reading s w val 0 hsize hj] at hreg
    exact hreg
  · intro hfits
    have hdecoded (out : VarValue) (j : Fin 8) (hj : j.val < valueSize w.xIo.btVarType) :=
      (decoded_reading s w val out hsize hj).trans (hfits j hj)
    have hstored : (readingStored s w val).vars[i]? = some w := hi
    have hvalue := valueOf_refreshNode env hstored hexp w.xIo.usAddr
    refine ⟨⟨_, hvalue, fun j hj => ?_⟩, fun out j hj => ?_⟩
    · have hx := hdecoded (env.stack (readingStored s w val) w.xIo.usAddr)
      rw [if_pos ((check_congr w hx).trans hcheck)]
      exact hx j hj
    · rw [regs_refreshNode env _ i _ hexp]
      exact hdecoded out j hj

/-- A reading within the limits reaches the variable from every state if and only if no variable
    in front takes it and the rule of the variable fits the value. -/
theorem reading_reaches_iff {vars : List (ExtData R)} {i : Nat} {v : ExtData R} (val : R)
    (hi : vars[i]? = some v) (hen : v.bEnable = true) (hexp : v.xIo.szExp = none)
    (htype : 0 < valueSize v.xIo.btVarType)
    (hsize : valueSize v.xIo.btVarType ≤ v.xIo.btVarSize.toNat)
    (hcheck : bVarManageCheckExtValue v (converted v.xIo.btVarType val) = true) :
    (∀ (s : Polled R) (w : ExtData R), s.vars.map ExtData.key = vars.map ExtData.key →
      s.vars[i]? = some w → Reaches i w val (refreshWithReading env s w val)) ↔
      FirstAt vars i v ∧
        RuleFits v.xIo.btVarType v.xIo.btVarRuleType (converted v.xIo.btVarType val) := by
  constructor
  · intro h
    -- a state in which the variable has another value
    let other : VarValue := fun j => converted v.xIo.btVarType val j + 1
    let s : Polled R := ⟨vars.set i (v.setValue other), fun _ => 0, []⟩
    have hkey : s.vars.map ExtData.key = vars.map ExtData.key := map_key_set hi (key_setValue v other)
    have hw : s.vars[i]? = some (v.setValue other) :=
      List.getElem?_set_self (List.getElem?_eq_some_iff.mp hi).1
    have hreaches := h s _ hkey hw
    have hfirst : FirstAt s.vars i (v.setValue other) := by
      by_contra hnot
      obtain ⟨x, hx, hbytes⟩ := hreaches.value
      unfold valueOf at hx
      rw [refreshWithReading_other env val hw hen hnot, hw, Option.map_some] at hx
      have hzero := hbytes 0 htype
      rw [← Option.some.inj hx] at hzero
      exact absurd hzero (by simp [other, ExtData.setValue])
    have hvars := hfirst.congr hkey.symm
    exact ⟨⟨hvars.covers, hvars.dlt645⟩,
      (reaches_first_iff env val hw hexp htype hsize hcheck hfirst).mp hreaches⟩
  · rintro ⟨hfirst, hfits⟩ s w hkey hw
    obtain ⟨v', hv', hkw⟩ := getElem?_key hkey hw
    obtain rfl : v = v' := Option.some.inj (hi.symm.trans hv')
    obtain ⟨htypes, hrules, hparam, hexps⟩ := settings_congr hkw
    have hsizes : v.xIo.btVarSize = w.xIo.btVarSize :=
      congrArg (fun k : Bool × ExtDataIO R => k.2.btVarSize) hkw
    have hfirstw : FirstAt s.vars i w := by
      have hfirst' := hfirst.congr hkey
      refine ⟨?_, ?_⟩
      · rw [← usAddr_congr hkw]
        exact hfirst'.covers
      · rw [← usAddr_congr hkw, ← hparam]
        exact hfirst'.dlt645
    rw [htypes] at htype hsize hcheck hfits
    rw [hsizes] at hsize
    rw [hrules] at hfits
    rw [check_key hkw] at hcheck
    exact (reaches_first_iff env val hw (hexps ▸ hexp) htype hsize hcheck hfirstw).mpr hfits

end Reaching

/-- A counter on the first serial line, in the first two registers. -/
def counter (btRule : UInt8) : ExtData Int :=
  { zeroed with
    bEnable := true
    xIo := { zeroed.xIo with
      btVarType := eVarUint32
      btVarSize := 4
      btVarRuleType := btRule
      usProtoType := 2
      usAddr := 1024 } }

def counterState (btRule : UInt8) : Polled Int := ⟨[counter btRule], fun _ => 0, []⟩

theorem reading_reaches_counter :
    Reaches 0 (counter 0) 1 (refreshWithReading plainEnv (counterState 0) (counter 0) 1) :=
  (reading_reaches_iff plainEnv (i := 0) (v := counter 0) 1 (rfl : [counter 0][0]? = _) rfl rfl
    (by decide) (by decide) (by decide)).mpr ⟨⟨rfl, rfl⟩, .inr (.inl rfl)⟩ (counterState 0) _ rfl rfl

/-- With rule 1 a reading of 1 is decoded as 65536. -/
theorem reading_one_rule_one :
    ¬ ∀ (env : PollEnv Int) (s : Polled Int) (i : Nat) (v : ExtData Int) (val : Int),
      s.vars[i]? = some v → v.bEnable = true →
      protoIsDlt645 v.xIo.usDevType.toNat v.xIo.usProtoType.toNat = true →
      v.xIo.szExp = none → 0 < valueSize v.xIo.btVarType →
      v.xIo.btVarSize.toNat = valueSize v.xIo.btVarType → v.xIo.btVarRuleType ≤ 3 →
      bVarManageCheckExtValue v (converted v.xIo.btVarType val) = true →
      Reaches i v val (refreshWithReading env s v val) := by
  intro h
  have hreaches := h plainEnv (counterState 1) 0 (counter 1) 1 rfl rfl (by decide) rfl (by decide)
    (by decide) (by decide) (by decide)
  exact absurd (hreaches.regs 0 0 (by decide)) (by decide)

end K64Gateway.VarManage
