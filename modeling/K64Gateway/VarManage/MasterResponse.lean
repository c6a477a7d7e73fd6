import K64Gateway.VarManage.Routing

/-
  Routing of the replies of the Modbus master: which variables take their registers and their
  value from a reply.

  The loop does not see the function code. Proved: a reply reaches the right variables and no
  others exactly where every variable that the loop matches is one of the function code
  (`routed_iff`).
-/

namespace K64Gateway.VarManage

open Stores

variable {R : Type}

/-! ## What a reply is for -/

/-- A reply of a slave to a read request. -/
structure Response where
  port : UInt8
  btSlaveAddr : UInt8
  /-- the function code -/
  btOpCode : UInt8
  usAddress : UInt16
  usNRegs : UInt16

/-- The reply is for the variable. -/
structure Target (r : Response) (v : ExtData R) : Prop where
  enabled : v.bEnable = true
  modbus : protoIsModbus v.xIo.usDevType.toNat v.xIo.usProtoType.toNat = true
  device : portDevice r.port = some (v.xIo.usDevType, v.xIo.usDevNum)
  slave : v.xIo.param.modbus.btSlaveAddr = r.btSlaveAddr
  code : v.xIo.param.modbus.btOpCode = r.btOpCode
  inside : r.usAddress.toNat ≤ v.xIo.param.modbus.usExtAddr.toNat ∧
    v.xIo.nregs + v.xIo.param.modbus.usExtAddr.toNat ≤ r.usAddress.toNat + r.usNRegs.toNat

/-- The part of the payload for a variable, as the content of its registers. -/
def slice (r : Response) (payload : Nat → UInt8) (v : ExtData R) (k : Nat) : UInt16 :=
  let ofs := v.xIo.param.modbus.usExtAddr.toNat - r.usAddress.toNat
  (payload (2 * (ofs + k))).toUInt16 ||| ((payload (2 * (ofs + k) + 1)).toUInt16 <<< 8)

/-- The bytes of a value in `VarValue_v`; none for a type without a number. -/
def valueSize (btType : UInt8) : Nat :=
  if btType = eVarBit ∨ btType = eVarInt8 ∨ btType = eVarUint8 then 1
  else if btType = eVarInt16 ∨ btType = eVarUint16 then 2
  else if btType = eVarInt32 ∨ btType = eVarUint32 ∨ btType = eVarFloat then 4
  else if btType = eVarDouble then 8
  else 0

/-- The value that registers hold. -/
def decoded (v : ExtData R) (regs : Nat → UInt16) : VarValue :=
  vLittleEdianExtData v.xIo.btVarType v.xIo.btVarRuleType (valueAt (fun i => regs i.toNat) 0) 0

section Routed

variable [VarReal R]

/-- The variable takes its registers from the payload, and its value from its registers where
    they hold it and it passes the check. -/
structure Takes (r : Response) (payload : Nat → UInt8) (i : Nat) (v : ExtData R)
    (s' : Polled R) : Prop where
  regs : ∀ k < v.xIo.nregs, regAt s'.regs (v.xIo.usAddr.toNat + k) = slice r payload v k
  value : valueSize v.xIo.btVarType ≤ 2 * v.xIo.nregs →
    ∃ x, valueOf s' i = some x ∧ ∀ j : Fin 8, j.val < valueSize v.xIo.btVarType →
      x j = if bVarManageCheckExtValue v (decoded v (slice r payload v)) then
          decoded v (slice r payload v) j
        else v.xIo.xValue j

/-- Exactly the variables that a reply is for take it. -/
structure Routed (r : Response) (payload : Nat → UInt8) (s s' : Polled R) : Prop where
  takes : ∀ i v, s.vars[i]? = some v → Target r v → Takes r payload i v s'
  keeps : ∀ i v, s.vars[i]? = some v → ¬ Target r v → Keeps i v s s'

end Routed

/-- The test of the loop. -/
def matched (r : Response) (v : ExtData R) : Prop :=
  ∃ b, portBlock r.port r.btSlaveAddr r.usAddress r.usNRegs = some b ∧ b.has v = true

/-- Every variable with registers that the loop matches is one that the reply is for. -/
def MatchesTargets (r : Response) (vars : List (ExtData R)) : Prop :=
  ∀ v ∈ vars, matched r v → 0 < v.xIo.nregs → Target r v

/-- No variable without registers that the loop matches lies in the range of a variable. -/
def NoEmptyInside (r : Response) (vars : List (ExtData R)) : Prop :=
  ∀ w ∈ vars, matched r w → w.xIo.nregs = 0 → ∀ v ∈ vars, coversAddr w.xIo.usAddr v = false

/-! ## Values -/

/-- The bytes of a value stay among themselves. -/
theorem swapRule4_lt (btRule : UInt8) {i : Fin 8} (hi : i.val < 4) : (swapRule4 btRule i).val < 4 := by
  have hall : ∀ k : Fin 4, (![3, 2, 1, 0, 4, 5, 6, 7] (k.castLE (by decide)) : Fin 8).val < 4 ∧
      (![1, 0, 3, 2, 4, 5, 6, 7] (k.castLE (by decide)) : Fin 8).val < 4 ∧
        (![2, 3, 0, 1, 4, 5, 6, 7] (k.castLE (by decide)) : Fin 8).val < 4 := by
    decide
  obtain ⟨h0, h1, h2⟩ := hall ⟨i.val, hi⟩
  unfold swapRule4
  split_ifs
  · exact h0
  · exact h1
  · exact h2
  · exact hi

theorem vBigEdianExtData_congr {btType : UInt8} (btRule : UInt8) {src src' : VarValue}
    (out out' : VarValue)
    (h : ∀ j : Fin 8, j.val < valueSize btType → src j = src' j) {i : Fin 8}
    (hi : i.val < valueSize btType) :
    vBigEdianExtData btType btRule src out i = vBigEdianExtData btType btRule src' out' i := by
  unfold vBigEdianExtData edianSize
  unfold valueSize at h hi
  by_cases h8 : btType = eVarBit ∨ btType = eVarInt8 ∨ btType = eVarUint8
  · rw [if_pos h8] at h hi
    obtain rfl : i = 0 := Fin.ext (by show i.val = 0; omega)
    rcases h8 with rfl | rfl | rfl <;> exact h 0 (by decide)
  · rw [if_neg h8] at h hi
    by_cases h16 : btType = eVarInt16 ∨ btType = eVarUint16
    · rw [if_pos h16] at h hi
      rw [if_pos h16, if_pos h16, if_pos h16, if_pos hi, if_pos hi]
      apply h
      have hswap : ∀ k : Fin 2, (![1, 0, 2, 3, 4, 5, 6, 7] (k.castLE (by decide)) : Fin 8).val < 2 := by
        decide
      exact hswap ⟨i.val, hi⟩
    · rw [if_neg h16] at h hi
      rw [if_neg h16, if_neg h16, if_neg h16]
      by_cases h32 : btType = eVarInt32 ∨ btType = eVarUint32 ∨ btType = eVarFloat
      · rw [if_pos h32] at h hi
        rw [if_pos h32, if_pos h32, if_pos h32, if_pos hi, if_pos hi]
        exact h _ (swapRule4_lt btRule hi)
      · rw [if_neg h32] at h hi
        rw [if_neg h32, if_neg h32, if_neg h32, if_pos i.isLt, if_pos i.isLt]
        split_ifs at h hi ⊢ with h64
        · exact h _ (Fin.isLt _)
        · exact absurd hi (Nat.not_lt_zero _)

theorem u16_congr {x y : VarValue} (h : ∀ j : Fin 8, j.val < 2 → x j = y j) : x.u16 = y.u16 := by
  unfold VarValue.u16
  rw [h 0 (by decide), h 1 (by decide)]

theorem u32_congr {x y : VarValue} (h : ∀ j : Fin 8, j.val < 4 → x j = y j) : x.u32 = y.u32 := by
  unfold VarValue.u32
  rw [h 0 (by decide), h 1 (by decide), h 2 (by decide), h 3 (by decide)]

section Values

variable [VarReal R]

/-- The number of a value is in its bytes. -/
theorem getExtValue_congr {type : UInt8} {x y : VarValue}
    (h : ∀ j : Fin 8, j.val < valueSize type → x j = y j) :
    (getExtValue type x : Option R) = getExtValue type y := by
  unfold getExtValue
  refine ite_congr rfl (fun hbit => ?_) fun _ => ite_congr rfl (fun hint8 => ?_) fun _ =>
    ite_congr rfl (fun huint8 => ?_) fun _ => ite_congr rfl (fun hint16 => ?_) fun _ =>
    ite_congr rfl (fun huint16 => ?_) fun _ => ite_congr rfl (fun hint32 => ?_) fun _ =>
    ite_congr rfl (fun huint32 => ?_) fun _ => ite_congr rfl (fun hfloat => ?_) fun _ =>
    ite_congr rfl (fun hdouble => ?_) fun _ => rfl
  · rw [h 0 (by rw [hbit]; decide)]
  · rw [h 0 (by rw [hint8]; decide)]
  · rw [h 0 (by rw [huint8]; decide)]
  · rw [u16_congr fun j hj => h j (by rw [hint16]; exact hj)]
  · rw [u16_congr fun j hj => h j (by rw [huint16]; exact hj)]
  · rw [u32_congr fun j hj => h j (by rw [hint32]; exact hj)]
  · rw [u32_congr fun j hj => h j (by rw [huint32]; exact hj)]
  · rw [u32_congr fun j hj => h j (by rw [hfloat]; exact hj)]
  · have hxy : x = y := funext fun j => h j (by rw [hdouble]; exact j.isLt)
    rw [hxy]

theorem check_congr (v : ExtData R) {x y : VarValue}
    (h : ∀ j : Fin 8, j.val < valueSize v.xIo.btVarType → x j = y j) :
    bVarManageCheckExtValue v x = bVarManageCheckExtValue v y := by
  unfold bVarManageCheckExtValue
  rw [getExtValue_congr h]

end Values

/-! ## Registers -/

section Registers

variable [VarReal R] (env : PollEnv R)

/-- No variable has an expression. -/
def NoExpressions (vars : List (ExtData R)) : Prop := ∀ v ∈ vars, v.xIo.szExp = none

omit [VarReal R] in
theorem NoExpressions.congr {vars vars' : List (ExtData R)} (h : NoExpressions vars)
    (hkey : vars'.map ExtData.key = vars.map ExtData.key) : NoExpressions vars' := by
  intro v hv
  obtain ⟨v0, hv0, hk⟩ := exists_key hkey hv
  have hexp : v0.xIo.szExp = v.xIo.szExp :=
    congrArg (fun k : Bool × ExtDataIO R => k.2.szExp) hk
  rw [← hexp]
  exact h v0 hv0

omit [VarReal R] in
theorem expRegs_none {v : ExtData R} (h : v.xIo.szExp = none) : expRegs v = 0 := by
  unfold expRegs
  rw [h]
  rfl

/-- Without expressions a refresh writes no register. -/
theorem refresh_regs {s : Polled R} (hexp : NoExpressions s.vars) (usAddress : UInt16) :
    (refreshExtDataWithRegs env s usAddress).regs = s.regs := by
  rcases refreshExtDataWithRegs_cases env s usAddress with heq | ⟨j, f, -, hj, hrefresh⟩
  · rw [heq]
  · refine funext fun k => hrefresh.regs k fun hin => ?_
    rw [expRegs_none (hexp f (List.mem_of_getElem? hj))] at hin
    omega

/-- The pass for another variable leaves the registers of `v`. -/
theorem regs_pass_other {b : Block} (buf : Nat → UInt8) {s : Polled R} {i j : Nat} {v : ExtData R}
    (hexp : NoExpressions s.vars) (hdisj : DisjointRanges s.vars) (hi : s.vars[i]? = some v)
    (hne : j ≠ i) {a : Nat} (ha : HasReg v a) :
    regAt (responseNode env b buf s j).regs a = regAt s.regs a := by
  unfold responseNode
  split
  · next node hj =>
    split
    · rw [refresh_regs env (s := s.store _) hexp]
      refine stores_of_not_mem s.regs fun hmem => hne ?_
      exact hdisj.position hj hi ((hasReg_iff_block node a _).mp hmem) ha
    · rfl
  · rfl

/-- So do the passes for other variables, whatever was refreshed before them. -/
theorem regs_passes_other {b : Block} (buf : Nat → UInt8) {s t : Polled R} {i : Nat}
    {v : ExtData R} (hexp : NoExpressions s.vars) (hdisj : DisjointRanges s.vars)
    (hi : s.vars[i]? = some v) {a : Nat} (ha : HasReg v a) {indices : List Nat}
    (hnot : i ∉ indices) (hkey : t.vars.map ExtData.key = s.vars.map ExtData.key) :
    regAt (indices.foldl (responseNode env b buf) t).regs a = regAt t.regs a := by
  induction indices generalizing t with
  | nil => rw [List.foldl_nil]
  | cons j indices ih =>
    rw [List.mem_cons, not_or] at hnot
    obtain ⟨w, hw, hkw⟩ := getElem?_key hkey.symm hi
    have hstep := regs_pass_other env buf (b := b) (hexp.congr hkey) (hdisj.congr hkey) hw
      (Ne.symm hnot.1) ((hasReg_congr hkw a).mpr ha)
    have hrest := ih hnot.2 ((responseNode_key env b buf t j).trans hkey)
    rw [List.foldl_cons]
    exact hrest.trans hstep

omit [VarReal R] in
/-- What `__refresh_regs` stores for a variable is its part of the payload. -/
theorem regs_refreshRegs (r : Response) (payload : Nat → UInt8) (s : Polled R) (v : ExtData R)
    {k : Nat} (hk : k < v.xIo.nregs) :
    regAt (s.store (refreshRegs (fun k => payload (2 * (v.xIo.param.modbus.usExtAddr.toNat -
      r.usAddress.toNat) + k)) v.xIo.usAddr v.xIo.nregs)).regs (v.xIo.usAddr.toNat + k) =
        slice r payload v k := by
  have hindex : ((v.xIo.usAddr.toNat + k : Nat) : Int) - userRegExtDataStart =
      regIndex v.xIo.usAddr + k := by
    unfold regIndex
    omega
  unfold regAt
  rw [hindex]
  refine (stores_block s.regs _ _ hk).trans ?_
  unfold slice
  dsimp only
  rw [Nat.mul_add, Nat.add_assoc]

/-- The registers of a variable of the block after a reply. -/
theorem regs_responseBlock {b : Block} {r : Response} (hb : b.usAddress = r.usAddress)
    (payload : Nat → UInt8) {s : Polled R} {i : Nat} {v : ExtData R}
    (hexp : NoExpressions s.vars) (hdisj : DisjointRanges s.vars) (hi : s.vars[i]? = some v)
    (hhas : b.has v = true) {k : Nat} (hk : k < v.xIo.nregs) :
    regAt (responseBlock env b payload s).regs (v.xIo.usAddr.toNat + k) =
      slice r payload v k := by
  obtain ⟨hlt, -⟩ := List.getElem?_eq_some_iff.mp hi
  obtain ⟨pre, post, hsplit, -, hpost⟩ := range_split hlt
  have hreg : HasReg v (v.xIo.usAddr.toNat + k) := ⟨Nat.le_add_right _ _, by omega⟩
  have hbefore := foldl_key env b payload pre s
  unfold responseBlock
  rw [hsplit, List.foldl_append, List.foldl_cons, regs_passes_other env payload hexp hdisj hi hreg hpost
    ((responseNode_key env b payload _ i).trans hbefore)]
  obtain ⟨w, hw, hkw⟩ := getElem?_key hbefore.symm hi
  generalize pre.foldl (responseNode env b payload) s = t at hbefore hw
  have hparam : w.xIo.param = v.xIo.param :=
    congrArg (fun k : Bool × ExtDataIO R => k.2.param) hkw
  have hpass : (responseNode env b payload t i).regs =
      (t.store (refreshRegs (fun k => payload (2 * (v.xIo.param.modbus.usExtAddr.toNat -
        r.usAddress.toNat) + k)) v.xIo.usAddr v.xIo.nregs)).regs := by
    unfold responseNode
    rw [hw]
    dsimp only
    rw [if_pos (by rw [has_congr b hkw]; exact hhas),
      refresh_regs env (s := Polled.store _ _) (hexp.congr hbefore), hb, hparam,
      usAddr_congr hkw, nregs_congr hkw]
  rw [hpass]
  exact regs_refreshRegs r payload t v hk

/-! ## The value after a reply -/

/-- A refreshed variable takes the value of its registers where it passes the check. -/
theorem valueOf_refreshNode {s : Polled R} {i : Nat} {v : ExtData R} (hi : s.vars[i]? = some v)
    (hexp : v.xIo.szExp = none) (usAddress : UInt16) :
    valueOf (refreshNode env s i usAddress v) i =
      let x := vLittleEdianExtData v.xIo.btVarType v.xIo.btVarRuleType
        (valueAt s.regs (regIndex usAddress)) (env.stack s usAddress)
      some (if bVarManageCheckExtValue v x then x else v.xIo.xValue) := by
  obtain ⟨hlt, -⟩ := List.getElem?_eq_some_iff.mp hi
  have hset (w : ExtData R) (x : VarValue) (hw : w.xIo.xValue = x) :
      valueOf (s.setNode i w) i = some x := by
    unfold valueOf Polled.setNode
    dsimp only
    rw [List.getElem?_set_self hlt, Option.map_some, hw]
  unfold refreshNode
  dsimp only
  generalize vLittleEdianExtData v.xIo.btVarType v.xIo.btVarRuleType
    (valueAt s.regs (regIndex usAddress)) (env.stack s usAddress) = x
  split
  · have hnone (l : List (ExtData R)) : doexpValue env l (v.setValue x) = none := by
      unfold doexpValue
      have hsz : (v.setValue x).xIo.szExp = none := hexp
      rw [hsz]
    unfold takeValue
    dsimp only
    rw [hnone]
    refine hset _ x ?_
    show (updateValue (v.setValue x)).xIo.xValue = x
    unfold updateValue
    split <;> rfl
  · exact hset _ _ rfl

omit [VarReal R] in
/-- The bytes of a value are in the registers of the variable. -/
theorem valueAt_congr {regs regs' : Regs} {i i' : Int} {n : Nat}
    (h : ∀ k : Nat, k < n → regs (i + k) = regs' (i' + k)) {j : Fin 8} (hj : j.val < 2 * n) :
    valueAt regs i j = valueAt regs' i' j := by
  unfold valueAt
  dsimp only
  rw [h (j.val / 2) (by omega)]

omit [VarReal R] in
/-- The value that a reply brings. -/
theorem decoded_slice (r : Response) (payload : Nat → UInt8) (s : Polled R) (v : ExtData R)
    (stack : VarValue) (hfit : valueSize v.xIo.btVarType ≤ 2 * v.xIo.nregs) {j : Fin 8}
    (hj : j.val < valueSize v.xIo.btVarType) :
    vLittleEdianExtData v.xIo.btVarType v.xIo.btVarRuleType
      (valueAt (s.store (refreshRegs (fun k => payload (2 * (v.xIo.param.modbus.usExtAddr.toNat -
        r.usAddress.toNat) + k)) v.xIo.usAddr v.xIo.nregs)).regs (regIndex v.xIo.usAddr)) stack j =
          decoded v (slice r payload v) j := by
  refine vBigEdianExtData_congr _ _ _ (fun m hm => ?_) hj
  refine valueAt_congr (n := v.xIo.nregs) (fun k hk => ?_) (by omega)
  have hreg := regs_refreshRegs r payload s v hk
  unfold regAt at hreg
  rw [show ((v.xIo.usAddr.toNat + k : Nat) : Int) - userRegExtDataStart =
    regIndex v.xIo.usAddr + k by unfold regIndex; omega] at hreg
  rw [hreg, Int.zero_add]
  rfl

end Registers

/-! ## Routing -/

section Routing

variable [VarReal R] (env : PollEnv R)

/-- `bVarManage_RefreshExtDataWithModbusMaster` with a reply. -/
def respond (r : Response) (payload : Nat → UInt8) (s : Polled R) : Polled R :=
  (bVarManageRefreshExtDataWithModbusMaster env s r.port r.btSlaveAddr r.usAddress r.usNRegs
    payload).1

theorem respond_block {r : Response} {b : Block}
    (hb : portBlock r.port r.btSlaveAddr r.usAddress r.usNRegs = some b) (payload : Nat → UInt8)
    (s : Polled R) : respond env r payload s = responseBlock env b payload s := by
  unfold respond
  rw [refreshWithModbusMaster_eq, hb]

omit [VarReal R] in
theorem portBlock_usAddress {port btSlaveAddr : UInt8} {usAddress usNRegs : UInt16} {b : Block}
    (h : portBlock port btSlaveAddr usAddress usNRegs = some b) : b.usAddress = usAddress := by
  obtain ⟨device, -, rfl⟩ := Option.map_eq_some_iff.mp h
  rfl

omit [VarReal R] in
/-- The loop matches every variable that the reply is for. -/
theorem Target.matched {r : Response} {v : ExtData R} (h : Target r v) : matched r v := by
  refine ⟨⟨v.xIo.usDevType, v.xIo.usDevNum, r.btSlaveAddr, r.usAddress, r.usNRegs⟩, ?_, ?_⟩
  · unfold portBlock
    rw [h.device]
    rfl
  · exact (has_iff _ v).mpr ⟨h.enabled, rfl, rfl, h.slave, h.inside⟩

omit [VarReal R] in
/-- The other variables are refreshed apart from `v`. -/
theorem leaves_of_disjoint {r : Response} {b : Block}
    (hb : portBlock r.port r.btSlaveAddr r.usAddress r.usNRegs = some b)
    {vars : List (ExtData R)} (hdisj : DisjointRanges vars) (hexp : NoExpressions vars)
    (hempty : NoEmptyInside r vars) {i : Nat} {v : ExtData R} (hi : vars[i]? = some v) :
    Leaves b vars i v := by
  intro j w hj hne hhas
  refine ⟨?_, fun f hf _ a _ hin => ?_⟩
  · rcases Nat.eq_zero_or_pos w.xIo.nregs with hzero | hpos
    · exact hempty w (List.mem_of_getElem? hj) ⟨b, hb, hhas⟩ hzero v (List.mem_of_getElem? hi)
    · have hen := ((has_iff b w).mp hhas).1
      cases hcov : coversAddr w.xIo.usAddr v with
      | false => rfl
      | true =>
        exact absurd (hdisj.position hj hi (hasReg_of_covers (covers_usAddr hen hpos))
          (hasReg_of_covers hcov)) hne
  · rw [expRegs_none (hexp f hf)] at hin
    omega

/-- A variable without registers is left alone by its own pass too. -/
theorem same_own_empty {b : Block} (payload : Nat → UInt8) {s : Polled R} {i : Nat}
    {v : ExtData R} (hi : s.vars[i]? = some v) (hsize : v.xIo.nregs = 0) :
    Same i v s (responseNode env b payload s i) := by
  have hnone (a : Nat) : ¬ HasReg v a := by
    unfold HasReg
    omega
  have hother : coversAddr v.xIo.usAddr v = false := by
    cases hcov : coversAddr v.xIo.usAddr v with
    | false => rfl
    | true => exact absurd (hasReg_of_covers hcov) (hnone _)
  unfold responseNode
  rw [hi]
  dsimp only
  split
  · exact Same.trans (same_store i fun a ha => absurd ha (hnone a))
      (same_refresh env (s := s.store _) hi rfl ⟨hother, fun f _ _ a ha => absurd ha (hnone a)⟩)
  · exact Same.refl i v s

/-- A variable that the reply is not for. -/
theorem respond_keeps {r : Response} (payload : Nat → UInt8) {s : Polled R} {i : Nat}
    {v : ExtData R} (hdisj : DisjointRanges s.vars) (hexp : NoExpressions s.vars)
    (hmatch : MatchesTargets r s.vars) (hempty : NoEmptyInside r s.vars)
    (hi : s.vars[i]? = some v) (hnot : ¬ Target r v) :
    Keeps i v s (respond env r payload s) := by
  cases hb : portBlock r.port r.btSlaveAddr r.usAddress r.usNRegs with
  | none =>
    unfold respond
    rw [refreshWithModbusMaster_eq, hb]
    exact ⟨rfl, fun _ _ => rfl⟩
  | some b =>
    rw [respond_block env hb]
    have hleaves := leaves_of_disjoint hb hdisj hexp hempty hi
    cases hhas : b.has v with
    | false => exact (same_responseBlock env payload hdisj hi hleaves hhas).keeps
    | true =>
      have hsize : v.xIo.nregs = 0 := by
        rcases Nat.eq_zero_or_pos v.xIo.nregs with hzero | hpos
        · exact hzero
        · exact absurd (hmatch v (List.mem_of_getElem? hi) ⟨b, hb, hhas⟩ hpos) hnot
      obtain ⟨s', hbefore, hkeys, hafter⟩ := responseBlock_pass env payload hdisj hi hleaves
      have hown := same_own_empty env (b := b) payload (hbefore.node.trans hi) hsize
      exact ((hbefore.trans hown).trans hafter).keeps

/-- A variable that the reply is for. -/
theorem respond_takes {r : Response} (payload : Nat → UInt8) {s : Polled R} {i : Nat}
    {v : ExtData R} (hdisj : DisjointRanges s.vars) (hexp : NoExpressions s.vars)
    (hempty : NoEmptyInside r s.vars) (hi : s.vars[i]? = some v) (htarget : Target r v) :
    Takes r payload i v (respond env r payload s) := by
  obtain ⟨b, hb, hhas⟩ := htarget.matched
  have haddr := portBlock_usAddress hb
  rw [respond_block env hb]
  refine ⟨fun k hk => regs_responseBlock env haddr payload hexp hdisj hi hhas hk, fun hfit => ?_⟩
  obtain ⟨s', hbefore, hkeys, hafter⟩ := responseBlock_pass env payload hdisj hi
    (leaves_of_disjoint hb hdisj hexp hempty hi)
  have hi' := hbefore.node.trans hi
  have hvalue : valueOf (responseBlock env b payload s) i =
      valueOf (responseNode env b payload s' i) i := by
    unfold valueOf
    rw [hafter.node]
  rw [hvalue]
  rcases Nat.eq_zero_or_pos v.xIo.nregs with hzero | hpos
  · -- without registers there is no byte of a value
    have hown := same_own_empty env (b := b) payload hi' hzero
    refine ⟨v.xIo.xValue, ?_, fun j hj => by omega⟩
    unfold valueOf
    rw [hown.node, hi', Option.map_some]
  · rw [responseNode_own env payload (hdisj.congr hkeys) hi' hhas hpos, haddr,
      valueOf_refreshNode env (s := s'.store _) hi' (hexp v (List.mem_of_getElem? hi))]
    refine ⟨_, rfl, fun j hj => ?_⟩
    have hbytes : ∀ m : Fin 8, m.val < valueSize v.xIo.btVarType → _ = _ := fun m hm =>
      decoded_slice r payload s' v (env.stack (s'.store (refreshRegs (fun k => payload (2 *
        (v.xIo.param.modbus.usExtAddr.toNat - r.usAddress.toNat) + k)) v.xIo.usAddr v.xIo.nregs))
          v.xIo.usAddr) hfit hm
    rw [check_congr v hbytes]
    split
    · exact hbytes j hj
    · rfl

/-- A reply is routed right if the loop matches its targets only; with variables without
    registers out of the way, this is enough. -/
theorem routed_iff {vars : List (ExtData R)} (hdisj : DisjointRanges vars)
    (hexp : NoExpressions vars) (r : Response) :
    ((∀ regs used payload, Routed r payload ⟨vars, regs, used⟩
        (respond env r payload ⟨vars, regs, used⟩)) → MatchesTargets r vars) ∧
      (MatchesTargets r vars ∧ NoEmptyInside r vars → ∀ regs used payload,
        Routed r payload ⟨vars, regs, used⟩ (respond env r payload ⟨vars, regs, used⟩)) := by
  constructor
  · intro hrouted v hv hmatched hsize
    by_contra hnot
    obtain ⟨i, hi⟩ := List.mem_iff_getElem?.mp hv
    obtain ⟨b, hb, hhas⟩ := hmatched
    -- registers of zero, and a payload of ones
    have hkeeps := ((hrouted (fun _ => 0) [] fun _ => 1).keeps i v hi hnot).regs
      (v.xIo.usAddr.toNat + 0) ⟨Nat.le_refl _, by omega⟩
    rw [respond_block env hb, regs_responseBlock env (portBlock_usAddress hb) (fun _ => 1) hexp hdisj
      hi hhas hsize] at hkeeps
    have hreg : ((1 : UInt8).toUInt16 ||| ((1 : UInt8).toUInt16 <<< 8)) = (0 : UInt16) := hkeeps
    exact absurd hreg (by decide)
  · rintro ⟨hmatch, hempty⟩ regs used payload
    exact ⟨fun i v hi htarget => respond_takes env payload hdisj hexp hempty hi htarget,
      fun i v hi hnot => respond_keeps env payload hdisj hexp hmatch hempty hi hnot⟩

end Routing

/-! ## Two function codes on one slave -/

/-- A reply with register 0 of slave 1 on the first serial line. -/
def registerReply (btOpCode : UInt8) : Response where
  port := 1
  btSlaveAddr := 1
  btOpCode := btOpCode
  usAddress := 0
  usNRegs := 1

theorem routed_iff_one :
    Routed (registerReply 3) (fun _ => 7) ⟨configured [clearedDoc 1024 3], fun _ => 0, []⟩
      (respond plainEnv (registerReply 3) (fun _ => 7)
        ⟨configured [clearedDoc 1024 3], fun _ => 0, []⟩) := by
  have hone : ∀ v ∈ configured [clearedDoc 1024 3],
      v = jsonParseExtDataInfo (clearedDoc 1024 3) zeroed := fun v hv => List.mem_singleton.mp hv
  refine (routed_iff plainEnv (List.pairwise_singleton _ _) (fun v hv => ?_)
    (registerReply 3)).2 ⟨fun v hv _ _ => ?_, fun w hw _ hsize => ?_⟩ _ _ _
  · rw [hone v hv]
    rfl
  · rw [hone v hv]
    exact ⟨by decide +kernel, by decide +kernel, by decide +kernel, by decide +kernel,
      by decide +kernel, by decide +kernel⟩
  · rw [hone w hw] at hsize
    exact absurd hsize (by decide +kernel)

/-- A reply with input register 0 is taken for holding register 0 too. -/
theorem routed_other_op :
    ¬ ∀ (docs : List (Cjson.Item Int)) (r : Response) (regs : Regs) (payload : Nat → UInt8),
      DisjointRanges (configured docs) → NoExpressions (configured docs) →
        (∀ v ∈ configured docs, Fits v v.xIo.nregs) →
          (r.btOpCode = mbFuncReadHoldingRegister ∨ r.btOpCode = mbFuncReadInputRegister) →
            Routed r payload ⟨configured docs, regs, []⟩
              (respond plainEnv r payload ⟨configured docs, regs, []⟩) := by
  intro h
  have hdisj := disjoint_two_ops
  have hall : ∀ v ∈ configured [clearedDoc 1024 3, clearedDoc 1025 4],
      v.xIo.szExp = none ∧ Fits v v.xIo.nregs := by
    intro v hv
    rcases List.mem_cons.mp hv with rfl | hv
    · exact ⟨rfl, fun _ => by decide +kernel⟩
    · rw [List.mem_singleton.mp hv]
      exact ⟨rfl, fun _ => by decide +kernel⟩
  have hrouted := h [clearedDoc 1024 3, clearedDoc 1025 4] (registerReply 4) (fun _ => 0)
    (fun _ => 7) hdisj (fun v hv => (hall v hv).1) (fun v hv => (hall v hv).2) (Or.inr rfl)
  have hkeeps := hrouted.keeps 0 (jsonParseExtDataInfo (clearedDoc 1024 3) zeroed) rfl
    fun htarget => absurd htarget.code (by decide +kernel)
  have hreg := hkeeps.regs 1024 ⟨by decide +kernel, by decide +kernel⟩
  exact absurd hreg (by decide +kernel)

end K64Gateway.VarManage
