import K64Gateway.VarManage.SlaveWrite
import K64Gateway.VarManage.MasterResponse

/-
  The values of the variables after a write to the mapped registers. The walk of
  `bVarManage_RefreshExtDataWithModbusSlave` refreshes a variable with the register at which it
  reaches it, which is not the first one of the variable where the write starts inside it.

  Proved: after which writes every variable has the value of its registers (`written_values_iff`).
-/

namespace K64Gateway.VarManage

open Stores

variable {R : Type}

/-! ## The values after a write -/

/-- The write has a register of the variable. -/
def isOverlapped (v : ExtData R) (usAddress usNRegs : Nat) : Bool :=
  v.bEnable && decide (firstWritten v usAddress < endWritten v usAddress usNRegs)

section Values

variable [VarReal R]

/-- The value that the registers from `usAddress` on are decoded to, where it passes the check. -/
def valueFrom (v : ExtData R) (regs : Regs) (usAddress : UInt16) : VarValue :=
  let x := vLittleEdianExtData v.xIo.btVarType v.xIo.btVarRuleType
    (valueAt regs (regIndex usAddress)) 0
  if bVarManageCheckExtValue v x then x else v.xIo.xValue

/-- The value is `valueFrom`, in the bytes that the decoding writes. -/
def HasValueFrom (s' : Polled R) (i : Nat) (v : ExtData R) (regs : Regs) (usAddress : UInt16) :
    Prop :=
  ∃ x, valueOf s' i = some x ∧
    ∀ j : Fin 8, j.val < edianSize v.xIo.btVarType → x j = valueFrom v regs usAddress j

/-- Every enabled variable of the write has the value of its registers, and the others keep
    theirs. -/
def ValuesWritten (s s' : Polled R) (usAddress usNRegs : Nat) : Prop :=
  ∀ i v, s.vars[i]? = some v →
    if isOverlapped v usAddress usNRegs then HasValueFrom s' i v s'.regs v.xIo.usAddr
    else valueOf s' i = valueOf s i

/-- A variable in which the write starts, behind its first register, has the same value from there
    as from its first register. -/
def StartFits (s : Polled R) (usAddress usNRegs : UInt16) : Prop :=
  ∀ (i : Nat) (v : ExtData R), s.vars[i]? = some v →
    isOverlapped v usAddress.toNat usNRegs.toNat = true → v.xIo.usAddr.toNat < usAddress.toNat →
      ∀ j : Fin 8, j.val < edianSize v.xIo.btVarType →
        valueFrom v s.regs usAddress j = valueFrom v s.regs v.xIo.usAddr j

end Values

/-! ## Where the variables are reached -/

/-- The node at the place is the one that a refresh at the address finds. -/
def Finds (vars : List (ExtData R)) (e : Nat × UInt16) : Prop :=
  vars.findIdx? (coversAddr e.2) = some e.1

/-- A variable of the write is reached at its first written register. -/
theorem reached_first {vars : List (ExtData R)} (hdisj : DisjointRanges vars) {i : Nat}
    {v : ExtData R} (hi : vars[i]? = some v) (hen : v.bEnable = true) {fuel : Nat}
    {usAddress : UInt16} {n : Nat} (hfuel : n ≤ fuel) (hr : usAddress.toNat + n ≤ 2048)
    (hover : firstWritten v usAddress.toNat < endWritten v usAddress.toNat n) :
    ∃ a, (i, a) ∈ reached vars fuel usAddress n ∧ a.toNat = firstWritten v usAddress.toNat := by
  unfold firstWritten endWritten at hover
  unfold firstWritten
  induction fuel generalizing usAddress n with
  | zero => omega
  | succ fuel ih =>
    cases n with
    | zero => omega
    | succ n =>
      unfold reached
      split
      · next i' info hget =>
        obtain ⟨v', hi', hcov', rfl⟩ := getIo_some hget
        have hnext := nextReg hr hcov'
        have hpos := hnext.pos
        have hstop := hnext.stop
        by_cases hsame : i' = i
        · subst hsame
          obtain rfl := Option.some.inj (hi'.symm.trans hi)
          obtain ⟨hle, -⟩ := hasReg_of_covers hcov'
          exact ⟨usAddress, List.mem_cons_self, (Nat.max_eq_left hle).symm⟩
        · -- the variable lies behind the one that is reached here
          have hbehind : v'.xIo.usAddr.toNat + v'.xIo.nregs ≤ v.xIo.usAddr.toNat := by
            by_contra hnot
            obtain ⟨hle', hlt'⟩ := hasReg_of_covers hcov'
            have hshared : HasReg v' (max usAddress.toNat v.xIo.usAddr.toNat) := by
              unfold HasReg
              omega
            refine hsame (hdisj.position hi' hi hshared ?_)
            unfold HasReg
            omega
          have haddr := hnext.next (by omega)
          obtain ⟨a, hmem, ha⟩ := @ih (usAddress + UInt16.ofNat (ioInfo usAddress v').nregs)
            (n + 1 - (ioInfo usAddress v').nregs) (by omega) (by omega) (by omega)
          exact ⟨a, List.mem_cons_of_mem _ hmem, by omega⟩
      · next hget =>
        have haddr : (usAddress + 1).toNat = usAddress.toNat + 1 := by
          rw [UInt16.toNat_add, UInt16.toNat_one, Nat.mod_eq_of_lt (by omega)]
        have hbehind : usAddress.toNat < v.xIo.usAddr.toNat := by
          by_contra hnot
          have hcov : coversAddr usAddress v = true := by
            unfold coversAddr
            simp only [Bool.and_eq_true, decide_eq_true_eq]
            exact ⟨⟨hen, by omega⟩, by omega⟩
          unfold getExtDataIoInfoWithAddr at hget
          rw [hdisj.findIdx_covers hi hcov] at hget
          dsimp only at hget
          rw [hi] at hget
          exact nomatch hget
        obtain ⟨a, hmem, ha⟩ := @ih (usAddress + 1) n (by omega) (by omega) (by omega)
        exact ⟨a, hmem, by omega⟩

/-- What is reached is a variable of the write. -/
theorem isOverlapped_of_reached {vars : List (ExtData R)} {fuel : Nat} {usAddress : UInt16} {n : Nat}
    (hr : usAddress.toNat + n ≤ 2048) {i : Nat} {a : UInt16}
    (hmem : (i, a) ∈ reached vars fuel usAddress n) {v : ExtData R} (hi : vars[i]? = some v) :
    isOverlapped v usAddress.toNat n = true := by
  obtain ⟨hle, hlt, v', hi', hcov⟩ := reached_mem hr hmem
  obtain rfl := Option.some.inj (hi'.symm.trans hi)
  obtain ⟨hlow, hhigh⟩ := hasReg_of_covers hcov
  unfold coversAddr at hcov
  rw [Bool.and_eq_true, Bool.and_eq_true] at hcov
  unfold isOverlapped firstWritten endWritten
  rw [hcov.1.1, Bool.true_and, decide_eq_true_eq]
  dsimp only at hle hlt hlow hhigh
  omega

theorem reached_finds {vars : List (ExtData R)} (hdisj : DisjointRanges vars) {fuel : Nat}
    {usAddress : UInt16} {n : Nat} (hr : usAddress.toNat + n ≤ 2048) {e : Nat × UInt16}
    (he : e ∈ reached vars fuel usAddress n) : Finds vars e := by
  obtain ⟨-, -, v, hi, hcov⟩ := reached_mem hr he
  exact hdisj.findIdx_covers hi hcov

/-! ## The refreshes -/

section Refreshes

variable [VarReal R] (env : PollEnv R)

omit [VarReal R] in
theorem edianSize_byte (btRule : UInt8) {btType : UInt8} (src out out' : VarValue) {j : Fin 8}
    (hj : j.val < edianSize btType) :
    vLittleEdianExtData btType btRule src out j = vLittleEdianExtData btType btRule src out' j := by
  unfold vLittleEdianExtData vBigEdianExtData
  rw [if_pos hj, if_pos hj]

omit [VarReal R] in
theorem valueSize_le_edianSize (btType : UInt8) : valueSize btType ≤ edianSize btType := by
  unfold valueSize edianSize
  split_ifs <;> decide

/-- The value of a variable that is refreshed. -/
theorem refresh_hasValueFrom {s : Polled R} {i : Nat} {a : UInt16} {v : ExtData R}
    (hfinds : Finds s.vars (i, a)) (hi : s.vars[i]? = some v) (hexp : v.xIo.szExp = none) :
    HasValueFrom (refreshExtDataWithRegs env s a) i v s.regs a := by
  rw [refreshExtDataWithRegs_eq env hfinds hi]
  have hvalue := valueOf_refreshNode env hi hexp a
  refine ⟨_, hvalue, fun j hj => ?_⟩
  have hbytes (j : Fin 8) (hj : j.val < edianSize v.xIo.btVarType) :=
    edianSize_byte v.xIo.btVarRuleType (valueAt s.regs (regIndex a)) (env.stack s a) 0 hj
  have hcheck := check_congr v fun j hj =>
    hbytes j (Nat.lt_of_lt_of_le hj (valueSize_le_edianSize _))
  unfold valueFrom
  rw [hcheck]
  split
  · exact hbytes j hj
  · rfl

theorem refresh_other {s : Polled R} {e : Nat × UInt16} (hfinds : Finds s.vars e) {i : Nat}
    (hne : e.1 ≠ i) : (refreshExtDataWithRegs env s e.2).vars[i]? = s.vars[i]? := by
  rcases refreshExtDataWithRegs_cases env s e.2 with heq | ⟨j, f, hfind, -, hrefresh⟩
  · rw [heq]
  · obtain ⟨f', hset, -⟩ := hrefresh.record
    obtain rfl : e.1 = j := Option.some.inj (hfinds.symm.trans hfind)
    rw [hset, List.getElem?_set_ne hne]

omit [VarReal R] in
theorem Finds.congr {vars vars' : List (ExtData R)} {e : Nat × UInt16} (h : Finds vars e)
    (hkey : vars'.map ExtData.key = vars.map ExtData.key) : Finds vars' e :=
  (findIdx_congr e.2 hkey).trans h

/-- A variable that is not refreshed stays as it is. -/
theorem refreshed_other {s : Polled R} {es : List (Nat × UInt16)}
    (hfinds : ∀ e ∈ es, Finds s.vars e) {i : Nat} (hnot : ∀ e ∈ es, e.1 ≠ i) :
    (refreshed env s es).vars[i]? = s.vars[i]? := by
  induction es generalizing s with
  | nil => rfl
  | cons e es ih =>
    have hkey := refreshExtDataWithRegs_key env s e.2
    have hrest : ∀ e' ∈ es, Finds (refreshExtDataWithRegs env s e.2).vars e' := fun e' he' =>
      (hfinds e' (List.mem_cons_of_mem e he')).congr hkey
    refine (ih hrest fun e' he' => hnot e' (List.mem_cons_of_mem e he')).trans ?_
    exact refresh_other env (hfinds e List.mem_cons_self) (hnot e List.mem_cons_self)

/-- Without expressions the registers stay. -/
theorem refreshed_regs {s : Polled R} (hexp : NoExpressions s.vars) (es : List (Nat × UInt16)) :
    (refreshed env s es).regs = s.regs := by
  induction es generalizing s with
  | nil => rfl
  | cons e es ih =>
    refine (ih (hexp.congr (refreshExtDataWithRegs_key env s e.2))).trans ?_
    exact refresh_regs env hexp e.2

/-- A variable that is refreshed once has the value from where it is reached. -/
theorem refreshed_hasValueFrom {s : Polled R} (hexp : NoExpressions s.vars)
    {es : List (Nat × UInt16)} (hfinds : ∀ e ∈ es, Finds s.vars e)
    (honce : es.Pairwise fun e e' => e.1 ≠ e'.1) {i : Nat} {a : UInt16} (hmem : (i, a) ∈ es)
    {v : ExtData R} (hi : s.vars[i]? = some v) :
    HasValueFrom (refreshed env s es) i v s.regs a := by
  induction es generalizing s with
  | nil => exact absurd hmem List.not_mem_nil
  | cons e es ih =>
    obtain ⟨hfirst, honce⟩ := List.pairwise_cons.mp honce
    have hkey := refreshExtDataWithRegs_key env s e.2
    have hrest : ∀ e' ∈ es, Finds (refreshExtDataWithRegs env s e.2).vars e' := fun e' he' =>
      (hfinds e' (List.mem_cons_of_mem e he')).congr hkey
    rcases List.mem_cons.mp hmem with rfl | hmem
    · obtain ⟨x, hx, hbytes⟩ := refresh_hasValueFrom env (hfinds _ List.mem_cons_self) hi
        (hexp v (List.mem_of_getElem? hi))
      have hlater := refreshed_other env hrest fun e' he' => (hfirst e' he').symm
      refine ⟨x, ?_, hbytes⟩
      unfold valueOf at hx ⊢
      rw [← hx]
      exact congrArg (Option.map fun node : ExtData R => node.xIo.xValue) hlater
    · have hsame := refresh_other env (hfinds e List.mem_cons_self) (hfirst _ hmem)
      have hvalue := ih (hexp.congr hkey) hrest honce hmem (hsame.trans hi)
      rwa [refresh_regs env hexp] at hvalue

/-! ## Which writes leave the right values -/

variable (ports : MasterPorts)

/-- The walk of a write, over registers that have been written. -/
theorem walked_values_iff {s : Polled R} (hdisj : DisjointRanges s.vars)
    (hexp : NoExpressions s.vars) {usAddress usNRegs : UInt16}
    (hrange : inExtData usAddress usNRegs = true) :
    ValuesWritten s (bVarManageRefreshExtDataWithModbusSlave env ports s usAddress usNRegs).s
        usAddress.toNat usNRegs.toNat ↔
      StartFits s usAddress usNRegs := by
  have hend : usAddress.toNat + usNRegs.toNat ≤ 2048 := by
    unfold inExtData at hrange
    rw [Bool.and_eq_true, decide_eq_true_eq] at hrange
    exact hrange.2
  have hstate : (bVarManageRefreshExtDataWithModbusSlave env ports s usAddress usNRegs).s =
      refreshed env s (walked s usAddress usNRegs) :=
    (slaveWalk_reached env ports hend usNRegs.toNat ⟨s, usAddress, usNRegs, [], false⟩ rfl
      fun _ => rfl).1
  have honce : (walked s usAddress usNRegs).Pairwise fun e e' => e.1 ≠ e'.1 := reached_once hend
  have hfinds : ∀ e ∈ walked s usAddress usNRegs, Finds s.vars e := fun e he =>
    reached_finds hdisj hend he
  -- a variable of the write has the value from its first written register
  have hvalue {i : Nat} {v : ExtData R} (hi : s.vars[i]? = some v)
      (hover : isOverlapped v usAddress.toNat usNRegs.toNat = true) :
      ∃ a : UInt16, a.toNat = firstWritten v usAddress.toNat ∧
        HasValueFrom (refreshed env s (walked s usAddress usNRegs)) i v s.regs a := by
    unfold isOverlapped at hover
    rw [Bool.and_eq_true, decide_eq_true_eq] at hover
    obtain ⟨a, hmem, ha⟩ := reached_first hdisj hi hover.1 (Nat.le_refl _) hend hover.2
    exact ⟨a, ha, refreshed_hasValueFrom env hexp hfinds honce hmem hi⟩
  rw [hstate]
  constructor
  · intro h i v hi hover hinside j hj
    obtain ⟨a, ha, x, hx, hbytes⟩ := hvalue hi hover
    obtain rfl : a = usAddress := UInt16.toNat_inj.mp (by
      rw [ha]
      exact Nat.max_eq_left (Nat.le_of_lt hinside))
    have hown := h i v hi
    rw [if_pos hover, refreshed_regs env hexp] at hown
    obtain ⟨x', hx', hbytes'⟩ := hown
    obtain rfl := Option.some.inj (hx.symm.trans hx')
    exact (hbytes j hj).symm.trans (hbytes' j hj)
  · intro h i v hi
    split
    · next hover =>
      obtain ⟨a, ha, x, hx, hbytes⟩ := hvalue hi hover
      rw [refreshed_regs env hexp]
      refine ⟨x, hx, fun j hj => (hbytes j hj).trans ?_⟩
      by_cases hinside : v.xIo.usAddr.toNat < usAddress.toNat
      · obtain rfl : a = usAddress := UInt16.toNat_inj.mp (by
          rw [ha]
          exact Nat.max_eq_left (Nat.le_of_lt hinside))
        exact h i v hi hover hinside j hj
      · obtain rfl : a = v.xIo.usAddr := UInt16.toNat_inj.mp (by
          rw [ha]
          exact Nat.max_eq_right (Nat.not_lt.mp hinside))
        rfl
    · next hnot =>
      have hother := refreshed_other env hfinds (i := i) fun e he heq =>
        hnot (isOverlapped_of_reached hend (i := i) (a := e.2) (by rw [← heq]; exact he) hi)
      unfold valueOf
      rw [hother]

/-- After a write that is accepted every variable has the right value if and only if the write does
    not start inside a variable, or the variable has the same value from there. -/
theorem written_values_iff {flags : Nat → Bool} {s : Polled R} (hdisj : DisjointRanges s.vars)
    (hexp : NoExpressions s.vars) {pucRegBuffer : Nat → UInt8} {usAddress usNRegs : UInt16}
    {w : SlaveWalk R}
    (h : eMBRegHoldingCB env ports flags s pucRegBuffer usAddress usNRegs = some w) :
    ValuesWritten (s.store (refreshRegs pucRegBuffer (usAddress - 1) usNRegs.toNat)) w.s
        (usAddress - 1).toNat usNRegs.toNat ↔
      StartFits (s.store (refreshRegs pucRegBuffer (usAddress - 1) usNRegs.toNat))
        (usAddress - 1) usNRegs := by
  unfold eMBRegHoldingCB at h
  dsimp only at h
  split at h
  · next haccepted =>
    rw [Bool.and_eq_true] at haccepted
    rw [← Option.some.inj h]
    exact walked_values_iff env ports (s := s.store _) hdisj hexp haccepted.1
  · exact nomatch h

end Refreshes

/-- A counter of two registers, the first ones. -/
def pair : ExtData Int :=
  { zeroed with
    bEnable := true
    xIo := { zeroed.xIo with
      btVarType := eVarUint32
      btVarSize := 4
      usAddr := 1024 } }

def pairState : Polled Int := ⟨[pair], fun _ => 0, []⟩

theorem disjoint_pair : DisjointRanges pairState.vars := List.pairwise_singleton _ _

theorem noExpressions_pair : NoExpressions pairState.vars := by
  intro v hv
  rw [List.mem_singleton.mp hv]
  rfl

/-- Every byte of the request is 1. -/
def ones : Nat → UInt8 := fun _ => 1

/-- Both registers are written. -/
theorem written_values_pair :
    ValuesWritten (pairState.store (refreshRegs ones 1024 2))
      (bVarManageRefreshExtDataWithModbusSlave plainEnv serialPorts
        (pairState.store (refreshRegs ones 1024 2)) 1024 2).s 1024 2 := by
  have haccepted : eMBRegHoldingCB plainEnv serialPorts (fun _ => true) pairState ones 1025 2 =
      some (bVarManageRefreshExtDataWithModbusSlave plainEnv serialPorts
        (pairState.store (refreshRegs ones 1024 2)) 1024 2) := rfl
  refine (written_values_iff plainEnv serialPorts disjoint_pair noExpressions_pair
    haccepted).mpr fun i v hi _ hinside => ?_
  rw [List.mem_singleton.mp (List.mem_of_getElem? hi)] at hinside
  exact absurd hinside (by decide)

/-- The second register is written, and becomes the first one of the value. -/
theorem second_register_first :
    ¬ ∀ (flags : Nat → Bool) (s : Polled Int) (pucRegBuffer : Nat → UInt8)
      (usAddress usNRegs : UInt16) (w : SlaveWalk Int),
      DisjointRanges s.vars → NoExpressions s.vars →
      eMBRegHoldingCB plainEnv serialPorts flags s pucRegBuffer usAddress usNRegs = some w →
      ValuesWritten (s.store (refreshRegs pucRegBuffer (usAddress - 1) usNRegs.toNat)) w.s
        (usAddress - 1).toNat usNRegs.toNat := by
  intro h
  have hvalues := h (fun _ => true) pairState ones 1026 1 _ disjoint_pair noExpressions_pair rfl
    0 pair rfl
  rw [if_pos (by decide)] at hvalues
  obtain ⟨x, hx, hbytes⟩ := hvalues
  obtain rfl := Option.some.inj hx
  exact absurd (hbytes 0 (by decide)) (by decide)

end K64Gateway.VarManage
