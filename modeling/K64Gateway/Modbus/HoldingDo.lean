import K64Gateway.Lib.ReadModifyWrite
import K64Gateway.VarManage.Registers

/-
  Writing the registers of the digital outputs: `eMBRegHoldingCB` of
  `freemodbus/port/user_mb_app.c` copies all of them, changes the addressed ones in the copy and
  stores the whole copy. The slave of every port runs in a thread of its own.

  Proved: as long as no store undoes another write, the registers are the result of the finished
  writes one after the other (`doWrites_serial`).
-/

namespace K64Gateway.Modbus

open ReadModifyWrite
open VarManage (htons)

/-! ## The three steps -/

/-- `USER_REG_DO_START`, `USER_REG_DO_END` and `USER_REG_DO_SIZE` -/
def userRegDoStart : Nat := 80
def userRegDoEnd : Nat := 87
abbrev userRegDoSize : Nat := 8

scoped instance neZeroUserRegDoSize : NeZero userRegDoSize := ⟨by decide⟩

/-- `g_xDOResultReg` -/
abbrev DoFile := Fin userRegDoSize → UInt16

/-- `MB_IN_USER_REG(DO, _ad, _n)`. The registers before it end below, at 77. -/
def MbInUserRegDo (ad n : UInt16) : Prop :=
  userRegDoStart ≤ ad.toNat ∧ ad.toNat ≤ userRegDoEnd ∧
    ad.toNat + n.toNat ≤ userRegDoStart + userRegDoSize

instance (ad n : UInt16) : Decidable (MbInUserRegDo ad n) := inferInstanceAs (Decidable (_ ∧ _ ∧ _))

/-- The arguments of a call in `MB_REG_WRITE` mode that writes outputs; `usAddress` counts from
    1. -/
structure DoWrite where
  pucRegBuffer : List UInt8
  usAddress : UInt16
  usNRegs : UInt16
  in_do : MbInUserRegDo (usAddress - 1) usNRegs

def DoWrite.iRegIndex (w : DoWrite) : Nat := (w.usAddress - 1).toNat - userRegDoStart

/-- `vBigEdianDOResult`, and `vLittleEdianDOResult`, which is the same. -/
def vBigEdianDOResult (regs : DoFile) : DoFile := fun i => htons (regs i)

/-- The register that the first two bytes are written to. -/
def bytesReg (pucRegBuffer : List UInt8) : UInt16 :=
  (pucRegBuffer.getD 0 0).toUInt16 ||| ((pucRegBuffer.getD 1 0).toUInt16 <<< 8)

/-- The loop of `MB_REG_WRITE`. -/
def writeRegs (pucRegBuffer : List UInt8) (iRegIndex : Nat) : Nat → DoFile → DoFile
  | 0, regs => regs
  | usNRegs + 1, regs =>
    writeRegs (pucRegBuffer.drop 2) (iRegIndex + 1) usNRegs fun i =>
      if i.val = iRegIndex then bytesReg pucRegBuffer else regs i

/-- `eMBRegHoldingCB` for the outputs. -/
def holdingDo : Method DoFile DoFile DoWrite where
  copy := vBigEdianDOResult
  change w := writeRegs w.pucRegBuffer w.iRegIndex w.usNRegs.toNat
  store := vBigEdianDOResult

/-! ## One write -/

theorem toNat_htons (n : UInt16) : (htons n).toNat = n.toNat % 256 * 256 + n.toNat / 256 := by
  have hlt := n.toNat_lt
  have hlow : n.toNat <<< 8 % 2 ^ 16 = (n.toNat % 256) <<< 8 := by
    rw [Nat.shiftLeft_eq, Nat.shiftLeft_eq]
    omega
  have hhigh : n.toNat >>> 8 = n.toNat / 256 := Nat.shiftRight_eq_div_pow _ 8
  show (n.toNat <<< 8 % 2 ^ 16) ||| (n.toNat >>> 8) = _
  rw [hlow, hhigh, ← Nat.shiftLeft_add_eq_or_of_lt (by omega), Nat.shiftLeft_eq]

theorem htons_htons (n : UInt16) : htons (htons n) = n := by
  have hlt := n.toNat_lt
  apply UInt16.toNat_inj.mp
  rw [toNat_htons, toNat_htons]
  omega

/-- The registers that a write addresses. -/
def DoWrite.Addresses (w : DoWrite) (i : Fin userRegDoSize) : Prop :=
  w.iRegIndex ≤ i.val ∧ i.val < w.iRegIndex + w.usNRegs.toNat

instance (w : DoWrite) (i : Fin userRegDoSize) : Decidable (w.Addresses i) :=
  inferInstanceAs (Decidable (_ ∧ _))

/-- What a write gives register `i`. -/
def DoWrite.value (w : DoWrite) (i : Fin userRegDoSize) : UInt16 :=
  bytesReg (w.pucRegBuffer.drop (2 * (i.val - w.iRegIndex)))

theorem writeRegs_apply (usNRegs : Nat) (pucRegBuffer : List UInt8) (iRegIndex : Nat)
    (regs : DoFile) (i : Fin userRegDoSize) :
    writeRegs pucRegBuffer iRegIndex usNRegs regs i =
      if iRegIndex ≤ i.val ∧ i.val < iRegIndex + usNRegs then
        bytesReg (pucRegBuffer.drop (2 * (i.val - iRegIndex)))
      else regs i := by
  induction usNRegs generalizing pucRegBuffer iRegIndex regs with
  | zero =>
    rw [if_neg (by omega)]
    rfl
  | succ usNRegs ih =>
    unfold writeRegs
    rw [ih]
    by_cases hi : i.val = iRegIndex
    · rw [if_neg (by omega), if_pos hi, if_pos (by omega), hi, Nat.sub_self]
      rfl
    · by_cases hin : iRegIndex + 1 ≤ i.val ∧ i.val < iRegIndex + 1 + usNRegs
      · rw [if_pos hin, if_pos (by omega), List.drop_drop]
        congr 2
        omega
      · rw [if_neg hin, if_neg hi, if_neg (by omega)]

/-- A changed copy holds the values of the write, and elsewhere what was copied. -/
theorem holdingDo_change (w : DoWrite) (copy : DoFile) (i : Fin userRegDoSize) :
    holdingDo.change w copy i = if w.Addresses i then w.value i else copy i :=
  writeRegs_apply w.usNRegs.toNat w.pucRegBuffer w.iRegIndex copy i

/-- A write with nothing in between gives the addressed registers their values, and no others. -/
theorem holdingDo_perform (w : DoWrite) (file : DoFile) (i : Fin userRegDoSize) :
    holdingDo.perform file w i = if w.Addresses i then htons (w.value i) else file i := by
  show htons (holdingDo.change w (vBigEdianDOResult file) i) = _
  rw [holdingDo_change]
  split
  · rfl
  · exact htons_htons (file i)

/-! ## Writes of several threads -/

section Threads

variable {T : Type*} [DecidableEq T]

/-- What thread `t` stores next leaves every register that its write does not address as it is
    now. -/
def UndoesNothing (s : State DoFile DoFile DoWrite T) (t : T) : Prop :=
  ∀ x ∈ s.pending t, ∀ i, ¬ x.1.Addresses i → holdingDo.store x.2 i = s.shared i

omit [DecidableEq T] in
/-- A store undoes nothing exactly if it stores what the write makes of the registers now. -/
theorem clean_iff_undoesNothing {s : State DoFile DoFile DoWrite T} (hs : Changed holdingDo s)
    (t : T) : holdingDo.Clean s t ↔ UndoesNothing s t := by
  refine forall₂_congr fun x hx => ?_
  constructor
  · intro h i hi
    rw [h, holdingDo_perform, if_neg hi]
  · intro h
    obtain ⟨copy, hcopy⟩ := hs t x hx
    funext i
    rw [holdingDo_perform]
    by_cases hi : x.1.Addresses i
    · rw [if_pos hi, hcopy]
      show htons (holdingDo.change x.1 copy i) = _
      rw [holdingDo_change, if_pos hi]
    · rw [if_neg hi]
      exact h i hi

instance (s : State DoFile DoFile DoWrite T) (t : T) : Decidable (UndoesNothing s t) :=
  inferInstanceAs (Decidable (∀ x ∈ s.pending t, _))

theorem doWrites_serial (prog : T → List DoWrite) (file : DoFile) (run : List T)
    (h : holdingDo.EachStep UndoesNothing (.start prog file) run) :
    ∃ order, Serial holdingDo prog file (holdingDo.runFrom (.start prog file) run) order :=
  serial_runFrom (serial_start holdingDo prog file)
    (h.clean (fun _ t hs => (clean_iff_undoesNothing hs t).mpr) (changed_start holdingDo prog file))

end Threads

/-! ## Two outputs -/

/-- A register that all the writes to it set to `v`, of which there is one. -/
theorem foldl_perform_eq {writes : List DoWrite} {i : Fin userRegDoSize} {v : UInt16}
    (hv : ∀ w ∈ writes, w.Addresses i → htons (w.value i) = v)
    (hw : ∃ w ∈ writes, w.Addresses i) (file : DoFile) :
    writes.foldl holdingDo.perform file i = v := by
  induction writes using List.reverseRecOn with
  | nil => simp at hw
  | append_singleton writes w ih =>
    rw [List.foldl_append, List.foldl_cons, List.foldl_nil, holdingDo_perform]
    by_cases hi : w.Addresses i
    · rw [if_pos hi]
      exact hv w (by simp) hi
    · rw [if_neg hi]
      obtain ⟨w', hmem, hw'⟩ := hw
      refine ih (fun w hw => hv w (by simp [hw])) ⟨w', ?_, hw'⟩
      rcases List.mem_append.mp hmem with hmem | hmem
      · exact hmem
      · exact absurd (List.mem_singleton.mp hmem ▸ hw') hi

/-- Output `i` is set to 1. -/
def setOutput (i : Fin userRegDoSize) : DoWrite where
  pucRegBuffer := [0, 1]
  usAddress := UInt16.ofNat (81 + i.val)
  usNRegs := 1
  in_do := by
    revert i
    decide

/-- One thread sets the first output, another one the second. -/
def twoOutputs (t : Bool) : List DoWrite := [setOutput (if t then 1 else 0)]

theorem twoOutputs_serial :
    ∃ order, Serial holdingDo twoOutputs (fun _ => 0)
      (holdingDo.runFrom (.start twoOutputs fun _ => 0) [false, false, false, true, true, true])
      order :=
  doWrites_serial twoOutputs (fun _ => 0) [false, false, false, true, true, true] (by decide)

/-- Both threads copy before one of them stores. -/
theorem twoOutputs_not_serial :
    ¬ ∀ (prog : Bool → List DoWrite) (file : DoFile) (run : List Bool),
      (∀ t, ((holdingDo.runFrom (.start prog file) run).worker t).todo = []) →
        ∃ order, Serial holdingDo prog file (holdingDo.runFrom (.start prog file) run) order := by
  intro h
  obtain ⟨order, hshared, hfinished⟩ := h twoOutputs (fun _ => 0)
    [false, true, false, true, false, true] (by decide)
  have hof : ∀ t, changesOf t order = twoOutputs t := fun t => by
    rw [hfinished t]
    cases t <;> exact (List.append_nil _).symm
  have hchange : ∀ x ∈ order, x.2 = setOutput (if x.1 then 1 else 0) := fun x hx => by
    have hmem : x.2 ∈ changesOf x.1 order :=
      List.mem_map_of_mem (List.mem_filter.mpr ⟨hx, decide_eq_true rfl⟩)
    rw [hof] at hmem
    exact List.mem_singleton.mp hmem
  have hfirst : setOutput 0 ∈ order.map Prod.snd := by
    have hmem : setOutput 0 ∈ changesOf false order := by
      rw [hof]
      exact List.mem_singleton_self _
    obtain ⟨x, hx, heq⟩ := List.mem_map.mp hmem
    exact List.mem_map.mpr ⟨x, (List.mem_filter.mp hx).1, heq⟩
  have hone := foldl_perform_eq (i := 0) (v := 1) (fun w hw => by
    obtain ⟨x, hx, rfl⟩ := List.mem_map.mp hw
    rw [hchange x hx]
    cases x.1 <;> decide) ⟨_, hfirst, by decide⟩ (fun _ => 0)
  rw [← hshared] at hone
  revert hone
  decide

end K64Gateway.Modbus
