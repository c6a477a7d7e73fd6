import K64Gateway.Lib.RegisterBytes
import K64Gateway.VarManage.MasterResponse

/-
  The result of an expression, which `__RefreshExtDataWithRegs` writes back into
  `g_xExtDataRegs`. For the types of one byte `vBigEdianExtData` copies the whole union, so four
  registers are written.

  Proved: only the registers of the variable change, and they decode to the value that was stored
  (`writesBack_inside`). What is written behind them came from there.
-/

namespace K64Gateway.VarManage

open Stores

variable {R : Type}

/-! ## Bytes in registers -/

theorem toUInt8_join (low high : UInt8) :
    (low.toUInt16 ||| (high.toUInt16 <<< 8)).toUInt8 = low := RegisterBytes.low_join low high

theorem toUInt8_shift_join (low high : UInt8) :
    ((low.toUInt16 ||| (high.toUInt16 <<< 8)) >>> 8).toUInt8 = high :=
  RegisterBytes.high_join low high

/-- A value that is written to four registers stands there. -/
theorem valueAt_stores (regs : Regs) (i : Int) (v : VarValue) :
    valueAt (stores regs (block i 4 v.reg)) i = v := by
  funext k
  unfold valueAt
  dsimp only
  rw [stores_block regs i v.reg (by omega : k.val / 2 < 4)]
  fin_cases k
  all_goals first | exact toUInt8_join _ _ | exact toUInt8_shift_join _ _

theorem swapRule4_swapRule4 (btRule : UInt8) (i : Fin 8) :
    swapRule4 btRule (swapRule4 btRule i) = i := by
  unfold swapRule4
  split_ifs
  · revert i
    decide
  · revert i
    decide
  · revert i
    decide
  · rfl

theorem swapRule8_swapRule8 (btRule : UInt8) (i : Fin 8) :
    swapRule8 btRule (swapRule8 btRule i) = i := by
  unfold swapRule8
  split_ifs
  · revert i
    decide
  · revert i
    decide
  · revert i
    decide
  · rfl

/-- `vLittleEdianExtData` undoes `vBigEdianExtData` on the bytes of the value. -/
theorem vLittleEdianExtData_vBigEdianExtData {btType : UInt8} (btRule : UInt8)
    (v out out' : VarValue) {j : Fin 8} (hj : j.val < valueSize btType) :
    vLittleEdianExtData btType btRule (vBigEdianExtData btType btRule v out) out' j = v j := by
  unfold vLittleEdianExtData vBigEdianExtData edianSize
  unfold valueSize at hj
  by_cases h8 : btType = eVarBit ∨ btType = eVarInt8 ∨ btType = eVarUint8
  · rcases h8 with rfl | rfl | rfl <;> simp [eVarBit, eVarInt8, eVarUint8, eVarInt16, eVarUint16,
      eVarInt32, eVarUint32, eVarFloat, eVarDouble]
  · rw [if_neg h8] at hj
    by_cases h16 : btType = eVarInt16 ∨ btType = eVarUint16
    · rw [if_pos h16] at hj
      have hswap : ∀ k : Fin 2, ((![1, 0, 2, 3, 4, 5, 6, 7] : Fin 8 → Fin 8)
          (k.castLE (by decide))).val < 2 ∧ (![1, 0, 2, 3, 4, 5, 6, 7] : Fin 8 → Fin 8)
            ((![1, 0, 2, 3, 4, 5, 6, 7] : Fin 8 → Fin 8) (k.castLE (by decide))) =
              k.castLE (by decide) := by
        decide
      obtain ⟨hlt, heq⟩ := hswap ⟨j.val, hj⟩
      simp only [if_pos h16, if_pos hj]
      exact (if_pos hlt).trans (congrArg v heq)
    · rw [if_neg h16] at hj
      by_cases h32 : btType = eVarInt32 ∨ btType = eVarUint32 ∨ btType = eVarFloat
      · rw [if_pos h32] at hj
        simp only [if_neg h16, if_pos h32, if_pos hj, if_pos (swapRule4_lt btRule hj),
          swapRule4_swapRule4]
      · by_cases h64 : btType = eVarDouble
        · simp only [if_neg h16, if_neg h32, if_pos h64, if_pos (Fin.isLt _), swapRule8_swapRule8]
        · rw [if_neg h32, if_neg h64] at hj
          exact absurd hj (Nat.not_lt_zero _)

/-- What `vBigEdianExtData` writes behind the bytes of the value is copied as it is. -/
theorem vBigEdianExtData_copy {btType : UInt8} (btRule : UInt8) (src out : VarValue) {j : Fin 8}
    (hle : valueSize btType ≤ j.val) (hlt : j.val < edianSize btType) :
    vBigEdianExtData btType btRule src out j = src j := by
  unfold vBigEdianExtData
  rw [if_pos hlt]
  unfold valueSize at hle
  unfold edianSize at hlt
  by_cases h8 : btType = eVarBit ∨ btType = eVarInt8 ∨ btType = eVarUint8
  · rcases h8 with rfl | rfl | rfl <;> rfl
  · rw [if_neg h8] at hle
    split_ifs at hle hlt ⊢
    all_goals first | rfl | omega

/-- How many registers the result of the variable's expression has. -/
def resultRegs (node : ExtData R) : Nat :=
  if node.xIo.szExp.isSome then (valueSize node.xIo.btVarType + 1) / 2 else 0

section WriteBack

variable [VarReal R] (env : PollEnv R)

/-! ## The result of an expression -/

omit [VarReal R] in
theorem put_of_le (v : VarValue) {n : Nat} (bits : UInt64) {j : Fin 8} (hj : n ≤ j.val) :
    v.put n bits j = v j := by
  unfold VarValue.put
  rw [if_neg (Nat.not_lt.mpr hj)]

/-- The bytes behind the value stay. -/
theorem expValue_of_le {type : UInt8} {exp_val : R} {x v : VarValue}
    (h : expValue type exp_val x = some v) {j : Fin 8} (hj : valueSize type ≤ j.val) :
    v j = x j := by
  unfold expValue at h
  unfold valueSize at hj
  split_ifs at h
  all_goals
    subst_vars
    rw [← Option.some.inj h]
    exact put_of_le x _ hj

/-- The value that a refresh at `usAddress` decodes for a variable. -/
def reading (s : Polled R) (usAddress : UInt16) (node : ExtData R) : VarValue :=
  vLittleEdianExtData node.xIo.btVarType node.xIo.btVarRuleType
    (valueAt s.regs (regIndex usAddress)) (env.stack s usAddress)

/-- A refresh at `usAddress` writes the result `v` of the expression of the variable at `i` back. -/
structure WritesBack (s : Polled R) (usAddress : UInt16) (i : Nat) (node : ExtData R)
    (v : VarValue) : Prop where
  found : s.vars.findIdx? (coversAddr usAddress) = some i
  here : s.vars[i]? = some node
  check : bVarManageCheckExtValue node (reading env s usAddress node) = true
  result : doexpValue env (s.vars.set i (node.setValue (reading env s usAddress node)))
    (node.setValue (reading env s usAddress node)) = some v

/-- What is written. -/
def written (s : Polled R) (usAddress : UInt16) (node : ExtData R) (v : VarValue) : VarValue :=
  vBigEdianExtData node.xIo.btVarType node.xIo.btVarRuleType v
    (valueAt s.regs (regIndex usAddress))

theorem refresh_writesBack {s : Polled R} {usAddress : UInt16} {i : Nat} {node : ExtData R}
    {v : VarValue} (h : WritesBack env s usAddress i node v) :
    refreshExtDataWithRegs env s usAddress =
      { s with
        vars := s.vars.set i ((updateValue ((node.setValue (reading env s usAddress node)).setValue
          v)).setErrNum 0)
        regs := stores s.regs (block (regIndex usAddress) 4 (written s usAddress node v).reg) } := by
  rw [refreshExtDataWithRegs_eq env h.found h.here]
  unfold refreshNode
  dsimp only
  have hcheck := h.check
  have hresult := h.result
  unfold reading at hcheck hresult
  rw [if_pos hcheck]
  unfold takeValue
  dsimp only
  rw [hresult]
  rfl

/-- Behind the bytes of the value, what is written is what was read. -/
theorem written_of_le {s : Polled R} {usAddress : UInt16} {i : Nat} {node : ExtData R}
    {v : VarValue} (h : WritesBack env s usAddress i node v) {j : Fin 8}
    (hj : valueSize node.xIo.btVarType ≤ j.val) :
    written s usAddress node v j = valueAt s.regs (regIndex usAddress) j := by
  have hkept : v j = reading env s usAddress node j := by
    have hresult := h.result
    unfold doexpValue at hresult
    split at hresult
    · split at hresult
      · split at hresult
        · exact expValue_of_le hresult hj
        · exact nomatch hresult
      · exact nomatch hresult
    · exact nomatch hresult
  by_cases hsize : edianSize node.xIo.btVarType ≤ j.val
  · exact vBigEdianExtData_out _ v _ hsize
  · have hlt := Nat.not_le.mp hsize
    unfold written
    rw [vBigEdianExtData_copy _ _ _ hj hlt, hkept]
    exact vBigEdianExtData_copy _ _ _ hj hlt

/-- The registers behind the value stay. -/
theorem writesBack_regs {s : Polled R} {usAddress : UInt16} {i : Nat} {node : ExtData R}
    {v : VarValue} (h : WritesBack env s usAddress i node v) {k : Int}
    (hk : ¬ (regIndex usAddress ≤ k ∧
      k < regIndex usAddress + ((valueSize node.xIo.btVarType + 1) / 2 : Nat))) :
    (refreshExtDataWithRegs env s usAddress).regs k = s.regs k := by
  rw [refresh_writesBack env h]
  dsimp only
  by_cases hblock : regIndex usAddress ≤ k ∧ k < regIndex usAddress + 4
  · obtain ⟨j, rfl⟩ : ∃ j : Nat, k = regIndex usAddress + j :=
      ⟨(k - regIndex usAddress).toNat, by omega⟩
    have hj : j < 4 := by omega
    rw [stores_block _ _ _ hj, ← reg_valueAt s.regs _ hj]
    exact reg_congr hj fun m hlow _ => written_of_le env h (by omega)
  · refine stores_of_not_mem _ fun hmem => hblock ?_
    exact (mem_block_iff _ _ _ _).mp hmem

/-- The expression of a variable that is refreshed at its own address is written into the
    registers of the variable only, and these decode to the value that is stored in it. -/
theorem writesBack_inside {s : Polled R} {i : Nat} {node : ExtData R} {v : VarValue}
    (h : WritesBack env s node.xIo.usAddr i node v)
    (hsize : valueSize node.xIo.btVarType ≤ node.xIo.btVarSize.toNat) :
    let s' := refreshExtDataWithRegs env s node.xIo.usAddr
    let again := vLittleEdianExtData node.xIo.btVarType node.xIo.btVarRuleType
      (valueAt s'.regs (regIndex node.xIo.usAddr))
    (∀ k : Int, s'.regs k ≠ s.regs k →
      regIndex node.xIo.usAddr ≤ k ∧ k < regIndex node.xIo.usAddr + node.xIo.nregs) ∧
    valueOf s' i = some v ∧
    ∀ out, (∀ j : Fin 8, j.val < valueSize node.xIo.btVarType → again out j = v j) ∧
      (getExtValue node.xIo.btVarType (again out) : Option R) =
        getExtValue node.xIo.btVarType v := by
  dsimp only
  refine ⟨fun k hk => ?_, ?_, fun out => ?_⟩
  · by_contra hnot
    refine hk (writesBack_regs env h fun hin => hnot ?_)
    unfold ExtDataIO.nregs
    omega
  · rw [refresh_writesBack env h]
    obtain ⟨hlt, -⟩ := List.getElem?_eq_some_iff.mp h.here
    unfold valueOf
    dsimp only
    rw [List.getElem?_set_self hlt, Option.map_some]
    refine congrArg some ?_
    show (updateValue (ExtData.setValue _ v)).xIo.xValue = v
    unfold updateValue
    split <;> rfl
  · have hbytes : ∀ j : Fin 8, j.val < valueSize node.xIo.btVarType →
        vLittleEdianExtData node.xIo.btVarType node.xIo.btVarRuleType
          (valueAt (refreshExtDataWithRegs env s node.xIo.usAddr).regs
            (regIndex node.xIo.usAddr)) out j = v j := by
      intro j hj
      rw [refresh_writesBack env h]
      dsimp only
      rw [valueAt_stores]
      exact vLittleEdianExtData_vBigEdianExtData _ _ _ _ hj
    exact ⟨hbytes, getExtValue_congr hbytes⟩

end WriteBack

/-- A variable of one byte in the first register, whose expression gives 7. -/
def seven : ExtData Int :=
  { zeroed with
    bEnable := true
    xIo := { zeroed.xIo with
      btVarType := eVarUint8
      btVarSize := 1
      usAddr := 1024
      szExp := some [55] } }

def sevenEnv : PollEnv Int where
  evaluate _ _ _ := some 7
  stack _ _ _ := 0

/-- Every register has something in both bytes. -/
def sevenRead : Polled Int := ⟨[seven], fun _ => 4660, []⟩

theorem writesBack_inside_seven :
    (refreshExtDataWithRegs sevenEnv sevenRead 1024).regs 1 = 4660 ∧
      getExtValue eVarUint8 (vLittleEdianExtData eVarUint8 0
        (valueAt (refreshExtDataWithRegs sevenEnv sevenRead 1024).regs (regIndex 1024)) 0) =
          some (7 : Int) := by
  have hwrite : WritesBack sevenEnv sevenRead seven.xIo.usAddr 0 seven
      ((reading sevenEnv sevenRead 1024 seven).put 1 7) :=
    ⟨rfl, rfl, rfl, rfl⟩
  obtain ⟨hregs, -, hagain⟩ := writesBack_inside sevenEnv hwrite (by decide)
  refine ⟨?_, (hagain 0).2⟩
  by_contra hne
  exact absurd (hregs 1 hne).2 (by decide)

end K64Gateway.VarManage
