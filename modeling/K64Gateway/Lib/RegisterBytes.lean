import Mathlib

/-
  Registers of 16 bits that are written from bytes and read as bytes, the low byte first.

  Proved: the bytes that are read are those that were written (`get_put`).
-/

namespace RegisterBytes

/-- The register of two bytes. -/
def join (low high : UInt8) : UInt16 := low.toUInt16 ||| (high.toUInt16 <<< 8)

theorem low_join (low high : UInt8) : (join low high).toUInt8 = low := by
  apply UInt8.toBitVec_inj.mp
  ext j hj
  simp [join]

theorem high_join (low high : UInt8) : (join low high >>> 8).toUInt8 = high := by
  apply UInt8.toBitVec_inj.mp
  ext j hj
  interval_cases j <;> simp [join]

/-- `n` registers from `first` on take their values from the bytes. -/
def put (bytes : Nat → UInt8) (first : Nat) : Nat → (Nat → UInt16) → Nat → UInt16
  | 0, regs => regs
  | n + 1, regs =>
    put (fun k => bytes (k + 2)) (first + 1) n
      (Function.update regs first (join (bytes 0) (bytes 1)))

/-- The bytes of `n` registers from `first` on. -/
def get (regs : Nat → UInt16) (first : Nat) : Nat → List UInt8
  | 0 => []
  | n + 1 => (regs first).toUInt8 :: (regs first >>> 8).toUInt8 :: get regs (first + 1) n

theorem put_apply (bytes : Nat → UInt8) (first n : Nat) (regs : Nat → UInt16) (i : Nat) :
    put bytes first n regs i =
      if first ≤ i ∧ i < first + n then
        join (bytes (2 * (i - first))) (bytes (2 * (i - first) + 1))
      else regs i := by
  induction n generalizing bytes first regs with
  | zero =>
    rw [if_neg (by omega)]
    rfl
  | succ n ih =>
    rw [put, ih, Function.update_apply]
    by_cases hi : i = first
    · subst hi
      rw [if_neg (by omega), if_pos rfl, if_pos (by omega), Nat.sub_self]
    · by_cases hin : first + 1 ≤ i ∧ i < first + 1 + n
      · have hnext : i - first = i - (first + 1) + 1 := by omega
        rw [if_pos hin, if_pos (by omega), hnext]
        rfl
      · rw [if_neg hin, if_neg hi, if_neg (by omega)]

theorem length_get (regs : Nat → UInt16) (first n : Nat) : (get regs first n).length = 2 * n := by
  induction n generalizing first with
  | zero => rfl
  | succ n ih =>
    rw [get, List.length_cons, List.length_cons, ih]
    rfl

theorem get_congr {regs regs' : Nat → UInt16} {first n : Nat}
    (h : ∀ i, first ≤ i → i < first + n → regs i = regs' i) :
    get regs first n = get regs' first n := by
  induction n generalizing first with
  | zero => rfl
  | succ n ih =>
    rw [get, get, h first (Nat.le_refl _) (by omega),
      ih fun i hle hlt => h i (by omega) (by omega)]

/-- The bytes that were written are read again. -/
theorem get_put (bytes : Nat → UInt8) (first n : Nat) (regs : Nat → UInt16) :
    get (put bytes first n regs) first n = (List.range (2 * n)).map bytes := by
  induction n generalizing bytes first regs with
  | zero => rfl
  | succ n ih =>
    have hfirst : put bytes first (n + 1) regs first = join (bytes 0) (bytes 1) := by
      rw [put_apply, if_pos (by omega), Nat.sub_self]
    have hrange : List.range (2 * (n + 1)) = 0 :: 1 :: (List.range (2 * n)).map (· + 2) := by
      rw [Nat.mul_succ, List.range_succ_eq_map, List.range_succ_eq_map]
      simp
    rw [get, hfirst, low_join, high_join, put, ih, hrange]
    simp

end RegisterBytes
