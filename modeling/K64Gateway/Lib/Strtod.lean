import Mathlib
import K64Gateway.Lib.CString

/-
  The number that a text begins with, as `strtod`, `atof` and `sscanf` with `%lf` read it, as a
  rational number. Texts with a letter behind a leading zero or in front (hexadecimal numbers,
  infinities) are taken for decimal ones.

  Proved: what is read of a number with or without a fraction, whatever stands behind it
  (`unsigned_whole`, `unsigned_fraction`).
-/

namespace Strtod

open CString

def isDigit (c : UInt8) : Bool := 48 ≤ c && c ≤ 57

/-- The number that digits make. -/
def ofDigits (ds : List UInt8) : Nat := ds.foldl (fun n c => 10 * n + (c.toNat - 48)) 0

/-- The digits at the start of a text. -/
def leading (s : List UInt8) : List UInt8 := s.takeWhile isDigit

/-- The digits behind a point. -/
def fraction (s : List UInt8) : List UInt8 := if s.head? = some 46 then leading s.tail else []

/-- What is left behind point and digits. -/
def afterFraction (s : List UInt8) : List UInt8 :=
  if s.head? = some 46 then s.tail.dropWhile isDigit else s

/-- The number behind `e` or `E`. -/
def exponent (s : List UInt8) : Int :=
  if s.head? = some 101 ∨ s.head? = some 69 then
    if s.tail.head? = some 45 then -(ofDigits (leading s.tail.tail) : Int)
    else if s.tail.head? = some 43 then ofDigits (leading s.tail.tail)
    else ofDigits (leading s.tail)
  else 0

/-- A number without a sign; without digits it is 0. -/
def unsigned (s : List UInt8) : ℚ :=
  let whole := leading s
  let rest := s.dropWhile isDigit
  if whole ++ fraction rest = [] then 0
  else
    (ofDigits (whole ++ fraction rest) : ℚ) / 10 ^ (fraction rest).length *
      10 ^ exponent (afterFraction rest)

def strtod (s : List UInt8) : ℚ :=
  let s := s.dropWhile isSpace
  if s.head? = some 45 then -unsigned s.tail
  else if s.head? = some 43 then unsigned s.tail
  else unsigned s

/-! ## Digits -/

@[simp] theorem ofDigits_nil : ofDigits [] = 0 := rfl

theorem ofDigits_append (ds es : List UInt8) :
    ofDigits (ds ++ es) = ofDigits ds * 10 ^ es.length + ofDigits es := by
  induction es using List.reverseRecOn with
  | nil => simp
  | append_singleton es c ih =>
    have hsnoc : ∀ xs : List UInt8, ofDigits (xs ++ [c]) = 10 * ofDigits xs + (c.toNat - 48) :=
      fun xs => List.foldl_append
    rw [← List.append_assoc, hsnoc, ih, hsnoc, List.length_append, List.length_singleton, pow_succ]
    ring

theorem ofDigits_singleton (c : UInt8) : ofDigits [c] = c.toNat - 48 := by
  show 10 * 0 + (c.toNat - 48) = c.toNat - 48
  omega

theorem isDigit_not_space {c : UInt8} (h : isDigit c = true) : isSpace c = false := by
  unfold isDigit at h
  unfold isSpace
  grind

theorem isDigit_not_sign {c : UInt8} (h : isDigit c = true) : c ≠ 45 ∧ c ≠ 43 ∧ c ≠ 46 := by
  unfold isDigit at h
  grind

/-! ## Numbers without a sign -/

theorem unsigned_nonneg (s : List UInt8) : 0 ≤ unsigned s := by
  unfold unsigned
  dsimp only
  split
  · exact le_refl 0
  · positivity

/-- A text that begins with a digit has no sign. -/
theorem strtod_of_digit {c : UInt8} (h : isDigit c = true) (s : List UInt8) :
    strtod (c :: s) = unsigned (c :: s) := by
  obtain ⟨hminus, hplus, -⟩ := isDigit_not_sign h
  unfold strtod
  rw [List.dropWhile_cons_of_neg (by rw [isDigit_not_space h]; simp)]
  simp [hminus, hplus]

/-- Nothing of the number goes on in `rest`. -/
def Stops (rest : List UInt8) : Prop :=
  ∀ c, rest.head? = some c → isDigit c = false ∧ c ≠ 101 ∧ c ≠ 69

theorem stops_nil : Stops [] := nofun

theorem leading_append {ds rest : List UInt8} (hds : ∀ c ∈ ds, isDigit c = true)
    (hrest : ∀ c, rest.head? = some c → isDigit c = false) :
    leading (ds ++ rest) = ds ∧ (ds ++ rest).dropWhile isDigit = rest := by
  unfold leading
  rw [List.takeWhile_append_of_pos hds, List.dropWhile_append_of_pos hds]
  cases rest with
  | nil => simp
  | cons c rest =>
    have hc := hrest c rfl
    rw [List.takeWhile_cons_of_neg (by simp [hc]), List.dropWhile_cons_of_neg (by simp [hc]),
      List.append_nil]
    exact ⟨rfl, rfl⟩

theorem Stops.exponent {rest : List UInt8} (h : Stops rest) : exponent rest = 0 := by
  unfold Strtod.exponent
  rw [if_neg]
  rintro (he | hE)
  · exact (h _ he).2.1 rfl
  · exact (h _ hE).2.2 rfl

/-- Digits, and no point behind them. -/
theorem unsigned_whole {ds rest : List UInt8} (hds : ∀ c ∈ ds, isDigit c = true)
    (hrest : Stops rest) (hpoint : rest.head? ≠ some 46) :
    unsigned (ds ++ rest) = ofDigits ds := by
  obtain ⟨hlead, hdrop⟩ := leading_append hds fun c hc => (hrest c hc).1
  unfold unsigned fraction afterFraction
  dsimp only
  rw [hlead, hdrop, if_neg hpoint, if_neg hpoint, List.append_nil, hrest.exponent]
  split
  · next hnil =>
    rw [hnil]
    rfl
  · simp

/-- Digits, a point and digits. -/
theorem unsigned_fraction {ds es rest : List UInt8} (hds : ∀ c ∈ ds, isDigit c = true)
    (hes : ∀ c ∈ es, isDigit c = true) (hrest : Stops rest) :
    unsigned (ds ++ 46 :: (es ++ rest)) = (ofDigits (ds ++ es) : ℚ) / 10 ^ es.length := by
  have hpoint : ∀ c, (46 :: (es ++ rest)).head? = some c → isDigit c = false := by
    intro c hc
    rw [List.head?_cons, Option.some.injEq] at hc
    rw [← hc]
    rfl
  obtain ⟨hlead, hdrop⟩ := leading_append hds hpoint
  obtain ⟨hlead', hdrop'⟩ := leading_append hes fun c hc => (hrest c hc).1
  unfold unsigned fraction afterFraction
  dsimp only
  rw [hlead, hdrop, List.head?_cons, if_pos rfl, if_pos rfl, List.tail_cons, hlead', hdrop',
    hrest.exponent]
  split
  · next hnil =>
    obtain ⟨rfl, rfl⟩ := List.append_eq_nil_iff.mp hnil
    simp
  · simp

end Strtod
