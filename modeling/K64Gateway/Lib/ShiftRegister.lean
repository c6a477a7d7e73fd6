import Mathlib

/-
  Check sums that take a message byte by byte, and the shift register that the bits of a cyclic
  one go through, to the right or to the left.

  Proved: where a step is injective in the state and in the byte, a message with one byte changed
  ends in another state (`foldl_set_ne`); the register is additive under exclusive or
  (`shiftBits_xor`), so it loses nothing as soon as only zero goes to zero (`injective_of_xor`).
  To the left, a table of what the register makes of each word at its top takes a whole word in one
  step, for any width, polynomial and message (`crcBits_eq_table`).
-/

namespace ShiftRegister

/-! ## One changed byte -/

section Fold

variable {σ α : Type*} {step : σ → α → σ}

theorem foldl_injective (hstate : ∀ a, Function.Injective fun s => step s a) (l : List α) :
    Function.Injective fun s => l.foldl step s := by
  induction l with
  | nil => exact fun s t h => h
  | cons a l ih => exact ih.comp (hstate a)

theorem foldl_set_ne (hstate : ∀ a, Function.Injective fun s => step s a)
    (hbyte : ∀ s, Function.Injective (step s)) {l : List α} {i : Nat} {b : α}
    (hi : i < l.length) (hb : l[i] ≠ b) (s : σ) :
    l.foldl step s ≠ (l.set i b).foldl step s := by
  induction l generalizing i s with
  | nil => exact absurd hi (Nat.not_lt_zero _)
  | cons a l ih =>
    cases i with
    | zero =>
      -- the states differ behind the byte, and what follows keeps them apart
      intro h
      exact hb (hbyte s (foldl_injective hstate l h))
    | succ i => exact ih (Nat.lt_of_succ_lt_succ hi) hb (step s a)

end Fold

/-! ## The register -/

section Register

variable {w : Nat} (poly : BitVec w)

/-- One bit: a shift to the right, and the polynomial for a one that is moved out. -/
def shiftBit (c : BitVec w) : BitVec w :=
  if c.getLsbD 0 then (c >>> 1) ^^^ poly else c >>> 1

def shiftBits (n : Nat) (c : BitVec w) : BitVec w := (shiftBit poly)^[n] c

/-- The polynomial is added once for each of two terms, and cancels where it is added twice. -/
theorem ite_xor (p q : Bool) (x y : BitVec w) :
    (if p ^^ q then x ^^^ y ^^^ poly else x ^^^ y) =
      (if p then x ^^^ poly else x) ^^^ (if q then y ^^^ poly else y) := by
  have hright : x ^^^ poly ^^^ y = x ^^^ y ^^^ poly := by
    rw [BitVec.xor_assoc, BitVec.xor_assoc, BitVec.xor_comm poly]
  cases p with
  | false =>
    cases q with
    | false => rfl
    | true => simp [BitVec.xor_assoc]
  | true =>
    cases q with
    | false => simpa using hright.symm
    | true =>
      have hcancel : x ^^^ poly ^^^ (y ^^^ poly) = x ^^^ y := by
        rw [← BitVec.xor_assoc, hright, BitVec.xor_assoc, BitVec.xor_self, BitVec.xor_zero]
      simpa using hcancel.symm

theorem iterate_xor {f : BitVec w → BitVec w} (hf : ∀ a b, f (a ^^^ b) = f a ^^^ f b) (n : Nat)
    (a b : BitVec w) : f^[n] (a ^^^ b) = f^[n] a ^^^ f^[n] b := by
  induction n generalizing a b with
  | zero => rfl
  | succ n ih =>
    rw [Function.iterate_succ_apply, Function.iterate_succ_apply, Function.iterate_succ_apply,
      hf, ih]

theorem shiftBit_xor (a b : BitVec w) :
    shiftBit poly (a ^^^ b) = shiftBit poly a ^^^ shiftBit poly b := by
  unfold shiftBit
  rw [BitVec.getLsbD_xor, BitVec.ushiftRight_xor_distrib]
  exact ite_xor poly _ _ _ _

theorem shiftBits_xor (n : Nat) (a b : BitVec w) :
    shiftBits poly n (a ^^^ b) = shiftBits poly n a ^^^ shiftBits poly n b :=
  iterate_xor (shiftBit_xor poly) n a b

end Register

/-! ## Most significant bit first -/

section MsbFirst

variable {n w : Nat} (poly : BitVec w)

/-- One bit of a message: a shift to the left, and the polynomial where the bit that is moved out
    is not that of the message. -/
def feedBit (c : BitVec w) (b : Bool) : BitVec w :=
  if c.msb ^^ b then (c <<< 1) ^^^ poly else c <<< 1

/-- The cyclic check of a message, bit by bit. -/
def crcBits (init : BitVec w) (message : List Bool) : BitVec w := message.foldl (feedBit poly) init

/-- The bits of a word, the most significant one first. -/
def msbFirst (v : BitVec n) : List Bool := (List.range n).map v.getMsbD

/-- One bit of the register alone. -/
def leftBit (c : BitVec w) : BitVec w := if c.msb then (c <<< 1) ^^^ poly else c <<< 1

def leftBits (k : Nat) (c : BitVec w) : BitVec w := (leftBit poly)^[k] c

/-- A word at the top of the register. -/
def atTop (v : BitVec n) : BitVec w := v.setWidth w <<< (w - n)

/-- The word at the top of the register. -/
def topOf (n : Nat) (c : BitVec w) : BitVec n := (c >>> (w - n)).setWidth n

/-- The entry of the table for a word: what the register makes of it at its top. -/
def tableEntry (v : BitVec n) : BitVec w := leftBits poly n (atTop v)

/-- One word of a message, with a table. -/
def tableStep (table : BitVec n → BitVec w) (c : BitVec w) (v : BitVec n) : BitVec w :=
  (c <<< n) ^^^ table (topOf n c ^^^ v)

theorem leftBit_xor (a b : BitVec w) :
    leftBit poly (a ^^^ b) = leftBit poly a ^^^ leftBit poly b := by
  unfold leftBit
  rw [BitVec.msb_xor, BitVec.shiftLeft_xor_distrib]
  exact ite_xor poly _ _ _ _

theorem leftBits_xor (k : Nat) (a b : BitVec w) :
    leftBits poly k (a ^^^ b) = leftBits poly k a ^^^ leftBits poly k b :=
  iterate_xor (leftBit_xor poly) k a b

/-- Instead of being fed one by one, the bits can lie in the register. -/
theorem feedBit_msb (c y : BitVec w) :
    feedBit poly c y.msb ^^^ (y <<< 1) = leftBit poly (c ^^^ y) := by
  unfold feedBit leftBit
  rw [BitVec.msb_xor, BitVec.shiftLeft_xor_distrib]
  split_ifs
  · rw [BitVec.xor_assoc, BitVec.xor_assoc, BitVec.xor_comm poly]
  · rfl

/-- After `k` bits of `y`, the rest of `y` is still to be fed. -/
theorem foldl_feedBit (c y : BitVec w) (k : Nat) :
    ((List.range k).map y.getMsbD).foldl (feedBit poly) c ^^^ (y <<< k) =
      leftBits poly k (c ^^^ y) := by
  induction k with
  | zero => simp [leftBits]
  | succ k ih =>
    rw [List.range_succ, List.map_append, List.foldl_append, List.map_singleton, List.foldl_cons,
      List.foldl_nil, ← BitVec.msb_shiftLeft, BitVec.shiftLeft_add, feedBit_msb, ih, leftBits,
      leftBits, Function.iterate_succ_apply']

theorem getMsbD_atTop (hn : n ≤ w) (v : BitVec n) (i : Nat) :
    (atTop v : BitVec w).getMsbD i = v.getMsbD i := by
  have hindex : i + (w - n) + n - w = i := by omega
  rw [atTop, BitVec.getMsbD_shiftLeft, BitVec.getMsbD_setWidth, hindex,
    decide_eq_true (Nat.le_add_left _ _), Bool.true_and]

theorem atTop_shiftLeft (hn : n ≤ w) (v : BitVec n) : (atTop v : BitVec w) <<< n = 0#w := by
  apply BitVec.eq_of_getMsbD_eq
  intro i _
  rw [BitVec.getMsbD_shiftLeft, getMsbD_atTop hn, BitVec.getMsbD_of_ge v _ (Nat.le_add_left n i),
    BitVec.getMsbD_zero]

theorem atTop_xor (u v : BitVec n) : (atTop (u ^^^ v) : BitVec w) = atTop u ^^^ atTop v := by
  rw [atTop, BitVec.setWidth_xor, BitVec.shiftLeft_xor_distrib]
  rfl

theorem getMsbD_topOf (hn : n ≤ w) (c : BitVec w) {i : Nat} (hi : i < n) :
    (topOf n c).getMsbD i = c.getMsbD i := by
  have hindex : i + w - n - (w - n) = i := by omega
  rw [topOf, BitVec.getMsbD_setWidth, BitVec.getMsbD_ushiftRight, hindex]
  have hin : n - w ≤ i ∧ i + w - n < w ∧ ¬ i + w - n < w - n := by omega
  simp [hin]

/-- A register is the word at its top, and the rest of it. -/
theorem top_xor_rest (hn : n ≤ w) (c : BitVec w) :
    atTop (topOf n c) ^^^ ((c <<< n) >>> n) = c := by
  apply BitVec.eq_of_getMsbD_eq
  intro i hi
  rw [BitVec.getMsbD_xor, getMsbD_atTop hn, BitVec.getMsbD_ushiftRight, BitVec.getMsbD_shiftLeft]
  by_cases hin : i < n
  · simp [getMsbD_topOf hn c hin, hin]
  · have hindex : i - n + n = i := by omega
    simp [BitVec.getMsbD_of_ge (topOf n c) i (Nat.le_of_not_lt hin), hin, hi, hindex]

/-- Where no one is moved out, the register is only shifted. -/
theorem leftBits_of_clear {c : BitVec w} {k : Nat} (hc : ∀ i < k, c.getMsbD i = false) :
    leftBits poly k c = c <<< k := by
  induction k with
  | zero => simp [leftBits]
  | succ k ih =>
    have hk : (leftBits poly k c) = c <<< k := ih fun i hi => hc i (Nat.lt_succ_of_lt hi)
    have hmsb : (c <<< k).msb = false := by
      rw [BitVec.msb_shiftLeft]
      exact hc k (Nat.lt_succ_self k)
    unfold leftBits at hk ⊢
    rw [Function.iterate_succ_apply', hk, leftBit, hmsb, BitVec.shiftLeft_add]
    rfl

theorem rest_shiftLeft (c : BitVec w) : ((c <<< n) >>> n) <<< n = c <<< n := by
  apply BitVec.eq_of_getMsbD_eq
  intro i _
  rw [BitVec.getMsbD_shiftLeft, BitVec.getMsbD_ushiftRight, BitVec.getMsbD_shiftLeft,
    BitVec.getMsbD_shiftLeft]
  by_cases hin : i + n < w
  · simp [hin]
  · rw [BitVec.getMsbD_of_ge c _ (Nat.le_of_not_lt hin), decide_eq_false hin, Bool.false_and]

theorem leftBits_rest (c : BitVec w) : leftBits poly n ((c <<< n) >>> n) = c <<< n := by
  have hclear : ∀ i < n, ((c <<< n) >>> n).getMsbD i = false := fun i hi => by
    simp [BitVec.getMsbD_ushiftRight, hi]
  rw [leftBits_of_clear poly hclear, rest_shiftLeft]

/-- The bits of a word, one by one, and its entry of the table. -/
theorem foldl_msbFirst (hn : n ≤ w) (c : BitVec w) (v : BitVec n) :
    (msbFirst v).foldl (feedBit poly) c = tableStep (tableEntry poly) c v := by
  have hbits : msbFirst v = (List.range n).map (atTop v : BitVec w).getMsbD :=
    List.map_congr_left fun i _ => (getMsbD_atTop hn v i).symm
  have hfeed := foldl_feedBit poly c (atTop v) n
  rw [atTop_shiftLeft hn, BitVec.xor_zero] at hfeed
  have hsplit : c ^^^ atTop v = ((c <<< n) >>> n) ^^^ atTop (topOf n c ^^^ v) := by
    rw [atTop_xor, ← BitVec.xor_assoc, BitVec.xor_comm _ (atTop (topOf n c)), top_xor_rest hn]
  rw [hbits, hfeed, hsplit, leftBits_xor, leftBits_rest]
  rfl

/-- A message of words, bit by bit and with the table. -/
theorem crcBits_eq_table (hn : n ≤ w) (init : BitVec w) (message : List (BitVec n)) :
    crcBits poly init (message.flatMap msbFirst) =
      message.foldl (tableStep (tableEntry poly)) init := by
  rw [crcBits, List.foldl_flatMap]
  exact congrArg (fun f => message.foldl f init)
    (funext fun c => funext fun v => foldl_msbFirst poly hn c v)

end MsbFirst

/-- An additive map is injective as soon as only zero goes to zero. -/
theorem injective_of_xor {v w : Nat} {f : BitVec v → BitVec w}
    (hxor : ∀ a b, f (a ^^^ b) = f a ^^^ f b) (hzero : ∀ a, f a = 0#w → a = 0#v) :
    Function.Injective f := by
  intro a b h
  refine BitVec.xor_eq_zero_iff.mp (hzero _ ?_)
  rw [hxor, h, BitVec.xor_self]

end ShiftRegister
