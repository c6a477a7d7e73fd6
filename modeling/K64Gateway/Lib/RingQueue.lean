import Mathlib

/-
  A queue in an array of `n` places of which one stays free: where it begins, and where the next
  element goes. An element that is pushed when the queue is full takes the place of the oldest.

  Proved: after every push the queue holds the last `n - 1` elements (`Holds.of_push`).
-/

namespace RingQueue

variable {α : Type*} {n : Nat}

structure Queue (α : Type*) where
  front : Nat
  rear : Nat
  data : Nat → α

/-- The elements of the queue, the oldest first. -/
structure Holds (n : Nat) (q : Queue α) (l : List α) : Prop where
  front_lt : q.front < n
  length_lt : l.length < n
  rear_eq : q.rear = (q.front + l.length) % n
  data_eq : ∀ i (h : i < l.length), q.data ((q.front + i) % n) = l[i]

/-- The next element would go to the beginning. -/
def Full (n : Nat) (q : Queue α) : Prop := (q.rear + 1) % n = q.front

instance decidableFull (n : Nat) (q : Queue α) : Decidable (Full n q) :=
  inferInstanceAs (Decidable (_ = _))

def length (n : Nat) (q : Queue α) : Nat := (q.rear + n - q.front) % n

def remove (n : Nat) (q : Queue α) : Queue α := { q with front := (q.front + 1) % n }

def write (n : Nat) (q : Queue α) (e : α) : Queue α :=
  { q with data := Function.update q.data q.rear e, rear := (q.rear + 1) % n }

def push (n : Nat) (q : Queue α) (e : α) : Queue α :=
  if Full n q then write n (remove n q) e else write n q e

/-! ## Places -/

/-- A step around the array, without a division. -/
theorem add_mod_cases {a i : Nat} (ha : a < n) (hi : i ≤ n) :
    a + i < n ∧ (a + i) % n = a + i ∨ n ≤ a + i ∧ (a + i) % n = a + i - n := by
  by_cases h : a + i < n
  · exact Or.inl ⟨h, Nat.mod_eq_of_lt h⟩
  · rw [Nat.mod_eq_sub_mod (by omega), Nat.mod_eq_of_lt (by omega)]
    exact Or.inr ⟨by omega, rfl⟩

theorem place_inj {a i j : Nat} (ha : a < n) (hi : i < n) (hj : j < n)
    (h : (a + i) % n = (a + j) % n) : i = j := by
  obtain hi' | hi' := add_mod_cases ha (Nat.le_of_lt hi) <;>
    obtain hj' | hj' := add_mod_cases ha (Nat.le_of_lt hj) <;> omega

section
variable {q : Queue α} {l : List α}

theorem Holds.length_eq (h : Holds n q l) : length n q = l.length := by
  have hfront := h.front_lt
  have hlength := h.length_lt
  have hrear := h.rear_eq
  unfold length
  obtain hcase | hcase := add_mod_cases hfront (Nat.le_of_lt hlength)
  · rw [hrear, hcase.2, show q.front + l.length + n - q.front = l.length + n by omega,
      Nat.add_mod_right, Nat.mod_eq_of_lt hlength]
  · rw [hrear, hcase.2, show q.front + l.length - n + n - q.front = l.length by omega,
      Nat.mod_eq_of_lt hlength]

theorem Holds.full_iff (h : Holds n q l) : Full n q ↔ l.length + 1 = n := by
  have hlength := h.length_lt
  have hpos : (q.rear + 1) % n = (q.front + (l.length + 1)) % n := by
    rw [h.rear_eq, Nat.mod_add_mod, Nat.add_assoc]
  unfold Full
  rw [hpos]
  obtain hcase | hcase := add_mod_cases h.front_lt hlength
  · rw [hcase.2]
    omega
  · rw [hcase.2]
    omega

/-! ## Operations -/

theorem Holds.of_remove {x : α} (h : Holds n q (x :: l)) : Holds n (remove n q) l := by
  have hlength := h.length_lt
  rw [List.length_cons] at hlength
  have hmod : ∀ i, ((q.front + 1) % n + i) % n = (q.front + (i + 1)) % n := by
    intro i
    rw [Nat.mod_add_mod, Nat.add_assoc, Nat.add_comm 1 i]
  refine ⟨Nat.mod_lt _ (by omega), by omega, ?_, fun i hi => ?_⟩
  · show q.rear = ((q.front + 1) % n + l.length) % n
    rw [hmod, h.rear_eq, List.length_cons]
  · show q.data (((q.front + 1) % n + i) % n) = _
    rw [hmod, h.data_eq (i + 1) (Nat.succ_lt_succ hi), List.getElem_cons_succ]

theorem Holds.of_write (h : Holds n q l) (hroom : l.length + 1 < n) (e : α) :
    Holds n (write n q e) (l ++ [e]) := by
  refine ⟨h.front_lt, by simpa using hroom, ?_, fun i hi => ?_⟩
  · show (q.rear + 1) % n = _
    rw [h.rear_eq, Nat.mod_add_mod, List.length_append, List.length_singleton, Nat.add_assoc]
    rfl
  · show Function.update q.data q.rear e ((q.front + i) % n) = _
    rw [List.length_append, List.length_singleton] at hi
    by_cases hlast : i = l.length
    · subst hlast
      rw [← h.rear_eq, Function.update_self]
      simp
    · have hlt : i < l.length := by omega
      have hne : (q.front + i) % n ≠ q.rear := by
        rw [h.rear_eq]
        exact fun heq => hlast (place_inj h.front_lt (by omega) h.length_lt heq)
      rw [Function.update_of_ne hne, h.data_eq i hlt, List.getElem_append_left hlt]

/-- The oldest element makes room if there is none. -/
theorem Holds.of_push (hn : 1 < n) (h : Holds n q l) (e : α) :
    Holds n (push n q e) ((l ++ [e]).drop (l.length + 1 - (n - 1))) := by
  have hlength := h.length_lt
  unfold push
  split
  · next hfull =>
    have hlen := h.full_iff.mp hfull
    cases l with
    | nil => exact absurd hlen (by simpa using Nat.ne_of_lt hn)
    | cons x l =>
      rw [List.length_cons] at hlen ⊢
      have hone : l.length + 1 + 1 - (n - 1) = 1 := by omega
      rw [hone, List.cons_append, List.drop_succ_cons, List.drop_zero]
      exact h.of_remove.of_write (by omega) e
  · next hroom =>
    have hlen := mt h.full_iff.mpr hroom
    have hnone : l.length + 1 - (n - 1) = 0 := by omega
    rw [hnone, List.drop_zero]
    exact h.of_write (by omega) e

/-- Pushing onto the last elements of a list gives the last elements of the longer list. -/
theorem Holds.of_push_last (hn : 1 < n) {all : List α}
    (h : Holds n q (all.drop (all.length - (n - 1)))) (e : α) :
    Holds n (push n q e) ((all ++ [e]).drop ((all ++ [e]).length - (n - 1))) := by
  have hpush := h.of_push hn e
  rw [← List.drop_append_of_le_length (Nat.sub_le _ _), List.drop_drop, List.length_drop] at hpush
  have hcount : all.length - (n - 1) + (all.length - (all.length - (n - 1)) + 1 - (n - 1)) =
      (all ++ [e]).length - (n - 1) := by
    rw [List.length_append, List.length_singleton]
    omega
  rw [← hcount]
  exact hpush

end

end RingQueue
