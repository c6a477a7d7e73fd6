import Mathlib

/-
  Logs whose entries are numbered one after the other, with the oldest ones dropped.

  Proved: dropping everything below a number leaves the end of the log (`dropBelow_entries`), so
  many entries (`length_dropBelow`), the last one among them exactly up to its own number
  (`last_mem_dropBelow`).
-/

/-- Entries with their numbers; `last` is the number that was given last. -/
structure NumberedLog (α : Type) where
  entries : List (α × Nat)
  last : Nat
  length_le : entries.length ≤ last
  numbered : entries.map Prod.snd = List.range' (last + 1 - entries.length) entries.length

namespace NumberedLog

variable {α : Type}

/-- The number of the first entry, or the next one to be given. -/
def first (l : NumberedLog α) : Nat := l.last + 1 - l.entries.length

def empty (last : Nat) : NumberedLog α := ⟨[], last, Nat.zero_le _, rfl⟩

/-- One more entry, with the next number. -/
def push (l : NumberedLog α) (a : α) : NumberedLog α where
  entries := l.entries ++ [(a, l.last + 1)]
  last := l.last + 1
  length_le := by simpa using l.length_le
  numbered := by
    have hnext : l.last + 1 - l.entries.length + l.entries.length = l.last + 1 :=
      Nat.sub_add_cancel (Nat.le_succ_of_le l.length_le)
    simp [List.range'_1_concat, l.numbered, hnext]

@[simp] theorem push_entries (l : NumberedLog α) (a : α) :
    (l.push a).entries = l.entries ++ [(a, l.last + 1)] := rfl

@[simp] theorem push_last (l : NumberedLog α) (a : α) : (l.push a).last = l.last + 1 := rfl

@[simp] theorem push_first (l : NumberedLog α) (a : α) : (l.push a).first = l.first := by
  simp [first]

theorem first_pos (l : NumberedLog α) : 0 < l.first := by
  have := l.length_le
  unfold first
  omega

theorem first_add_length (l : NumberedLog α) : l.first + l.entries.length = l.last + 1 :=
  Nat.sub_add_cancel (Nat.le_succ_of_le l.length_le)

/-- The smallest number is that of the first entry. -/
theorem min?_numbers (l : NumberedLog α) (h : l.entries ≠ []) :
    (l.entries.map Prod.snd).min? = some l.first := by
  have hpos := List.length_pos_iff.mpr h
  rw [l.numbered, List.min?_eq_some_iff]
  refine ⟨List.mem_range'_1.mpr ⟨Nat.le_refl _, ?_⟩, fun b hb => (List.mem_range'_1.mp hb).1⟩
  exact Nat.lt_add_of_pos_right hpos

/-! ## Dropping the oldest entries -/

/-- In a list numbered in order, the entries from a number on are the end of the list. -/
theorem filter_eq_drop (entries : List (α × Nat)) (n : Nat) (bound : Int)
    (h : entries.map Prod.snd = List.range' n entries.length) :
    entries.filter (fun e => decide (bound ≤ e.2)) = entries.drop (bound - n).toNat := by
  induction entries generalizing n with
  | nil => simp
  | cons e es ih =>
    rw [List.map_cons, List.length_cons, List.range'_succ] at h
    obtain ⟨he, hes⟩ := List.cons.inj h
    have htail := ih (n + 1) hes
    by_cases hb : bound ≤ n
    · have hzero : (bound - (n + 1 : Nat)).toNat = 0 := by omega
      have hzero' : (bound - n).toNat = 0 := by omega
      rw [hzero, List.drop_zero] at htail
      rw [List.filter_cons_of_pos (by simpa [he] using hb), htail, hzero', List.drop_zero]
    · have hsucc : (bound - n).toNat = (bound - (n + 1 : Nat)).toNat + 1 := by omega
      rw [List.filter_cons_of_neg (by simpa [he] using hb), htail, hsucc, List.drop_succ_cons]

/-- How many entries are below a number. -/
def below (l : NumberedLog α) (bound : Int) : Nat := (bound - l.first).toNat

theorem filter_entries (l : NumberedLog α) (bound : Int) :
    l.entries.filter (fun e => decide (bound ≤ e.2)) = l.entries.drop (l.below bound) :=
  filter_eq_drop l.entries l.first bound l.numbered

/-- Without the entries below a number. -/
def dropBelow (l : NumberedLog α) (bound : Int) : NumberedLog α where
  entries := l.entries.filter fun e => decide (bound ≤ e.2)
  last := l.last
  length_le := Nat.le_trans (List.length_filter_le _ _) l.length_le
  numbered := by
    have hlen := l.length_le
    rw [l.filter_entries, List.map_drop, l.numbered, List.drop_range', List.length_drop]
    rcases Nat.lt_or_ge (l.below bound) l.entries.length with h | h
    · congr 1
      omega
    · rw [Nat.sub_eq_zero_of_le h]
      rfl

@[simp] theorem dropBelow_last (l : NumberedLog α) (bound : Int) :
    (l.dropBelow bound).last = l.last := rfl

theorem dropBelow_entries (l : NumberedLog α) (bound : Int) :
    (l.dropBelow bound).entries = l.entries.drop (l.below bound) := l.filter_entries bound

theorem dropBelow_suffix (l : NumberedLog α) (bound : Int) :
    (l.dropBelow bound).entries <:+ l.entries := by
  rw [l.dropBelow_entries]
  exact List.drop_suffix _ _

/-- Nothing is below a number that is not positive. -/
theorem dropBelow_nonpos (l : NumberedLog α) {bound : Int} (h : bound ≤ 0) :
    (l.dropBelow bound).entries = l.entries := by
  have hzero : l.below bound = 0 := by
    unfold below
    omega
  rw [l.dropBelow_entries, hzero, List.drop_zero]

theorem length_dropBelow (l : NumberedLog α) {bound : Nat} (h : l.first ≤ bound) :
    (l.dropBelow bound).entries.length = l.last + 1 - bound := by
  have hlen := l.first_add_length
  rw [l.dropBelow_entries, List.length_drop]
  unfold below
  omega

/-- The last entry stays exactly as long as the number is not above its own. -/
theorem last_mem_dropBelow (l : NumberedLog α) (a : α) (bound : Int) :
    (a, l.last + 1) ∈ ((l.push a).dropBelow bound).entries ↔ bound ≤ (l.last + 1 : Nat) := by
  simp [dropBelow, List.mem_filter]

end NumberedLog
