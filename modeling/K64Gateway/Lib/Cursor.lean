import Mathlib

/-
  Writing into a buffer of a fixed size through a running index, as `buf[index++] = c` does. A
  write outside the buffer has no result.

  Proved: what is in the buffer after a run of writes that fits (`puts_eq`), and that a run that
  does not fit has no result (`puts_eq_none`).
-/

namespace Cursor

variable {α : Type}

/-- `buf[i] = c` -/
def poke (buf : List α) (i : Nat) (c : α) : Option (List α) :=
  if i < buf.length then some (buf.set i c) else none

/-- A buffer and the index of the next write. -/
structure Out (α : Type) where
  buf : List α
  index : Nat

/-- `buf[index++] = c` -/
def Out.put (o : Out α) (c : α) : Option (Out α) :=
  (poke o.buf o.index c).map fun buf => { buf := buf, index := o.index + 1 }

def Out.puts (o : Out α) : List α → Option (Out α)
  | [] => some o
  | c :: cs => do
      let o ← o.put c
      o.puts cs

/-! ## One write -/

@[simp] theorem poke_zero (a : α) (buf : List α) (c : α) :
    poke (a :: buf) 0 c = some (c :: buf) := by
  simp [poke]

@[simp] theorem poke_succ (a : α) (buf : List α) (i : Nat) (c : α) :
    poke (a :: buf) (i + 1) c = (poke buf i c).map (a :: ·) := by
  unfold poke
  rw [List.length_cons, List.set_cons_succ]
  split
  · rw [if_pos (by omega)]
    rfl
  · rw [if_neg (by omega)]
    rfl

/-- A write behind the front `front` leaves it as it is. -/
theorem poke_append (front buf : List α) (i : Nat) (c : α) :
    poke (front ++ buf) (front.length + i) c = (poke buf i c).map (front ++ ·) := by
  induction front with
  | nil =>
    rw [List.nil_append, List.length_nil, Nat.zero_add]
    exact Option.map_id'.symm
  | cons a front ih =>
    rw [List.cons_append, List.length_cons, Nat.add_right_comm, poke_succ, ih, Option.map_map]
    rfl

/-! ## A run of writes -/

theorem Out.puts_singleton (o : Out α) (c : α) : o.puts [c] = o.put c := by
  show (o.put c).bind some = o.put c
  cases o.put c with
  | none => rfl
  | some o => rfl

theorem Out.puts_append (o : Out α) (cs ds : List α) :
    o.puts (cs ++ ds) = (o.puts cs).bind fun o => o.puts ds := by
  induction cs generalizing o with
  | nil => rfl
  | cons c cs ih =>
    simp only [List.cons_append, puts, Option.bind_eq_bind]
    cases o.put c with
    | none => rfl
    | some o => exact ih o

/-- A run of writes that fits: behind it the buffer is as it was. -/
theorem Out.puts_eq (front buf cs : List α) (h : cs.length ≤ buf.length) :
    (⟨front ++ buf, front.length⟩ : Out α).puts cs =
      some ⟨front ++ cs ++ buf.drop cs.length, front.length + cs.length⟩ := by
  induction cs generalizing front buf with
  | nil => simp [puts]
  | cons c cs ih =>
    cases buf with
    | nil => simp at h
    | cons b buf =>
      have hput : (⟨front ++ b :: buf, front.length⟩ : Out α).put c =
          some ⟨(front ++ [c]) ++ buf, (front ++ [c]).length⟩ := by
        have hpoke := poke_append front (b :: buf) 0 c
        rw [Nat.add_zero, poke_zero] at hpoke
        simp [put, hpoke]
      rw [puts, hput, Option.bind_eq_bind, Option.bind_some,
        ih (front ++ [c]) buf (by simpa using h)]
      simp only [List.append_assoc, List.singleton_append, List.length_append, List.length_cons,
        List.length_nil, List.drop_succ_cons, Nat.add_assoc, Nat.add_comm 1, Nat.zero_add]

theorem Out.puts_eq_none (o : Out α) (cs : List α) (h : o.buf.length < o.index + cs.length)
    (hcs : cs ≠ []) : o.puts cs = none := by
  induction cs generalizing o with
  | nil => exact absurd rfl hcs
  | cons c cs ih =>
    rw [List.length_cons] at h
    unfold puts put poke
    split
    · next hlt =>
      have hne : cs ≠ [] := by
        rintro rfl
        rw [List.length_nil] at h
        omega
      refine ih ⟨o.buf.set o.index c, o.index + 1⟩ ?_ hne
      show (o.buf.set o.index c).length < o.index + 1 + cs.length
      rw [List.length_set]
      omega
    · rfl

end Cursor
