import Mathlib

/-
  Programs that read memory, with the addresses they read: what a program reads is put together from
  what its parts read, and so is whether it stays inside a buffer.
-/

/-- A value that is read from memory, and the addresses that are read for it. -/
def Reading (β α : Type) : Type := (Nat → β) → α × List Nat

namespace Reading

variable {β α γ : Type}

/-- The value in the memory `mem`. -/
def val (x : Reading β α) (mem : Nat → β) : α := (x mem).1

/-- The addresses that are read. -/
def reads (x : Reading β α) (mem : Nat → β) : List Nat := (x mem).2

instance : Monad (Reading β) where
  pure a := fun _ => (a, [])
  bind x f := fun mem => (val (f (val x mem)) mem, reads x mem ++ reads (f (val x mem)) mem)

/-- One cell. -/
def cell (i : Nat) : Reading β β := fun mem => (mem i, [i])

/-- The `n` cells from `i` on. -/
def cells (i n : Nat) : Reading β (List β) := fun mem =>
  ((List.range' i n).map mem, List.range' i n)

/-- A pointer into memory: taking it reads nothing. -/
def view (f : (Nat → β) → α) : Reading β α := fun mem => (f mem, [])

@[simp] theorem val_pure (a : α) (mem : Nat → β) : val (pure a : Reading β α) mem = a := rfl

@[simp] theorem reads_pure (a : α) (mem : Nat → β) : reads (pure a : Reading β α) mem = [] := rfl

@[simp] theorem val_bind (x : Reading β α) (f : α → Reading β γ) (mem : Nat → β) :
    val (x >>= f) mem = val (f (val x mem)) mem := rfl

@[simp] theorem reads_bind (x : Reading β α) (f : α → Reading β γ) (mem : Nat → β) :
    reads (x >>= f) mem = reads x mem ++ reads (f (val x mem)) mem := rfl

@[simp] theorem val_cell (i : Nat) (mem : Nat → β) : val (cell i) mem = mem i := rfl

@[simp] theorem val_cells (i n : Nat) (mem : Nat → β) :
    val (cells i n) mem = (List.range' i n).map mem := rfl

@[simp] theorem val_view (f : (Nat → β) → α) (mem : Nat → β) : val (view f) mem = f mem := rfl

theorem val_ite (p : Prop) [Decidable p] (x y : Reading β α) (mem : Nat → β) :
    val (if p then x else y) mem = if p then val x mem else val y mem :=
  apply_ite (val · mem) p x y

/-- Only cells below `len` are read. -/
def Below (len : Nat) (mem : Nat → β) (x : Reading β α) : Prop := ∀ i ∈ x.reads mem, i < len

variable {len : Nat} {mem : Nat → β}

@[simp] theorem below_pure (a : α) : Below len mem (pure a : Reading β α) :=
  fun _ h => absurd h List.not_mem_nil

@[simp] theorem below_view (f : (Nat → β) → α) : Below len mem (view f) :=
  fun _ h => absurd h List.not_mem_nil

@[simp] theorem below_bind {x : Reading β α} {f : α → Reading β γ} :
    Below len mem (x >>= f) ↔ Below len mem x ∧ Below len mem (f (x.val mem)) := by
  unfold Below
  rw [reads_bind]
  exact List.forall_mem_append

@[simp] theorem below_ite {p : Prop} [Decidable p] {x y : Reading β α} :
    Below len mem (if p then x else y) ↔ (p → Below len mem x) ∧ (¬ p → Below len mem y) := by
  by_cases h : p
  · rw [if_pos h]
    simp [h]
  · rw [if_neg h]
    simp [h]

@[simp] theorem below_cell {i : Nat} : Below len mem (cell i) ↔ i < len :=
  List.forall_mem_singleton

@[simp] theorem below_cells {i n : Nat} : Below len mem (cells i n) ↔ n = 0 ∨ i + n ≤ len := by
  constructor
  · intro h
    rcases Nat.eq_zero_or_pos n with hn | hn
    · exact .inl hn
    · have hlast := h (i + (n - 1)) (List.mem_range'_1.mpr ⟨by omega, by omega⟩)
      exact .inr (by omega)
  · rintro h j hj
    have hj' := List.mem_range'_1.mp hj
    omega

/-- Only cells from `lo` on and below `hi` are read. -/
def Within (lo hi : Nat) (mem : Nat → β) (x : Reading β α) : Prop :=
  ∀ i ∈ x.reads mem, lo ≤ i ∧ i < hi

variable {lo hi : Nat}

theorem within_mono {x : Reading β α} {lo' hi' : Nat} (h : Within lo hi mem x) (hlo : lo' ≤ lo)
    (hhi : hi ≤ hi') : Within lo' hi' mem x := by
  intro i hi
  have := h i hi
  omega

@[simp] theorem within_pure (a : α) : Within lo hi mem (pure a : Reading β α) :=
  fun _ h => absurd h List.not_mem_nil

@[simp] theorem within_bind {x : Reading β α} {f : α → Reading β γ} :
    Within lo hi mem (x >>= f) ↔ Within lo hi mem x ∧ Within lo hi mem (f (x.val mem)) := by
  unfold Within
  rw [reads_bind]
  exact List.forall_mem_append

@[simp] theorem within_ite {p : Prop} [Decidable p] {x y : Reading β α} :
    Within lo hi mem (if p then x else y) ↔
      (p → Within lo hi mem x) ∧ (¬ p → Within lo hi mem y) := by
  by_cases h : p
  · rw [if_pos h]
    simp [h]
  · rw [if_neg h]
    simp [h]

@[simp] theorem within_cell {i : Nat} : Within lo hi mem (cell i) ↔ lo ≤ i ∧ i < hi :=
  List.forall_mem_singleton

@[simp] theorem within_cells {i n : Nat} :
    Within lo hi mem (cells i n) ↔ n = 0 ∨ lo ≤ i ∧ i + n ≤ hi := by
  constructor
  · intro h
    rcases Nat.eq_zero_or_pos n with hn | hn
    · exact .inl hn
    · have hfirst := h i (List.mem_range'_1.mpr ⟨by omega, by omega⟩)
      have hlast := h (i + (n - 1)) (List.mem_range'_1.mpr ⟨by omega, by omega⟩)
      exact .inr (by omega)
  · rintro h j hj
    have hj' := List.mem_range'_1.mp hj
    omega

end Reading
