import Mathlib

/-
  A memory of cells at integer positions that is written by a list of stores, one after the
  other. `block` are the stores of a loop over consecutive cells.
-/

namespace Stores

variable {β : Type}

/-- `mem` after the stores `ws`, the first one first. -/
def stores (mem : Int → β) (ws : List (Int × β)) : Int → β :=
  ws.foldl (fun mem w => Function.update mem w.1 w.2) mem

/-- `f 0` to `f (n - 1)` into the cells from `base` on. -/
def block (base : Int) (n : Nat) (f : Nat → β) : List (Int × β) :=
  (List.range n).map fun i : Nat => (base + (i : Int), f i)

theorem stores_append (mem : Int → β) (ws ws' : List (Int × β)) :
    stores mem (ws ++ ws') = stores (stores mem ws) ws' :=
  List.foldl_append

/-- A cell that is not stored keeps its content. -/
theorem stores_of_not_mem (mem : Int → β) {ws : List (Int × β)} {k : Int}
    (h : k ∉ ws.map Prod.fst) : stores mem ws k = mem k := by
  unfold stores
  induction ws generalizing mem with
  | nil => rfl
  | cons w ws ih =>
    rw [List.map_cons, List.mem_cons, not_or] at h
    rw [List.foldl_cons, ih _ h.2, Function.update_of_ne h.1]

/-- A cell that is stored has the value that all stores have. -/
theorem stores_of_mem (mem : Int → β) {ws : List (Int × β)} {c : β} (hc : ∀ w ∈ ws, w.2 = c)
    {k : Int} (h : k ∈ ws.map Prod.fst) : stores mem ws k = c := by
  induction ws using List.reverseRecOn with
  | nil => exact absurd h List.not_mem_nil
  | append_singleton ws w ih =>
    rw [stores_append]
    show Function.update (stores mem ws) w.1 w.2 k = c
    by_cases hk : k = w.1
    · rw [hk, Function.update_self]
      exact hc w (List.mem_append_right ws (List.mem_singleton_self w))
    · rw [Function.update_of_ne hk]
      refine ih (fun w' hw' => hc w' (List.mem_append_left _ hw')) ?_
      rw [List.map_append, List.mem_append] at h
      rcases h with h | h
      · exact h
      · exact absurd (List.mem_singleton.mp h) hk

theorem mem_block_iff (base : Int) (n : Nat) (f : Nat → β) (k : Int) :
    k ∈ (block base n f).map Prod.fst ↔ base ≤ k ∧ k < base + n := by
  unfold block
  rw [List.map_map, List.mem_map]
  constructor
  · rintro ⟨i, hi, rfl⟩
    have hlt := List.mem_range.mp hi
    show base ≤ base + i ∧ base + i < base + n
    omega
  · rintro ⟨hle, hlt⟩
    refine ⟨(k - base).toNat, List.mem_range.mpr (by omega), ?_⟩
    show base + ((k - base).toNat : Int) = k
    omega

theorem block_succ (base : Int) (n : Nat) (f : Nat → β) :
    block base (n + 1) f = block base n f ++ [(base + n, f n)] := by
  unfold block
  rw [List.range_succ, List.map_append]
  rfl

/-- The cells of a block have what was stored there. -/
theorem stores_block (mem : Int → β) (base : Int) {n i : Nat} (f : Nat → β) (hi : i < n) :
    stores mem (block base n f) (base + i) = f i := by
  induction n with
  | zero => exact absurd hi (Nat.not_lt_zero i)
  | succ n ih =>
    rw [block_succ, stores_append]
    show Function.update (stores mem (block base n f)) (base + n) (f n) (base + i) = f i
    by_cases hin : i = n
    · rw [hin, Function.update_self]
    · have hne : base + (i : Int) ≠ base + n := by omega
      rw [Function.update_of_ne hne, ih (by omega)]

end Stores
