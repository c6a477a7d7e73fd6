import Mathlib.Logic.Function.Basic
import Mathlib.Data.List.Basic

/-
  A memory as a function of its addresses, the cells that stand in a stretch of it, and the memory
  after a list has been written over a stretch.

  Proved: what is written is read again (`window_overlay`), and a stretch beside it keeps its cells
  (`window_overlay_apart`).
-/

namespace Window

variable {α : Type*}

/-- The `n` cells from `first` on. -/
def window (mem : Nat → α) (first n : Nat) : List α := (List.range n).map fun k => mem (first + k)

/-- The memory with `cells` written from `first` on. -/
def overlay (mem : Nat → α) (first : Nat) (cells : List α) : Nat → α := fun i =>
  if first ≤ i then (cells[i - first]?).getD (mem i) else mem i

@[simp] theorem length_window (mem : Nat → α) (first n : Nat) : (window mem first n).length = n := by
  rw [window, List.length_map, List.length_range]

theorem window_getElem? {mem : Nat → α} {first n k : Nat} (h : k < n) :
    (window mem first n)[k]? = some (mem (first + k)) := by
  rw [window, List.getElem?_map, List.getElem?_range h, Option.map_some]

theorem window_succ (mem : Nat → α) (first n : Nat) :
    window mem first (n + 1) = window mem first n ++ [mem (first + n)] := by
  rw [window, List.range_succ, List.map_append]
  rfl

theorem window_add (mem : Nat → α) (first m n : Nat) :
    window mem first (m + n) = window mem first m ++ window mem (first + m) n := by
  induction n with
  | zero => exact (List.append_nil _).symm
  | succ n ih => rw [← Nat.add_assoc, window_succ, ih, window_succ, List.append_assoc, Nat.add_assoc]

theorem window_cons (mem : Nat → α) (first n : Nat) :
    window mem first (n + 1) = mem first :: window mem (first + 1) n := by
  rw [Nat.add_comm, window_add]
  rfl

theorem map_range_eq_window (mem : Nat → α) (n : Nat) : (List.range n).map mem = window mem 0 n :=
  List.map_congr_left fun k _ => congrArg mem (Nat.zero_add k).symm

theorem window_congr {mem mem' : Nat → α} {first n : Nat}
    (h : ∀ i, first ≤ i → i < first + n → mem i = mem' i) :
    window mem first n = window mem' first n := by
  refine List.map_congr_left fun k hk => ?_
  exact h _ (Nat.le_add_right _ _) (Nat.add_lt_add_left (List.mem_range.mp hk) _)

theorem overlay_of_lt {mem : Nat → α} {first i : Nat} (cells : List α) (h : i < first) :
    overlay mem first cells i = mem i :=
  if_neg (Nat.not_le.mpr h)

theorem overlay_of_le {mem : Nat → α} {first i : Nat} {cells : List α}
    (h : first + cells.length ≤ i) : overlay mem first cells i = mem i := by
  rw [overlay, if_pos (by omega), List.getElem?_eq_none (by omega), Option.getD_none]

theorem overlay_add {mem : Nat → α} {first k : Nat} {cells : List α} (h : k < cells.length) :
    overlay mem first cells (first + k) = cells[k] := by
  rw [overlay, if_pos (Nat.le_add_right _ _), Nat.add_sub_cancel_left, List.getElem?_eq_getElem h,
    Option.getD_some]

@[simp] theorem overlay_nil (mem : Nat → α) (first : Nat) : overlay mem first [] = mem := by
  funext i
  by_cases h : first ≤ i
  · exact overlay_of_le h
  · exact overlay_of_lt _ (Nat.lt_of_not_le h)

theorem overlay_single (mem : Nat → α) (first : Nat) (c : α) :
    overlay mem first [c] = Function.update mem first c := by
  funext i
  rw [Function.update_apply]
  rcases Nat.lt_trichotomy i first with h | h | h
  · rw [overlay_of_lt _ h, if_neg (Nat.ne_of_lt h)]
  · rw [if_pos h, h]
    exact @overlay_add _ mem first 0 [c] Nat.zero_lt_one
  · rw [overlay_of_le (by exact h), if_neg (Nat.ne_of_gt h)]

/-- A list that is written in two parts. -/
theorem overlay_append (mem : Nat → α) (first : Nat) (cells more : List α) :
    overlay mem first (cells ++ more) =
      overlay (overlay mem first cells) (first + cells.length) more := by
  funext i
  by_cases hfirst : i < first
  · rw [overlay_of_lt _ hfirst, overlay_of_lt _ (by omega), overlay_of_lt _ hfirst]
  · obtain ⟨k, rfl⟩ := Nat.exists_eq_add_of_le (Nat.le_of_not_lt hfirst)
    by_cases hk : k < cells.length
    · rw [overlay_of_lt more (by omega), overlay_add hk,
        overlay_add (by rw [List.length_append]; omega), List.getElem_append_left hk]
    · obtain ⟨j, rfl⟩ := Nat.exists_eq_add_of_le (Nat.le_of_not_lt hk)
      by_cases hj : j < more.length
      · rw [← Nat.add_assoc, overlay_add hj, Nat.add_assoc,
          overlay_add (by rw [List.length_append]; omega),
          List.getElem_append_right (Nat.le_add_right _ _)]
        congr 1
        omega
      · rw [overlay_of_le (by rw [List.length_append]; omega), overlay_of_le (by omega),
          overlay_of_le (by omega)]

/-- What is written is read again. -/
theorem window_overlay (mem : Nat → α) (first : Nat) (cells : List α) :
    window (overlay mem first cells) first cells.length = cells := by
  apply List.ext_getElem?
  intro k
  by_cases hk : k < cells.length
  · rw [window_getElem? hk, overlay_add hk, List.getElem?_eq_getElem hk]
  · rw [List.getElem?_eq_none (by rw [length_window]; omega), List.getElem?_eq_none (by omega)]

/-- Nothing is changed by writing what is there. -/
theorem overlay_window (mem : Nat → α) (first n : Nat) :
    overlay mem first (window mem first n) = mem := by
  funext i
  by_cases hlt : i < first
  · exact overlay_of_lt _ hlt
  · obtain ⟨k, rfl⟩ := Nat.exists_eq_add_of_le (Nat.le_of_not_lt hlt)
    by_cases hk : k < n
    · rw [overlay, if_pos (Nat.le_add_right _ _), Nat.add_sub_cancel_left, window_getElem? hk,
        Option.getD_some]
    · exact overlay_of_le (by rw [length_window]; omega)

/-- A stretch beside the cells that are written. -/
theorem window_overlay_apart {mem : Nat → α} {first ofs n : Nat} {cells : List α}
    (h : ofs + n ≤ first ∨ first + cells.length ≤ ofs) :
    window (overlay mem first cells) ofs n = window mem ofs n := by
  refine window_congr fun i hle hlt => ?_
  rcases h with h | h
  · exact overlay_of_lt _ (by omega)
  · exact overlay_of_le (by omega)

end Window
