import Mathlib

/-
  A table whose entries are rewritten one after the other, each from what it held; and one entry
  of a list.
-/

namespace K64Gateway.Updates

variable {ι κ β : Type} [DecidableEq κ]

/-- The entry of each index is set to `g` of its value. -/
def updates (key : ι → κ) (g : ι → β → β) (table : κ → β) (l : List ι) : κ → β :=
  l.foldl (fun t i => Function.update t (key i) (g i (t (key i)))) table

theorem updates_cons (key : ι → κ) (g : ι → β → β) (table : κ → β) (i : ι) (l : List ι) :
    updates key g table (i :: l) =
      updates key g (Function.update table (key i) (g i (table (key i)))) l := rfl

theorem updates_of_not_mem (key : ι → κ) (g : ι → β → β) (table : κ → β) {l : List ι} {k : κ}
    (h : ∀ i ∈ l, key i ≠ k) : updates key g table l k = table k := by
  induction l generalizing table with
  | nil => rfl
  | cons i l ih =>
    rw [updates_cons, ih _ fun j hj => h j (List.mem_cons_of_mem i hj),
      Function.update_of_ne (h i List.mem_cons_self).symm]

/-- With one index for every entry, each entry is rewritten once. -/
theorem updates_of_mem {key : ι → κ} (hkey : Function.Injective key) (g : ι → β → β)
    (table : κ → β) {l : List ι} (hl : l.Nodup) {i : ι} (hi : i ∈ l) :
    updates key g table l (key i) = g i (table (key i)) := by
  induction l generalizing table with
  | nil => exact absurd hi List.not_mem_nil
  | cons j l ih =>
    obtain ⟨hj, hl⟩ := List.nodup_cons.mp hl
    rw [updates_cons]
    rcases List.mem_cons.mp hi with heq | hi
    · have hlater : ∀ m ∈ l, key m ≠ key j := fun m hm hmj => hj (hkey hmj ▸ hm)
      rw [heq, updates_of_not_mem key g _ hlater, Function.update_self]
    · have hne : key i ≠ key j := fun heq => hj (hkey heq ▸ hi)
      rw [ih _ hl hi, Function.update_of_ne hne]

/-- An entry of a list is rewritten, and `f` is the same of both. -/
theorem map_set_self {α γ : Type} {f : α → γ} {l : List α} {i : Nat} {a a' : α}
    (hi : l[i]? = some a) (h : f a' = f a) : (l.set i a').map f = l.map f := by
  obtain ⟨hlt, rfl⟩ := List.getElem?_eq_some_iff.mp hi
  rw [List.map_set, h]
  refine List.ext_getElem (List.length_set ..) fun j h1 h2 => ?_
  rw [List.getElem_set]
  split
  · next hij =>
    subst hij
    rw [List.getElem_map]
  · rfl

/-- An entry is rewritten by `f`, which is `f'` on what `g` makes of the entries. -/
theorem map_modify {α γ : Type} {f : α → α} {f' : γ → γ} {g : α → γ}
    (h : ∀ a, g (f a) = f' (g a)) (l : List α) (i : Nat) :
    (l.modify i f).map g = (l.map g).modify i f' := by
  refine List.ext_getElem? fun j => ?_
  rw [List.getElem?_map, List.getElem?_modify, List.getElem?_modify, List.getElem?_map]
  cases l[j]? with
  | none => rfl
  | some a =>
    by_cases hij : i = j
    · simp [hij, h]
    · simp [hij]

/-- The entry behind `A` is rewritten. -/
theorem modify_append_cons {α : Type} (A B : List α) (a : α) (f : α → α) :
    (A ++ a :: B).modify A.length f = A ++ f a :: B := by
  induction A with
  | nil => rfl
  | cons x A ih => exact congrArg (x :: ·) ih

end K64Gateway.Updates
