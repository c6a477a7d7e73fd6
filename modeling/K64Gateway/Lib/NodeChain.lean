import Mathlib

/-
  Singly linked nodes in a heap, of any node type with a next pointer: a pointer is a number,
  `none` is the null pointer, and what is not allocated reads as `none`.

  `Chain next h p L` says that the next pointers lead from `p` to null through exactly the nodes
  `L`. Proved: the chain of a pointer is unique (`Chain.unique`) and passes no node twice
  (`Chain.nodup`); the walk that looks for an address finds the node of the chain that is there
  (`seek_split`), or none where there is none (`seek_eq`).
-/

namespace NodeChain

abbrev Ptr := Nat

variable {α : Type*} {next : α → Option Ptr} {h : Ptr → Option α} {p : Option Ptr}

/-- From `p` to null through the nodes `L`, each with its address. -/
def Chain (next : α → Option Ptr) (h : Ptr → Option α) : Option Ptr → List (Ptr × α) → Prop
  | p, [] => p = none
  | p, x :: L => p = some x.1 ∧ h x.1 = some x.2 ∧ Chain next h (next x.2) L

namespace Chain

variable {A B L L' : List (Ptr × α)} {x : Ptr × α}

/-- A chain starts with the pointer to its first node. -/
theorem head (hc : Chain next h p L) : p = L.head?.map Prod.fst := by
  cases L with
  | nil => exact hc
  | cons x L => exact hc.1

theorem suffix (hc : Chain next h p (A ++ B)) : Chain next h (B.head?.map Prod.fst) B := by
  induction A generalizing p with
  | nil => exact hc.head ▸ hc
  | cons y A ih => exact ih hc.2.2

theorem node (hc : Chain next h p (A ++ x :: B)) : h x.1 = some x.2 := hc.suffix.2.1

/-- The next pointer of a node leads to what is behind it. -/
theorem next_eq (hc : Chain next h p (A ++ x :: B)) : next x.2 = B.head?.map Prod.fst :=
  hc.suffix.2.2.head

theorem unique (hc : Chain next h p L) (hc' : Chain next h p L') : L = L' := by
  induction L generalizing p L' with
  | nil =>
    cases L' with
    | nil => rfl
    | cons y L' => exact absurd ((show p = none from hc).symm.trans hc'.1) (by simp)
  | cons x L ih =>
    cases L' with
    | nil => exact absurd ((show p = none from hc').symm.trans hc.1) (by simp)
    | cons y L' =>
      have hptr : x.1 = y.1 := Option.some.inj (hc.1.symm.trans hc'.1)
      have hval : x.2 = y.2 :=
        Option.some.inj (hc.2.1.symm.trans ((congrArg h hptr).trans hc'.2.1))
      rw [ih hc.2.2 (hval ▸ hc'.2.2), Prod.ext hptr hval]

/-- A node that came again would have two chains behind it, of different lengths. -/
theorem nodup (hc : Chain next h p L) : (L.map Prod.fst).Nodup := by
  induction L generalizing p with
  | nil => exact List.nodup_nil
  | cons x L ih =>
    refine List.nodup_cons.mpr ⟨fun hx => ?_, ih hc.2.2⟩
    obtain ⟨y, hy, hptr⟩ := List.mem_map.mp hx
    obtain ⟨A, B, rfl⟩ := List.append_of_mem hy
    have hagain := hc.2.2.suffix
    have hfirst := hc
    rw [hc.1, ← hptr] at hfirst
    have hlen := congrArg List.length (hfirst.unique hagain)
    simp only [List.length_cons, List.length_append] at hlen
    omega

end Chain

/-! ## Looking for an address -/

/-- `while (node && node != target) node = node->next;`, with the node that is found; the walk
    has no result where it reads what is not allocated, or where `fuel` runs out. -/
def seek (next : α → Option Ptr) (h : Ptr → Option α) (target : Ptr) :
    Nat → Option Ptr → Option (Option α)
  | 0, _ => none
  | _ + 1, none => some none
  | fuel + 1, some p =>
      if target = p then (h p).map some else (h p).bind fun c => seek next h target fuel (next c)

theorem seek_eq {L : List (Ptr × α)} (hc : Chain next h p L) (target : Ptr) {fuel : Nat}
    (hfuel : L.length < fuel) :
    seek next h target fuel p = some ((L.find? fun x => decide (target = x.1)).map Prod.snd) := by
  induction L generalizing p fuel with
  | nil =>
    obtain ⟨n, rfl⟩ := Nat.exists_eq_add_of_lt hfuel
    rw [show p = none from hc]
    rfl
  | cons x L ih =>
    obtain _ | fuel := fuel
    · exact absurd hfuel (Nat.not_lt_zero _)
    rw [hc.1, seek, List.find?_cons, hc.2.1]
    by_cases ht : target = x.1
    · simp [ht]
    · simpa [ht] using ih hc.2.2 (Nat.lt_of_succ_lt_succ hfuel)

/-- The node of a chain is found by its address, and the walk ends with it alone. -/
theorem seek_split {A B : List (Ptr × α)} {x : Ptr × α} (hc : Chain next h p (A ++ x :: B))
    {fuel : Nat} (hfuel : (A ++ x :: B).length < fuel) :
    seek next h x.1 fuel p = some (some x.2) := by
  have hnodup := hc.nodup
  rw [List.map_append, List.map_cons, List.nodup_append] at hnodup
  have hA : A.find? (fun y => decide (x.1 = y.1)) = none :=
    List.find?_eq_none.mpr fun y hy hxy => hnodup.2.2 y.1 (List.mem_map_of_mem hy) x.1
      List.mem_cons_self (of_decide_eq_true hxy).symm
  rw [seek_eq hc x.1 hfuel, List.find?_append, hA]
  simp

/-- What is found is a node of the chain, at that address. -/
theorem seek_found {L : List (Ptr × α)} (hc : Chain next h p L) {target : Ptr} {fuel : Nat}
    (hfuel : L.length < fuel) {c : α} (hfound : seek next h target fuel p = some (some c)) :
    (target, c) ∈ L := by
  rw [seek_eq hc target hfuel, Option.some_inj, Option.map_eq_some_iff] at hfound
  obtain ⟨x, hx, rfl⟩ := hfound
  have ht : decide (target = x.1) = true := (List.find?_eq_some_iff_append.mp hx).1
  rw [of_decide_eq_true ht]
  exact List.mem_of_find?_eq_some hx

end NodeChain
