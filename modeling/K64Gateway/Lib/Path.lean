import K64Gateway.Lib.LinkedHeap

/-
  The two links of the cells of a heap as functions, and the paths that the next pointers alone
  lead along. A list whose prev pointers are not right is still a path.

  Proved: a path to null is unique and visits no cell twice (`Path.unique`, `Path.nodup`), paths
  compose (`path_append`), and what a store does to the links (`nextOf_setNext`,
  `prevOf_setPrev`).
-/

namespace LinkedHeap

variable {α : Type}

/-- `p->next`; null for a cell that is not allocated. -/
def nextOf (h : Heap α) (p : Ptr) : Option Ptr := (h p).bind Cell.next

/-- `p->prev`, likewise. -/
def prevOf (h : Heap α) (p : Ptr) : Option Ptr := (h p).bind Cell.prev

theorem nextOf_eq {h : Heap α} {p : Ptr} {c : Cell α} (hc : h p = some c) :
    nextOf h p = c.next := by
  unfold nextOf
  rw [hc, Option.bind_some]

theorem prevOf_eq {h : Heap α} {p : Ptr} {c : Cell α} (hc : h p = some c) :
    prevOf h p = c.prev := by
  unfold prevOf
  rw [hc, Option.bind_some]

/-! ## Stores -/

theorem nextOf_setNext {h h' : Heap α} {p : Ptr} {v : Option Ptr} (hs : setNext h p v = some h') :
    nextOf h' = Function.update (nextOf h) p v := by
  obtain ⟨c, hc, rfl⟩ := Option.map_eq_some_iff.mp hs
  funext y
  by_cases hy : y = p
  · rw [hy, Function.update_self, nextOf_eq (write_self _ _ _)]
  · rw [Function.update_of_ne hy]
    unfold nextOf
    rw [write_of_ne _ _ hy]

theorem prevOf_setNext {h h' : Heap α} {p : Ptr} {v : Option Ptr} (hs : setNext h p v = some h') :
    prevOf h' = prevOf h := by
  obtain ⟨c, hc, rfl⟩ := Option.map_eq_some_iff.mp hs
  funext y
  by_cases hy : y = p
  · rw [hy, prevOf_eq (write_self _ _ _), prevOf_eq hc]
  · unfold prevOf
    rw [write_of_ne _ _ hy]

theorem prevOf_setPrev {h h' : Heap α} {p : Ptr} {v : Option Ptr} (hs : setPrev h p v = some h') :
    prevOf h' = Function.update (prevOf h) p v := by
  obtain ⟨c, hc, rfl⟩ := Option.map_eq_some_iff.mp hs
  funext y
  by_cases hy : y = p
  · rw [hy, Function.update_self, prevOf_eq (write_self _ _ _)]
  · rw [Function.update_of_ne hy]
    unfold prevOf
    rw [write_of_ne _ _ hy]

theorem nextOf_setPrev {h h' : Heap α} {p : Ptr} {v : Option Ptr} (hs : setPrev h p v = some h') :
    nextOf h' = nextOf h := by
  obtain ⟨c, hc, rfl⟩ := Option.map_eq_some_iff.mp hs
  funext y
  by_cases hy : y = p
  · rw [hy, nextOf_eq (write_self _ _ _), nextOf_eq hc]
  · unfold nextOf
    rw [write_of_ne _ _ hy]

theorem nextOf_setPrevIf {h h' : Heap α} {p v : Option Ptr} (hs : setPrevIf h p v = some h') :
    nextOf h' = nextOf h := by
  cases p with
  | none => exact Option.some.inj hs ▸ rfl
  | some p => exact nextOf_setPrev hs

theorem prevOf_setPrevIf_of_ne {h h' : Heap α} {p v : Option Ptr} (hs : setPrevIf h p v = some h')
    {y : Ptr} (hy : p ≠ some y) : prevOf h' y = prevOf h y := by
  cases p with
  | none => exact Option.some.inj hs ▸ rfl
  | some p =>
    rw [prevOf_setPrev hs, Function.update_of_ne]
    exact fun he => hy (congrArg some he.symm)

theorem prevOf_setPrevIf_self {h h' : Heap α} {p : Ptr} {v : Option Ptr}
    (hs : setPrevIf h (some p) v = some h') : prevOf h' p = v := by
  rw [prevOf_setPrev hs, Function.update_self]

theorem setNext_isSome {h : Heap α} {p : Ptr} (hp : (h p).isSome = true) (v : Option Ptr) :
    ∃ h', setNext h p v = some h' := by
  obtain ⟨c, hc⟩ := Option.isSome_iff_exists.mp hp
  exact ⟨_, setNext_eq h hc v⟩

theorem setPrev_isSome {h : Heap α} {p : Ptr} (hp : (h p).isSome = true) (v : Option Ptr) :
    ∃ h', setPrev h p v = some h' := by
  obtain ⟨c, hc⟩ := Option.isSome_iff_exists.mp hp
  exact ⟨_, setPrev_eq h hc v⟩

theorem setPrevIf_isSome {h : Heap α} {p : Option Ptr} (hp : ∀ q, p = some q → (h q).isSome = true)
    (v : Option Ptr) : ∃ h', setPrevIf h p v = some h' := by
  cases p with
  | none => exact ⟨h, rfl⟩
  | some q => exact setPrev_isSome (hp q rfl) v

theorem SameData.isSome {h h' : Heap α} (hsame : SameData h h') (p : Ptr) :
    (h' p).isSome = (h p).isSome := by
  have hp := congrArg Option.isSome (hsame p)
  rwa [Option.isSome_map, Option.isSome_map] at hp

/-! ## Paths -/

/-- The next pointers lead from `p` through the cells `L` to `q`. -/
def Path (next : Ptr → Option Ptr) : Option Ptr → List Ptr → Option Ptr → Prop
  | p, [], q => p = q
  | p, x :: L, q => p = some x ∧ Path next (next x) L q

variable {next next' : Ptr → Option Ptr}

theorem path_append {p q : Option Ptr} {A B : List Ptr} :
    Path next p (A ++ B) q ↔ ∃ r, Path next p A r ∧ Path next r B q := by
  induction A generalizing p with
  | nil => simp [Path]
  | cons x A ih => simp [Path, ih, and_assoc]

theorem Path.congr {p q : Option Ptr} {L : List Ptr} (h : Path next p L q)
    (hf : ∀ x ∈ L, next' x = next x) : Path next' p L q := by
  induction L generalizing p with
  | nil => exact h
  | cons x L ih =>
    refine ⟨h.1, ?_⟩
    rw [hf x List.mem_cons_self]
    exact ih h.2 fun y hy => hf y (List.mem_cons_of_mem x hy)

/-- The end of a path is where its last cell leads. -/
theorem Path.concat {p q : Option Ptr} {L : List Ptr} {x : Ptr} (h : Path next p (L ++ [x]) q)
    (hf : ∀ y ∈ L, next' y = next y) : Path next' p (L ++ [x]) (next' x) := by
  obtain ⟨r, hL, hx⟩ := path_append.mp h
  exact path_append.mpr ⟨r, hL.congr hf, hx.1, rfl⟩

theorem Path.unique {p : Option Ptr} {L L' : List Ptr} (h : Path next p L none)
    (h' : Path next p L' none) : L = L' := by
  induction L generalizing p L' with
  | nil =>
    cases L' with
    | nil => rfl
    | cons y L' => exact absurd (h.symm.trans h'.1) (by simp)
  | cons x L ih =>
    cases L' with
    | nil => exact absurd (h'.symm.trans h.1) (by simp)
    | cons y L' =>
      obtain rfl := Option.some.inj (h.1.symm.trans h'.1)
      rw [ih h.2 h'.2]

theorem Path.nodup {p : Option Ptr} {L : List Ptr} (h : Path next p L none) : L.Nodup := by
  induction L generalizing p with
  | nil => exact List.nodup_nil
  | cons x L ih =>
    refine List.nodup_cons.mpr ⟨fun hx => ?_, ih h.2⟩
    -- a second visit of `x` would be followed by the same, longer, list
    obtain ⟨A, B, rfl⟩ := List.append_of_mem hx
    obtain ⟨r, -, hB⟩ := path_append.mp h.2
    obtain rfl : r = p := hB.1.trans h.1.symm
    have hlen := congrArg List.length (h.unique hB)
    simp at hlen
    omega

theorem Path.head_eq {p : Option Ptr} {L : List Ptr} (h : Path next p L none) : p = L.head? := by
  cases L with
  | nil => exact h
  | cons x L => exact h.1

/-- A doubly linked segment is a path. -/
theorem Seg.path {h : Heap α} {prev p last q : Option Ptr} {L : List Ptr}
    (hs : Seg h prev p L last q) : Path (nextOf h) p L q := by
  induction L generalizing prev p with
  | nil => exact hs.2
  | cons x L ih =>
    obtain ⟨hp, c, hc, -, ht⟩ := hs
    exact ⟨hp, by rw [nextOf_eq hc]; exact ih ht⟩

end LinkedHeap
