import Mathlib

/-
  Doubly linked cells in a heap of partial cells. A pointer is a number, `none` is the null
  pointer, and a cell that is not allocated reads as `none`.

  `Seg h prev p L last q` says that the next pointers lead from `p` through exactly the cells
  `L` to `q`, and that every cell's prev pointer is the cell before it (`prev` for the first).
  `DList h p L` is the whole list: from `p` to null, the head's prev null.

  Proved: the segment of a pointer is unique (`Seg.unique`), has no repeated cell
  (`DList.nodup`), composes (`seg_append`), and how it changes under one write to a link
  (`Seg.frame`, `Seg.setPrev_first`, `Seg.setNext_last`).
-/

namespace LinkedHeap

abbrev Ptr := Nat

/-- A cell: a payload and its two links. -/
structure Cell (α : Type) where
  data : α
  next : Option Ptr
  prev : Option Ptr

/-- The allocated cells. -/
abbrev Heap (α : Type) := Ptr → Option (Cell α)

variable {α : Type}

/-- `h` with the cell at `p` replaced. -/
def write (h : Heap α) (p : Ptr) (c : Option (Cell α)) : Heap α :=
  fun q => if q = p then c else h q

/-- `p->next = v`; `none` when `p` is not allocated. -/
def setNext (h : Heap α) (p : Ptr) (v : Option Ptr) : Option (Heap α) :=
  (h p).map fun c => write h p (some { c with next := v })

/-- `p->prev = v`; `none` when `p` is not allocated. -/
def setPrev (h : Heap α) (p : Ptr) (v : Option Ptr) : Option (Heap α) :=
  (h p).map fun c => write h p (some { c with prev := v })

/-- `if (p) p->prev = v`. -/
def setPrevIf (h : Heap α) (p : Option Ptr) (v : Option Ptr) : Option (Heap α) :=
  match p with
  | none => some h
  | some p => setPrev h p v

/-- `if (prev) prev->next = v; else head = v;`, with the new head. -/
def setNextOrHead (h : Heap α) (head prev v : Option Ptr) : Option (Heap α × Option Ptr) :=
  match prev with
  | none => some (h, v)
  | some a => (setNext h a v).map fun h => (h, head)

@[simp] theorem write_self (h : Heap α) (p : Ptr) (c : Option (Cell α)) : write h p c p = c := by
  simp [write]

theorem write_of_ne (h : Heap α) {p q : Ptr} (c : Option (Cell α)) (hq : q ≠ p) :
    write h p c q = h q := by
  simp [write, hq]

theorem setNext_eq (h : Heap α) {p : Ptr} {c : Cell α} (hc : h p = some c) (v : Option Ptr) :
    setNext h p v = some (write h p (some { c with next := v })) := by
  simp [setNext, hc]

theorem setPrev_eq (h : Heap α) {p : Ptr} {c : Cell α} (hc : h p = some c) (v : Option Ptr) :
    setPrev h p v = some (write h p (some { c with prev := v })) := by
  simp [setPrev, hc]

/-! ## Segments -/

/-- From `p` (whose predecessor is `prev`) through the cells `L` to `q`; `last` is the last
    cell passed. -/
def Seg (h : Heap α) : Option Ptr → Option Ptr → List Ptr → Option Ptr → Option Ptr → Prop
  | prev, p, [], last, q => prev = last ∧ p = q
  | prev, p, x :: L, last, q =>
      p = some x ∧ ∃ c, h x = some c ∧ c.prev = prev ∧ Seg h (some x) c.next L last q

/-- The whole list from `p`: it ends at null and the head has no predecessor. -/
def DList (h : Heap α) (p : Option Ptr) (L : List Ptr) : Prop :=
  ∃ last, Seg h none p L last none

theorem seg_append (h : Heap α) (A B : List Ptr) (prev p last q : Option Ptr) :
    Seg h prev p (A ++ B) last q ↔ ∃ m r, Seg h prev p A m r ∧ Seg h m r B last q := by
  induction A generalizing prev p with
  | nil => simp [Seg]
  | cons x A ih =>
    simp only [List.cons_append, Seg]
    constructor
    · rintro ⟨hp, c, hc, hprev, hs⟩
      obtain ⟨m, r, h1, h2⟩ := (ih _ _).mp hs
      exact ⟨m, r, ⟨hp, c, hc, hprev, h1⟩, h2⟩
    · rintro ⟨m, r, ⟨hp, c, hc, hprev, h1⟩, h2⟩
      exact ⟨hp, c, hc, hprev, (ih _ _).mpr ⟨m, r, h1, h2⟩⟩

theorem Seg.allocated {h : Heap α} {prev p last q : Option Ptr} {L : List Ptr}
    (hs : Seg h prev p L last q) {x : Ptr} (hx : x ∈ L) : ∃ c, h x = some c := by
  induction L generalizing prev p with
  | nil => simp at hx
  | cons y L ih =>
    obtain ⟨-, c, hc, -, ht⟩ := hs
    rcases List.mem_cons.mp hx with rfl | hx
    · exact ⟨c, hc⟩
    · exact ih ht hx

/-- `c` with its payload changed. -/
def Cell.mapData (f : α → α) (c : Cell α) : Cell α := { c with data := f c.data }

/-- A segment only depends on the links of its own cells. -/
theorem Seg.relabel {h h' : Heap α} {prev p last q : Option Ptr} {L : List Ptr}
    (hs : Seg h prev p L last q) (hf : ∀ x ∈ L, ∃ f, h' x = (h x).map (Cell.mapData f)) :
    Seg h' prev p L last q := by
  induction L generalizing prev p with
  | nil => exact hs
  | cons y L ih =>
    obtain ⟨hp, c, hc, hprev, ht⟩ := hs
    obtain ⟨f, hy⟩ := hf y List.mem_cons_self
    rw [hc] at hy
    exact ⟨hp, c.mapData f, hy, hprev, ih ht fun x hx => hf x (List.mem_cons_of_mem y hx)⟩

theorem Seg.frame {h h' : Heap α} {prev p last q : Option Ptr} {L : List Ptr}
    (hs : Seg h prev p L last q) (hf : ∀ x ∈ L, h' x = h x) : Seg h' prev p L last q :=
  hs.relabel fun x hx => ⟨id, by
    rw [hf x hx]
    cases h x <;> rfl⟩

theorem Seg.write {h : Heap α} {prev p last q : Option Ptr} {L : List Ptr}
    (hs : Seg h prev p L last q) {x : Ptr} (hx : x ∉ L) (c : Option (Cell α)) :
    Seg (write h x c) prev p L last q :=
  hs.frame fun _ hy => write_of_ne h c fun he => hx (he ▸ hy)

/-- Two segments from one pointer to null are the same. -/
theorem Seg.unique {h : Heap α} {prev prev' p last last' : Option Ptr} {L L' : List Ptr}
    (hs : Seg h prev p L last none) (hs' : Seg h prev' p L' last' none) : L = L' := by
  induction L generalizing prev prev' p L' with
  | nil =>
    cases L' with
    | nil => rfl
    | cons y L' => exact absurd (hs.2.symm.trans hs'.1) (by simp)
  | cons x L ih =>
    obtain ⟨hp, c, hc, -, ht⟩ := hs
    cases L' with
    | nil => exact absurd (hp.symm.trans hs'.2) (by simp)
    | cons y L' =>
      obtain ⟨hp', c', hc', -, ht'⟩ := hs'
      have hxy : x = y := Option.some.inj (hp.symm.trans hp')
      subst hxy
      have hcc : c = c' := Option.some.inj (hc.symm.trans hc')
      subst hcc
      rw [ih ht ht']

theorem Seg.nodup {h : Heap α} {prev p last : Option Ptr} {L : List Ptr}
    (hs : Seg h prev p L last none) : L.Nodup := by
  induction L generalizing prev p with
  | nil => exact List.nodup_nil
  | cons x L ih =>
    obtain ⟨hp, c, hc, hprev, ht⟩ := hs
    refine List.nodup_cons.mpr ⟨fun hx => ?_, ih ht⟩
    -- a second visit of `x` would be followed by the same, longer, list
    obtain ⟨A, B, rfl⟩ := List.append_of_mem hx
    obtain ⟨m, r, -, hB⟩ := (seg_append h A (x :: B) _ _ _ _).mp ht
    have hr : r = some x := hB.1
    subst hr
    have hwhole : Seg h prev (some x) (x :: (A ++ x :: B)) last none := ⟨rfl, c, hc, hprev, ht⟩
    have hlen := congrArg List.length (hwhole.unique hB)
    simp at hlen
    omega

theorem DList.nodup {h : Heap α} {p : Option Ptr} {L : List Ptr} (hd : DList h p L) :
    L.Nodup := by
  obtain ⟨last, hs⟩ := hd
  exact hs.nodup

theorem DList.unique {h : Heap α} {p : Option Ptr} {L L' : List Ptr} (hd : DList h p L)
    (hd' : DList h p L') : L = L' := by
  obtain ⟨last, hs⟩ := hd
  obtain ⟨last', hs'⟩ := hd'
  exact hs.unique hs'

/-- Redirecting the first cell's prev pointer. -/
theorem Seg.setPrev_first {h : Heap α} {prev last q : Option Ptr} {x : Ptr} {L : List Ptr}
    (hs : Seg h prev (some x) (x :: L) last q) (hx : x ∉ L) {c : Cell α} (hc : h x = some c)
    (prev' : Option Ptr) :
    Seg (LinkedHeap.write h x (some { c with prev := prev' })) prev' (some x) (x :: L) last q := by
  obtain ⟨hp, c', hc', -, ht⟩ := hs
  have hcc : c = c' := Option.some.inj (hc.symm.trans hc')
  subst hcc
  exact ⟨hp, _, write_self _ _ _, rfl, ht.write hx _⟩

/-- Redirecting the last cell's next pointer. -/
theorem Seg.setNext_last {h : Heap α} {prev p q : Option Ptr} {x : Ptr} {L : List Ptr}
    (hs : Seg h prev p (L ++ [x]) (some x) q) (hx : x ∉ L) {c : Cell α} (hc : h x = some c)
    (q' : Option Ptr) :
    Seg (LinkedHeap.write h x (some { c with next := q' })) prev p (L ++ [x]) (some x) q' := by
  obtain ⟨m, r, hL, hX⟩ := (seg_append h L [x] _ _ _ _).mp hs
  obtain ⟨hr, c', hc', hm, -⟩ := hX
  have hcc : c = c' := Option.some.inj (hc.symm.trans hc')
  subst hcc
  exact (seg_append _ L [x] _ _ _ _).mpr
    ⟨m, r, hL.write hx _, hr, _, write_self _ _ _, hm, rfl, rfl⟩

/-- The last cell passed is the last of the list. -/
theorem Seg.last_eq {h : Heap α} {prev p last q : Option Ptr} {L : List Ptr} {x : Ptr}
    (hs : Seg h prev p (L ++ [x]) last q) : last = some x := by
  obtain ⟨m, r, -, -, c, -, -, hX⟩ := (seg_append h L [x] _ _ _ _).mp hs
  exact hX.1.symm

/-- Redirecting whatever leads out of a segment: its last cell, or the head when it is empty. -/
theorem Seg.setNextOrHead {h : Heap α} {head last q : Option Ptr} {A : List Ptr}
    (hs : Seg h none head A last q) (hn : A.Nodup) (q' : Option Ptr) :
    ∃ h' head', LinkedHeap.setNextOrHead h head last q' = some (h', head') ∧
      Seg h' none head' A last q' ∧ (∀ x, x ∉ A → h' x = h x) ∧
      ∀ x, (h' x).map Cell.data = (h x).map Cell.data := by
  rcases List.eq_nil_or_concat A with rfl | ⟨A', a, rfl⟩
  · obtain ⟨hlast, -⟩ := hs
    subst hlast
    exact ⟨h, q', rfl, ⟨rfl, rfl⟩, fun _ _ => rfl, fun _ => rfl⟩
  · rw [List.concat_eq_append] at hs hn ⊢
    have hlast := hs.last_eq
    subst hlast
    obtain ⟨c, hc⟩ := hs.allocated (x := a) (by simp)
    have ha : a ∉ A' := by
      rw [List.nodup_append] at hn
      exact fun hm => hn.2.2 a hm a (by simp) rfl
    refine ⟨_, head, by simp [LinkedHeap.setNextOrHead, setNext_eq h hc],
      hs.setNext_last ha hc q', fun x hx => write_of_ne h _ ?_, fun x => ?_⟩
    · exact fun he => hx (by simp [he])
    · by_cases hx : x = a
      · subst hx; simp [hc]
      · rw [write_of_ne h _ hx]

/-- Redirecting the prev pointer of whatever a segment starts with. -/
theorem Seg.setPrevIf {h : Heap α} {prev q last : Option Ptr} {B : List Ptr}
    (hs : Seg h prev q B last none) (prev' : Option Ptr) :
    ∃ h' last', LinkedHeap.setPrevIf h q prev' = some h' ∧ Seg h' prev' q B last' none ∧
      (∀ x, x ∉ B → h' x = h x) ∧ ∀ x, (h' x).map Cell.data = (h x).map Cell.data := by
  cases B with
  | nil =>
    obtain ⟨-, hq⟩ := hs
    subst hq
    exact ⟨h, prev', rfl, ⟨rfl, rfl⟩, fun _ _ => rfl, fun _ => rfl⟩
  | cons b B =>
    have hq : q = some b := hs.1
    subst hq
    have hb : b ∉ B := (List.nodup_cons.mp hs.nodup).1
    obtain ⟨c, hc⟩ := hs.allocated List.mem_cons_self
    refine ⟨_, last, setPrev_eq h hc prev', hs.setPrev_first hb hc prev',
      fun x hx => write_of_ne h _ ?_, fun x => ?_⟩
    · exact fun he => hx (by simp [he])
    · by_cases hx : x = b
      · subst hx; simp [hc]
      · rw [write_of_ne h _ hx]

/-- The payloads of the cells `L`, in order. -/
def payloads (h : Heap α) (L : List Ptr) : List α := L.filterMap fun p => (h p).map Cell.data

theorem payloads_cons {h : Heap α} {x : Ptr} {c : Cell α} (hc : h x = some c) (L : List Ptr) :
    payloads h (x :: L) = c.data :: payloads h L := by
  simp [payloads, hc]

theorem payloads_append (h : Heap α) (A B : List Ptr) :
    payloads h (A ++ B) = payloads h A ++ payloads h B := by
  simp [payloads]

theorem payloads_congr {h h' : Heap α} {L : List Ptr}
    (hf : ∀ x ∈ L, (h' x).map Cell.data = (h x).map Cell.data) :
    payloads h' L = payloads h L := by
  unfold payloads
  exact List.filterMap_congr hf

theorem Seg.length_payloads {h : Heap α} {prev p last q : Option Ptr} {L : List Ptr}
    (hs : Seg h prev p L last q) : (payloads h L).length = L.length := by
  induction L generalizing prev p with
  | nil => rfl
  | cons x L ih =>
    obtain ⟨-, c, hc, -, ht⟩ := hs
    rw [payloads_cons hc, List.length_cons, List.length_cons, ih ht]

theorem payloads_mapData {h h' : Heap α} {L : List Ptr} {f : α → α}
    (hf : ∀ x ∈ L, h' x = (h x).map (Cell.mapData f)) :
    payloads h' L = (payloads h L).map f := by
  unfold payloads
  rw [List.map_filterMap]
  refine List.filterMap_congr fun x hx => ?_
  rw [hf x hx]
  cases h x <;> rfl

/-- Rewriting a cell's links leaves the payloads alone. -/
theorem payloads_write {h : Heap α} {p : Ptr} {c c' : Cell α} (hc : h p = some c)
    (hd : c'.data = c.data) (L : List Ptr) : payloads (write h p (some c')) L = payloads h L := by
  refine payloads_congr fun x _ => ?_
  by_cases hx : x = p
  · subst hx; simp [hc, hd]
  · rw [write_of_ne h _ hx]

/-- The cells have the payloads they had; their links may differ. -/
def SameData (h h' : Heap α) : Prop := ∀ x, (h' x).map Cell.data = (h x).map Cell.data

theorem SameData.refl (h : Heap α) : SameData h h := fun _ => rfl

theorem SameData.trans {h h' h'' : Heap α} (h1 : SameData h h') (h2 : SameData h' h'') :
    SameData h h'' := fun x => (h2 x).trans (h1 x)

theorem SameData.payloads {h h' : Heap α} (hsame : SameData h h') (L : List Ptr) :
    payloads h' L = payloads h L := payloads_congr fun x _ => hsame x

theorem SameData.write {h : Heap α} {p : Ptr} {c c' : Cell α} (hc : h p = some c)
    (hd : c'.data = c.data) : SameData h (write h p (some c')) := by
  intro x
  by_cases hx : x = p
  · subst hx
    rw [write_self, hc, Option.map_some, Option.map_some, hd]
  · rw [write_of_ne h _ hx]

theorem SameData.setNext {h h' : Heap α} {p : Ptr} {v : Option Ptr}
    (hs : setNext h p v = some h') : SameData h h' := by
  obtain ⟨c, hc, rfl⟩ := Option.map_eq_some_iff.mp hs
  exact SameData.write hc rfl

theorem SameData.setPrev {h h' : Heap α} {p : Ptr} {v : Option Ptr}
    (hs : setPrev h p v = some h') : SameData h h' := by
  obtain ⟨c, hc, rfl⟩ := Option.map_eq_some_iff.mp hs
  exact SameData.write hc rfl

theorem SameData.setPrevIf {h h' : Heap α} {p v : Option Ptr}
    (hs : setPrevIf h p v = some h') : SameData h h' := by
  cases p with
  | none => exact Option.some.inj hs ▸ SameData.refl h
  | some p => exact SameData.setPrev hs

theorem payloads_write_not_mem {h : Heap α} {p : Ptr} {c : Option (Cell α)} {L : List Ptr}
    (hp : p ∉ L) : payloads (write h p c) L = payloads h L :=
  payloads_congr fun x hx => by
    rw [write_of_ne h c fun he => hp (by rw [← he]; exact hx)]

/-! ## Whole lists -/

theorem DList.head_eq {h : Heap α} {head : Option Ptr} {L : List Ptr} (hd : DList h head L) :
    head = L.head? := by
  obtain ⟨last, hs⟩ := hd
  cases L with
  | nil => exact hs.2
  | cons x L => exact hs.1

theorem DList.allocated {h : Heap α} {head : Option Ptr} {L : List Ptr} (hd : DList h head L)
    {x : Ptr} (hx : x ∈ L) : ∃ c, h x = some c := by
  obtain ⟨last, hs⟩ := hd
  exact hs.allocated hx

/-- A fresh cell is not in a list. -/
theorem DList.not_mem {h : Heap α} {head : Option Ptr} {L : List Ptr} (hd : DList h head L)
    {x : Ptr} (hx : h x = none) : x ∉ L := fun hm => by
  obtain ⟨c, hc⟩ := hd.allocated hm
  exact absurd (hx.symm.trans hc) (Option.some_ne_none c).symm

theorem DList.relabel {h h' : Heap α} {head : Option Ptr} {L : List Ptr} (hd : DList h head L)
    (hf : ∀ x ∈ L, ∃ f, h' x = (h x).map (Cell.mapData f)) : DList h' head L := by
  obtain ⟨last, hs⟩ := hd
  exact ⟨last, hs.relabel hf⟩

theorem DList.frame {h h' : Heap α} {head : Option Ptr} {L : List Ptr} (hd : DList h head L)
    (hf : ∀ x ∈ L, h' x = h x) : DList h' head L := by
  obtain ⟨last, hs⟩ := hd
  exact ⟨last, hs.frame hf⟩

/-- Another payload in a cell leaves the links. -/
theorem DList.mapData {h : Heap α} {head : Option Ptr} {L : List Ptr} (hd : DList h head L)
    {x : Ptr} {c : Cell α} (hc : h x = some c) (f : α → α) :
    DList (LinkedHeap.write h x (some (c.mapData f))) head L := by
  refine hd.relabel fun y _ => ?_
  by_cases hy : y = x
  · exact ⟨f, by rw [hy, write_self, hc, Option.map_some]⟩
  · refine ⟨id, ?_⟩
    rw [write_of_ne _ _ hy]
    cases h y <;> rfl

/-- A cell of a list leads to the next one. -/
theorem DList.cell {h : Heap α} {head : Option Ptr} {A B : List Ptr} {x : Ptr}
    (hd : DList h head (A ++ x :: B)) : ∃ c, h x = some c ∧ c.next = B.head? := by
  obtain ⟨last, hs⟩ := hd
  obtain ⟨m, q, -, -, c, hc, -, hB⟩ := (seg_append _ A (x :: B) _ _ _ _).mp hs
  refine ⟨c, hc, ?_⟩
  cases B with
  | nil => exact hB.2
  | cons y B => exact hB.1

/-- `p->prev ? p->prev->next = p->next : head = p->next; if (p->next) p->next->prev = p->prev;`
    and `p` is freed. -/
def unlink (h : Heap α) (head : Option Ptr) (p : Ptr) : Option (Heap α × Option Ptr) := do
  let c ← h p
  let (h, head) ← setNextOrHead h head c.prev c.next
  let h ← setPrevIf h c.next c.prev
  some (write h p none, head)

theorem DList.unlink {h : Heap α} {head : Option Ptr} {A B : List Ptr} {x : Ptr}
    (hd : DList h head (A ++ x :: B)) :
    ∃ h' head', LinkedHeap.unlink h head x = some (h', head') ∧ DList h' head' (A ++ B) ∧
      h' x = none ∧ (∀ y, y ∉ A ++ x :: B → h' y = h y) ∧
      ∀ y, y ≠ x → (h' y).map Cell.data = (h y).map Cell.data := by
  have hnd := hd.nodup
  obtain ⟨last, hs⟩ := hd
  obtain ⟨m, q, hA, hq, c, hc, hm, hB⟩ := (seg_append _ A (x :: B) _ _ _ _).mp hs
  subst hq hm
  have hdisj : ∀ y ∈ A, ∀ z ∈ x :: B, y ≠ z := (List.nodup_append.mp hnd).2.2
  have hxA : x ∉ A := fun hm => hdisj x hm x List.mem_cons_self rfl
  have hxB : x ∉ B := (List.nodup_cons.mp (List.nodup_append.mp hnd).2.1).1
  have hAB : ∀ y ∈ B, y ∉ A := fun y hy hm => hdisj y hm y (List.mem_cons_of_mem x hy) rfl
  -- The cell before `x`, or the head, now leads to `x`'s successor.
  obtain ⟨h1, head1, he1, hA1, hf1, hp1⟩ :=
    hA.setNextOrHead (List.nodup_append.mp hnd).1 c.next
  have hB1 : Seg h1 (some x) c.next B last none := hB.frame fun y hy => hf1 y (hAB y hy)
  -- The successor's prev pointer leads to the cell before `x`.
  obtain ⟨h2, last2, he2, hB2, hf2, hp2⟩ := hB1.setPrevIf c.prev
  have hA2 : Seg h2 none head1 A c.prev c.next :=
    hA1.frame fun y hy => hf2 y fun hb => hAB y hb hy
  refine ⟨LinkedHeap.write h2 x none, head1, by simp [LinkedHeap.unlink, hc, he1, he2],
    ⟨last2, (seg_append _ A B _ _ _ _).mpr ⟨_, _, hA2.write hxA _, hB2.write hxB _⟩⟩,
    write_self _ _ _, fun y hy => ?_, fun y hy => ?_⟩
  · simp only [List.mem_append, List.mem_cons, not_or] at hy
    rw [write_of_ne _ _ hy.2.1, hf2 y hy.2.2, hf1 y hy.1]
  · rw [write_of_ne _ _ hy, hp2, hp1]

/-- `last ? (last->next = p, p->prev = last) : (head = p);` -/
def link (h : Heap α) (head last : Option Ptr) (p : Ptr) : Option (Heap α × Option Ptr) :=
  match last with
  | some a => do
    let h ← setNext h a (some p)
    let h ← setPrev h p (some a)
    some (h, head)
  | none => some (h, some p)

/-- A new cell behind the last one. -/
theorem DList.link {h : Heap α} {head : Option Ptr} {L : List Ptr} (hd : DList h head L) {p : Ptr}
    (hp : h p = none) (data : α) :
    ∃ h' head', LinkedHeap.link (LinkedHeap.write h p (some ⟨data, none, none⟩)) head L.getLast? p =
        some (h', head') ∧ DList h' head' (L ++ [p]) ∧ (∀ y, y ∉ L → y ≠ p → h' y = h y) ∧
      (h' p).map Cell.data = some data ∧
      ∀ y, y ≠ p → (h' y).map Cell.data = (h y).map Cell.data := by
  have hpL := hd.not_mem hp
  obtain ⟨last, hs⟩ := hd
  have hs0 : Seg (LinkedHeap.write h p (some ⟨data, none, none⟩)) none head L last none :=
    hs.write hpL _
  rcases List.eq_nil_or_concat L with rfl | ⟨A, a, rfl⟩
  · refine ⟨_, _, rfl, ⟨some p, rfl, _, write_self _ _ _, rfl, rfl, rfl⟩,
      fun y _ hy => write_of_ne _ _ hy, by simp, fun y hy => by rw [write_of_ne _ _ hy]⟩
  · rw [List.concat_eq_append] at *
    have hlast := hs0.last_eq
    subst hlast
    obtain ⟨c, hc⟩ := hs0.allocated (x := a) (by simp)
    have haA : a ∉ A := fun hm => (List.nodup_append.mp hs0.nodup).2.2 a hm a (by simp) rfl
    have hpa : p ≠ a := fun he => hpL (by simp [he])
    have hnext := setNext_eq _ hc (some p)
    have hcell : LinkedHeap.write (LinkedHeap.write h p (some ⟨data, none, none⟩)) a
        (some { c with next := some p }) p = some ⟨data, none, none⟩ := by
      rw [write_of_ne _ _ hpa]
      exact write_self _ _ _
    have hprev := setPrev_eq _ hcell (some a)
    have hrun : LinkedHeap.link (LinkedHeap.write h p (some ⟨data, none, none⟩)) head
        (A ++ [a]).getLast? p =
          some (LinkedHeap.write (LinkedHeap.write (LinkedHeap.write h p
            (some ⟨data, none, none⟩)) a (some { c with next := some p })) p
              (some ⟨data, none, some a⟩), head) := by
      simp only [LinkedHeap.link, List.getLast?_append, List.getLast?_singleton, Option.some_or,
        Option.bind_eq_bind, Option.bind_some, hnext, hprev]
    refine ⟨_, _, hrun, ⟨some p, ?_⟩, fun y hy hyp => ?_, by simp, fun y hy => ?_⟩
    · refine (seg_append _ _ [p] _ _ _ _).mpr ⟨some a, some p, ?_, ?_⟩
      · exact (hs0.setNext_last haA hc (some p)).write hpL _
      · exact ⟨rfl, _, write_self _ _ _, rfl, rfl, rfl⟩
    · have hya : y ≠ a := fun he => hy (by simp [he])
      rw [write_of_ne _ _ hyp, write_of_ne _ _ hya, write_of_ne _ _ hyp]
    · rw [write_of_ne _ _ hy]
      by_cases hya : y = a
      · rw [hya] at hy ⊢
        rw [write_self]
        rw [write_of_ne _ _ hy] at hc
        rw [hc]
        rfl
      · rw [write_of_ne _ _ hya, write_of_ne _ _ hy]

end LinkedHeap
