import K64Gateway.Lib.LinkedHeap
import K64Gateway.VarManage.Types

/-
  The variable list `s_xExtDataList` of `varmanage.c` with its next and prev pointers, and the
  three routines that rewire it: `vVarManage_InsertNode`, `__sort_extdata_link` and
  `vVarManage_RemoveNodeWithName`.

  The routines are pointer programs on a heap. A loop runs on fuel and a read through a null or
  unallocated pointer has no result, so `some` means the call came back. `Step` is one call.
-/

namespace K64Gateway.VarManage

open LinkedHeap

variable {R : Type}

/-- The heap cells holding variables, and `s_xExtDataList`. -/
structure ExtDataList (R : Type) where
  heap : Heap (ExtData R)
  n : Int
  pList : Option Ptr

/-- `s_xExtDataList` after `prvSetExtDataCfgDefault`, nothing allocated. -/
def emptyExtDataList : ExtDataList R where
  heap := fun _ => none
  n := 0
  pList := none

/-- `VAR_MANAGE_CALLOC` of a node, filled with `data`; its links are null. -/
def callocNode (h : Heap (ExtData R)) (p : Ptr) (data : ExtData R) : Heap (ExtData R) :=
  write h p (some { data := data, next := none, prev := none })

/-- `while (last && last->next) last = last->next;` -/
def walkLast {α : Type} (h : Heap α) : Nat → Option Ptr → Option (Option Ptr)
  | 0, _ => none
  | _ + 1, none => some none
  | fuel + 1, some p => do
      let c ← h p
      match c.next with
      | none => some (some p)
      | some q => walkLast h fuel (some q)

/-- `vVarManage_InsertNode`: append the allocated node `data`. -/
def vVarManageInsertNode (fuel : Nat) (s : ExtDataList R) (data : Ptr) :
    Option (ExtDataList R) := do
  let last ← walkLast s.heap fuel s.pList
  match last with
  | some last => do
      let h ← setNext s.heap last (some data)
      let h ← setPrev h data (some last)
      some { s with heap := h, n := s.n + 1 }
  | none => some { s with pList := some data, n := s.n + 1 }

/-- `__GetExtDataWithName`: the first node with this name. -/
def getExtDataWithName (h : Heap (ExtData R)) (name : CStr) : Nat → Option Ptr →
    Option (Option Ptr)
  | 0, _ => none
  | _ + 1, none => some none
  | fuel + 1, some p => do
      let c ← h p
      if name = c.data.nameStr then some (some p)
      else getExtDataWithName h name fuel c.next

/-- `vVarManage_RemoveNodeWithName`. -/
def vVarManageRemoveNodeWithName (fuel : Nat) (s : ExtDataList R) (name : CStr) :
    Option (ExtDataList R) := do
  let data ← getExtDataWithName s.heap name fuel s.pList
  match data with
  | none => some s
  | some data => do
      let c ← s.heap data
      let prev := c.prev
      let next := c.next
      let (h, pList) ← setNextOrHead s.heap s.pList prev next
      let h ← setPrevIf h next prev
      let n := s.n - 1
      -- the node and its strings are freed
      let h := write h data none
      some { heap := h, n := n, pList := if n = 0 then none else pList }

/-- The link updates of `__sort_extdata_link` that move `next` in front of `tmp`, up to and
    with `next->prev = tmp->prev`. -/
def sortMove (h : Heap (ExtData R)) (node next tmp : Ptr) : Option (Heap (ExtData R)) := do
  let cnext ← h next
  let h ← setNext h node cnext.next
  let cnext ← h next
  let h ← setPrevIf h cnext.next (some node)
  let h ← setNext h next (some tmp)
  let ctmp ← h tmp
  setPrev h next ctmp.prev

/-- `if(tmp->next) tmp->next->prev = next;` -/
def sortTail (h : Heap (ExtData R)) (next tmp : Ptr) : Option (Heap (ExtData R)) := do
  let ctmp ← h tmp
  setPrevIf h ctmp.next (some next)

/-- The inner loop `for(tmp = top; tmp != next; tmp = tmp->next)`; it returns the list and
    `top` at its end. -/
def sortInner (node next : Ptr) : Nat → ExtDataList R → Option Ptr → Option Ptr →
    Option (ExtDataList R × Option Ptr)
  | 0, _, _, _ => none
  | fuel + 1, s, top, tmp =>
      if tmp = some next then some (s, top)
      else do
        let tmp ← tmp
        let ctmp ← s.heap tmp
        let cnext ← s.heap next
        match ctmp.prev with
        | some prev => do
            let cprev ← s.heap prev
            if cnext.data.xIo.usAddr ≥ cprev.data.xIo.usAddr ∧
                cnext.data.xIo.usAddr ≤ ctmp.data.xIo.usAddr then do
              let h ← sortMove s.heap node next tmp
              -- `tmp->prev->next = next`, with `tmp->prev` read again
              let ctmp ← h tmp
              let prev ← ctmp.prev
              let h ← setNext h prev (some next)
              let h ← sortTail h next tmp
              some ({ s with heap := h }, top)
            else sortInner node next fuel s top ctmp.next
        | none =>
            if cnext.data.xIo.usAddr ≤ ctmp.data.xIo.usAddr then do
              let h ← sortMove s.heap node next tmp
              let h ← sortTail h next tmp
              some ({ s with heap := h, pList := some next }, some next)
            else sortInner node next fuel s top ctmp.next

/-- The outer loop `while (node)`. -/
def sortOuter : Nat → ExtDataList R → Option Ptr → Option Ptr → Option (ExtDataList R)
  | 0, _, _, _ => none
  | _ + 1, s, _, none => some s
  | fuel + 1, s, top, some node => do
      let cnode ← s.heap node
      match cnode.next with
      | none => sortOuter fuel s top none
      | some next => do
          let (s, top) ← sortInner node next fuel s top top
          let cnode ← s.heap node
          sortOuter fuel s top cnode.next

/-- `__sort_extdata_link`. -/
def sortExtdataLink (fuel : Nat) (s : ExtDataList R) : Option (ExtDataList R) :=
  match s.pList with
  | none => some s
  | some top => sortOuter fuel s (some top) (some top)

/-! ## The sort moves links only -/

theorem sortMove_sameData {h h' : Heap (ExtData R)} {node next tmp : Ptr}
    (hs : sortMove h node next tmp = some h') : SameData h h' := by
  simp only [sortMove, Option.bind_eq_bind, Option.bind_eq_some_iff] at hs
  obtain ⟨_, -, h1, hs1, _, -, h2, hs2, h3, hs3, _, -, hs4⟩ := hs
  exact (SameData.setNext hs1).trans ((SameData.setPrevIf hs2).trans
    ((SameData.setNext hs3).trans (SameData.setPrev hs4)))

theorem sortTail_sameData {h h' : Heap (ExtData R)} {next tmp : Ptr}
    (hs : sortTail h next tmp = some h') : SameData h h' := by
  simp only [sortTail, Option.bind_eq_bind, Option.bind_eq_some_iff] at hs
  obtain ⟨_, -, hs⟩ := hs
  exact SameData.setPrevIf hs

theorem sortInner_sameData {s s' : ExtDataList R} {node next : Ptr} {top top' tmp : Option Ptr}
    {fuel : Nat} (hs : sortInner node next fuel s top tmp = some (s', top')) :
    SameData s.heap s'.heap := by
  induction fuel generalizing tmp with
  | zero => exact nomatch hs
  | succ fuel ih =>
    unfold sortInner at hs
    split at hs
    · obtain ⟨rfl, -⟩ := Prod.mk.inj (Option.some.inj hs)
      exact SameData.refl _
    · simp only [Option.bind_eq_bind, Option.bind_eq_some_iff] at hs
      obtain ⟨tmp, -, ctmp, -, cnext, -, hs⟩ := hs
      split at hs
      · simp only [Option.bind_eq_some_iff] at hs
        obtain ⟨cprev, -, hs⟩ := hs
        split at hs
        · simp only [Option.bind_eq_some_iff] at hs
          obtain ⟨h1, hmove, _, -, _, -, h2, hset, h3, htail, hs⟩ := hs
          obtain ⟨rfl, -⟩ := Prod.mk.inj (Option.some.inj hs)
          exact (sortMove_sameData hmove).trans ((SameData.setNext hset).trans
            (sortTail_sameData htail))
        · exact ih hs
      · split at hs
        · simp only [Option.bind_eq_some_iff] at hs
          obtain ⟨h1, hmove, h2, htail, hs⟩ := hs
          obtain ⟨rfl, -⟩ := Prod.mk.inj (Option.some.inj hs)
          exact (sortMove_sameData hmove).trans (sortTail_sameData htail)
        · exact ih hs

theorem sortOuter_sameData {s s' : ExtDataList R} {top node : Option Ptr} {fuel : Nat}
    (hs : sortOuter fuel s top node = some s') : SameData s.heap s'.heap := by
  induction fuel generalizing s top node with
  | zero => exact nomatch hs
  | succ fuel ih =>
    cases node with
    | none => exact Option.some.inj hs ▸ SameData.refl _
    | some node =>
      simp only [sortOuter, Option.bind_eq_bind, Option.bind_eq_some_iff] at hs
      obtain ⟨cnode, -, hs⟩ := hs
      split at hs
      · exact ih hs
      · simp only [Option.bind_eq_some_iff] at hs
        obtain ⟨⟨s1, top1⟩, hinner, _, -, hs⟩ := hs
        exact (sortInner_sameData hinner).trans (ih hs)

theorem sortExtdataLink_sameData {s s' : ExtDataList R} {fuel : Nat}
    (hs : sortExtdataLink fuel s = some s') : SameData s.heap s'.heap := by
  unfold sortExtdataLink at hs
  split at hs
  · exact Option.some.inj hs ▸ SameData.refl _
  · exact sortOuter_sameData hs

/-! ## Calls and runs -/

/-- The calls that rewire the list. -/
inductive Call (R : Type) where
  | insertNode (data : ExtData R)
  | sortExtdataLink
  | removeNodeWithName (name : CStr)

/-- One call that comes back. A node is inserted as its callers make it: just allocated, its
    links still zero. -/
def Step (s : ExtDataList R) : Call R → ExtDataList R → Prop
  | .insertNode data, s' => ∃ p fuel, s.heap p = none ∧
      vVarManageInsertNode fuel { s with heap := callocNode s.heap p data } p = some s'
  | .sortExtdataLink, s' => ∃ fuel, sortExtdataLink fuel s = some s'
  | .removeNodeWithName name, s' => ∃ fuel, vVarManageRemoveNodeWithName fuel s name = some s'

/-- The states of all runs from the empty manager whose calls satisfy `guard`. -/
inductive Reachable (guard : ExtDataList R → Call R → Prop) : ExtDataList R → Prop where
  | empty : Reachable guard emptyExtDataList
  | call {s s' : ExtDataList R} {c : Call R} : Reachable guard s → guard s c → Step s c s' →
      Reachable guard s'

/-- `s_xExtDataList` is a well-formed doubly linked list of the variables `vars`: the next
    pointers lead from `pList` through `n` different cells to null, the head's prev is null,
    and `x.next = y` gives `y.prev = x`. -/
def Represents (s : ExtDataList R) (vars : List (ExtData R)) : Prop :=
  ∃ L, DList s.heap s.pList L ∧ s.n = L.length ∧ payloads s.heap L = vars

/-- `Represents`, with the cells. -/
def Linked (s : ExtDataList R) (L : List Ptr) (vars : List (ExtData R)) : Prop :=
  DList s.heap s.pList L ∧ s.n = L.length ∧ payloads s.heap L = vars

/-- The list is in strictly increasing order of `usAddr`. -/
def Increasing (vars : List (ExtData R)) : Prop :=
  vars.Pairwise fun a b => a.xIo.usAddr < b.xIo.usAddr

/-- `vars` without the first variable of this name. -/
def removeFirst (name : CStr) (vars : List (ExtData R)) : List (ExtData R) :=
  vars.eraseP fun d => decide (d.nameStr = name)

/-! ## The loops over a well-formed list -/

theorem walkLast_eq {α : Type} {h : Heap α} {prev p last : Option Ptr} {L : List Ptr}
    (hs : Seg h prev p L last none) {fuel : Nat} {r : Option Ptr}
    (hr : walkLast h fuel p = some r) : r = L.getLast? := by
  induction L generalizing prev p fuel with
  | nil =>
    have hp : p = none := hs.2
    subst hp
    cases fuel with
    | zero => simp [walkLast] at hr
    | succ fuel => simpa [walkLast] using hr.symm
  | cons x L ih =>
    obtain ⟨hp, c, hc, -, ht⟩ := hs
    subst hp
    cases fuel with
    | zero => simp [walkLast] at hr
    | succ fuel =>
      simp only [walkLast, hc, Option.bind_eq_bind, Option.bind_some] at hr
      cases L with
      | nil =>
        rw [show c.next = none from ht.2] at hr
        simpa using hr.symm
      | cons y L =>
        have hq : c.next = some y := ht.1
        rw [hq] at hr ht
        rw [List.getLast?_cons_cons]
        exact ih ht hr

theorem walkLast_total {α : Type} {h : Heap α} {prev p last : Option Ptr} {L : List Ptr}
    (hs : Seg h prev p L last none) : ∃ r, walkLast h (L.length + 1) p = some r := by
  induction L generalizing prev p with
  | nil =>
    have hp : p = none := hs.2
    subst hp
    exact ⟨none, rfl⟩
  | cons x L ih =>
    obtain ⟨hp, c, hc, -, ht⟩ := hs
    subst hp
    simp only [walkLast, hc, Option.bind_eq_bind, Option.bind_some]
    cases L with
    | nil => rw [show c.next = none from ht.2]; exact ⟨_, rfl⟩
    | cons y L =>
      have hq : c.next = some y := ht.1
      rw [hq] at ht ⊢
      exact ih ht

/-- The cell `__GetExtDataWithName` stops at splits the list at the first variable of that
    name. -/
theorem getExtDataWithName_eq {h : Heap (ExtData R)} {name : CStr} {prev p last : Option Ptr}
    {L : List Ptr} (hs : Seg h prev p L last none) {fuel : Nat} {r : Option Ptr}
    (hr : getExtDataWithName h name fuel p = some r) :
    (r = none ∧ ∀ d ∈ payloads h L, d.nameStr ≠ name) ∨
    ∃ x c A B, r = some x ∧ L = A ++ x :: B ∧ h x = some c ∧ c.data.nameStr = name ∧
      ∀ d ∈ payloads h A, d.nameStr ≠ name := by
  induction L generalizing prev p fuel with
  | nil =>
    have hp : p = none := hs.2
    subst hp
    cases fuel with
    | zero => simp [getExtDataWithName] at hr
    | succ fuel => exact Or.inl ⟨by simpa [getExtDataWithName] using hr.symm, by simp [payloads]⟩
  | cons x L ih =>
    obtain ⟨hp, c, hc, -, ht⟩ := hs
    subst hp
    cases fuel with
    | zero => simp [getExtDataWithName] at hr
    | succ fuel =>
      simp only [getExtDataWithName, hc, Option.bind_eq_bind, Option.bind_some] at hr
      by_cases hname : name = c.data.nameStr
      · rw [if_pos hname] at hr
        exact Or.inr ⟨x, c, [], L, (Option.some.inj hr).symm, rfl, hc, hname.symm,
          by simp [payloads]⟩
      · rw [if_neg hname] at hr
        rcases ih ht hr with ⟨hnone, hall⟩ | ⟨y, cy, A, B, hy, hL, hcy, hcn, hall⟩
        · refine Or.inl ⟨hnone, ?_⟩
          rw [payloads_cons hc]
          exact List.forall_mem_cons.mpr ⟨fun he => hname he.symm, hall⟩
        · refine Or.inr ⟨y, cy, x :: A, B, hy, by rw [hL]; rfl, hcy, hcn, ?_⟩
          rw [payloads_cons hc]
          exact List.forall_mem_cons.mpr ⟨fun he => hname he.symm, hall⟩

theorem getExtDataWithName_total {h : Heap (ExtData R)} (name : CStr) {prev p last : Option Ptr}
    {L : List Ptr} (hs : Seg h prev p L last none) :
    ∃ r, getExtDataWithName h name (L.length + 1) p = some r := by
  induction L generalizing prev p with
  | nil =>
    have hp : p = none := hs.2
    subst hp
    exact ⟨none, rfl⟩
  | cons x L ih =>
    obtain ⟨hp, c, hc, -, ht⟩ := hs
    subst hp
    simp only [getExtDataWithName, hc, Option.bind_eq_bind, Option.bind_some]
    by_cases hname : name = c.data.nameStr
    · exact ⟨_, if_pos hname⟩
    · rw [if_neg hname]
      exact ih ht

/-! ## One call on a well-formed list -/

theorem represents_empty : Represents (emptyExtDataList : ExtDataList R) [] :=
  ⟨[], ⟨none, rfl, rfl⟩, rfl, rfl⟩

/-- Appending a fresh cell after the last one. -/
theorem insertNode_linked {s : ExtDataList R} {L : List Ptr} (hd : DList s.heap s.pList L)
    (hn : s.n = L.length) {p : Ptr} (hp : s.heap p = none) (data : ExtData R) {fuel : Nat}
    {r : Option Ptr} (hr : walkLast (callocNode s.heap p data) fuel s.pList = some r) :
    ∃ s', vVarManageInsertNode fuel { s with heap := callocNode s.heap p data } p = some s' ∧
      Linked s' (L ++ [p]) (payloads s.heap L ++ [data]) := by
  obtain ⟨last, hs⟩ := hd
  have hpL : p ∉ L := fun hm => by
    obtain ⟨c, hc⟩ := hs.allocated hm
    rw [hp] at hc
    exact absurd hc (by simp)
  have hs0 : Seg (callocNode s.heap p data) none s.pList L last none := hs.write hpL _
  have hr' := walkLast_eq hs0 hr
  subst hr'
  rcases List.eq_nil_or_concat L with rfl | ⟨A, a, rfl⟩
  · have hnull : s.pList = none := hs.2
    refine ⟨_, by simp only [vVarManageInsertNode, hr, Option.bind_eq_bind, Option.bind_some]; rfl,
      ⟨some p, ?_⟩, by simp [hn], ?_⟩
    · exact ⟨rfl, _, write_self _ _ _, rfl, rfl, rfl⟩
    · simp [payloads, callocNode]
  · rw [List.concat_eq_append] at *
    have hlast := hs0.last_eq
    subst hlast
    obtain ⟨c, hc⟩ := hs0.allocated (x := a) (by simp)
    have haA : a ∉ A := by
      have hnd := hs0.nodup
      rw [List.nodup_append] at hnd
      exact fun hm => hnd.2.2 a hm a (by simp) rfl
    have hpa : p ≠ a := fun he => hpL (by simp [he])
    -- `last->next = data; data->prev = last;`
    have hnext := setNext_eq _ hc (some p)
    have hcell : write (callocNode s.heap p data) a (some { c with next := some p }) p =
        some { data := data, next := none, prev := none } := by
      rw [write_of_ne _ _ hpa]
      exact write_self _ _ _
    have hprev := setPrev_eq _ hcell (some a)
    have hrun : vVarManageInsertNode fuel { s with heap := callocNode s.heap p data } p =
        some { heap := write (write (callocNode s.heap p data) a (some { c with next := some p })) p
                 (some { data := data, next := none, prev := some a }),
               n := s.n + 1, pList := s.pList } := by
      simp only [vVarManageInsertNode, hr, Option.bind_eq_bind, Option.bind_some,
        List.getLast?_append, List.getLast?_singleton, Option.some_or, hnext, hprev]
    refine ⟨_, hrun, ⟨some p, ?_⟩, ?_, ?_⟩
    · refine (seg_append _ _ [p] _ _ _ _).mpr ⟨some a, some p, ?_, ?_⟩
      · exact (hs0.setNext_last haA hc (some p)).write hpL _
      · exact ⟨rfl, _, write_self _ _ _, rfl, rfl, rfl⟩
    · simp only [hn, List.length_append, List.length_singleton]
      omega
    · have hsame : ({ c with next := some p } : Cell (ExtData R)).data = c.data := rfl
      dsimp only
      rw [payloads_append, payloads_write_not_mem hpL, payloads_write hc hsame]
      have hdata : payloads (callocNode s.heap p data) (A ++ [a]) = payloads s.heap (A ++ [a]) :=
        payloads_write_not_mem hpL
      rw [hdata]
      simp [payloads]

theorem insertNode_total {s : ExtDataList R} {vars : List (ExtData R)} (h : Represents s vars)
    {p : Ptr} (hp : s.heap p = none) (data : ExtData R) :
    ∃ fuel s', vVarManageInsertNode fuel { s with heap := callocNode s.heap p data } p = some s' := by
  obtain ⟨L, ⟨last, hs⟩, hn, -⟩ := h
  have hpL : p ∉ L := fun hm => by
    obtain ⟨c, hc⟩ := hs.allocated hm
    rw [hp] at hc
    exact absurd hc (by simp)
  have hs0 : Seg (callocNode s.heap p data) none s.pList L last none := hs.write hpL _
  obtain ⟨r, hr⟩ := walkLast_total hs0
  obtain ⟨s', hs', -⟩ := insertNode_linked ⟨last, hs⟩ hn hp data hr
  exact ⟨_, s', hs'⟩

/-- The node that was inserted is the last one. -/
theorem linked_insertNode {s s' : ExtDataList R} {L : List Ptr} {vars : List (ExtData R)}
    (h : Linked s L vars) {p : Ptr} (hp : s.heap p = none) {data : ExtData R} {fuel : Nat}
    (hs' : vVarManageInsertNode fuel { s with heap := callocNode s.heap p data } p = some s') :
    Linked s' (L ++ [p]) (vars ++ [data]) := by
  obtain ⟨hd, hn, rfl⟩ := h
  have hw : ∃ r, walkLast (callocNode s.heap p data) fuel s.pList = some r := by
    cases hr : walkLast (callocNode s.heap p data) fuel s.pList with
    | none => simp [vVarManageInsertNode, hr] at hs'
    | some r => exact ⟨r, rfl⟩
  obtain ⟨r, hr⟩ := hw
  obtain ⟨s'', hs'', hrep⟩ := insertNode_linked hd hn hp data hr
  rw [hs'] at hs''
  rw [Option.some.inj hs'']
  exact hrep

theorem represents_insertNode {s s' : ExtDataList R} {vars : List (ExtData R)}
    (h : Represents s vars) {data : ExtData R} (hstep : Step s (.insertNode data) s') :
    Represents s' (vars ++ [data]) := by
  obtain ⟨L, hL⟩ := h
  obtain ⟨p, fuel, hp, hs'⟩ := hstep
  exact ⟨L ++ [p], linked_insertNode hL hp hs'⟩

theorem removeFirst_of_not_mem {name : CStr} {vars : List (ExtData R)}
    (h : ∀ d ∈ vars, d.nameStr ≠ name) : removeFirst name vars = vars :=
  List.eraseP_of_forall_not fun d hd => by simpa using h d hd

theorem removeFirst_append {name : CStr} {A B : List (ExtData R)} {d : ExtData R}
    (hA : ∀ d ∈ A, d.nameStr ≠ name) (hd : d.nameStr = name) :
    removeFirst name (A ++ d :: B) = A ++ B := by
  unfold removeFirst
  rw [List.eraseP_append_right _ fun b hb => by simpa using hA b hb]
  simp [hd]

/-- Unlinking and freeing the first node of that name. -/
theorem removeNode_linked {s : ExtDataList R} {L : List Ptr} (hd : DList s.heap s.pList L)
    (hn : s.n = L.length) {name : CStr} {fuel : Nat} {r : Option Ptr}
    (hr : getExtDataWithName s.heap name fuel s.pList = some r) :
    ∃ s', vVarManageRemoveNodeWithName fuel s name = some s' ∧
      Represents s' (removeFirst name (payloads s.heap L)) := by
  obtain ⟨last, hs⟩ := hd
  rcases getExtDataWithName_eq hs hr with ⟨rfl, hall⟩ | ⟨x, c, A, B, rfl, rfl, hc, hcn, hall⟩
  · refine ⟨s, ?_, L, ⟨last, hs⟩, hn, (removeFirst_of_not_mem hall).symm⟩
    simp [vVarManageRemoveNodeWithName, hr]
  · have hnd := hs.nodup
    obtain ⟨m, q, hA, hX⟩ := (seg_append _ A (x :: B) _ _ _ _).mp hs
    obtain ⟨hq, c', hc', hm, hB⟩ := hX
    have hcc : c = c' := Option.some.inj (hc.symm.trans hc')
    subst hcc hq hm
    have hxA : x ∉ A := fun hm => (List.nodup_append.mp hnd).2.2 x hm x List.mem_cons_self rfl
    have hAB : ∀ y ∈ B, y ∉ A := fun y hy hm =>
      (List.nodup_append.mp hnd).2.2 y hm y (List.mem_cons_of_mem x hy) rfl
    have hxB : x ∉ B := (List.nodup_cons.mp (List.nodup_append.mp hnd).2.1).1
    have hAn : A.Nodup := (List.nodup_append.mp hnd).1
    -- the cell before `x`, or the head, now leads to `x`'s successor
    obtain ⟨h1, head, he1, hA1, hf1, hp1⟩ := hA.setNextOrHead hAn c.next
    have hB1 : Seg h1 (some x) c.next B last none := hB.frame fun y hy => hf1 y (hAB y hy)
    -- the successor's prev pointer leads to the cell before `x`
    obtain ⟨h2, last', he2, hB2, hf2, hp2⟩ := hB1.setPrevIf c.prev
    have hA2 : Seg h2 none head A c.prev c.next :=
      hA1.frame fun y hy => hf2 y fun hb => hAB y hb hy
    have hrun : vVarManageRemoveNodeWithName fuel s name =
        some { heap := write h2 x none, n := s.n - 1,
               pList := if s.n - 1 = 0 then none else head } := by
      simp [vVarManageRemoveNodeWithName, hr, hc, he1, he2]
    refine ⟨_, hrun, A ++ B, ⟨last', ?_⟩, ?_, ?_⟩
    · have hseg : Seg (write h2 x none) none head (A ++ B) last' none :=
        (seg_append _ A B _ _ _ _).mpr ⟨_, _, hA2.write hxA _, hB2.write hxB _⟩
      by_cases hz : s.n - 1 = 0
      · -- the list was just `x`
        have hAB0 : A ++ B = [] := by
          have : (A ++ B).length = 0 := by
            simp only [List.length_append, List.length_cons] at hn ⊢
            omega
          exact List.length_eq_zero_iff.mp this
        rw [hAB0] at hseg ⊢
        simpa [hz, hseg.2] using hseg
      · simpa [hz] using hseg
    · simp only [List.length_append, List.length_cons] at hn ⊢
      omega
    · rw [payloads_write_not_mem (by simp [hxA, hxB]), payloads_congr fun y _ => hp2 y,
        payloads_congr fun y _ => hp1 y, payloads_append, payloads_append, payloads_cons hc,
        removeFirst_append hall hcn]

theorem removeNode_total {s : ExtDataList R} {vars : List (ExtData R)} (h : Represents s vars)
    (name : CStr) : ∃ s', Step s (.removeNodeWithName name) s' := by
  obtain ⟨L, ⟨last, hs⟩, hn, -⟩ := h
  obtain ⟨r, hr⟩ := getExtDataWithName_total name hs
  obtain ⟨s', hs', -⟩ := removeNode_linked ⟨last, hs⟩ hn hr
  exact ⟨s', _, hs'⟩

theorem represents_removeNode {s s' : ExtDataList R} {vars : List (ExtData R)}
    (h : Represents s vars) {name : CStr} (hstep : Step s (.removeNodeWithName name) s') :
    Represents s' (removeFirst name vars) := by
  obtain ⟨L, hd, hn, rfl⟩ := h
  obtain ⟨fuel, hs'⟩ := hstep
  have hw : ∃ r, getExtDataWithName s.heap name fuel s.pList = some r := by
    cases hr : getExtDataWithName s.heap name fuel s.pList with
    | none => simp [vVarManageRemoveNodeWithName, hr] at hs'
    | some r => exact ⟨r, rfl⟩
  obtain ⟨r, hr⟩ := hw
  obtain ⟨s'', hs'', hrep⟩ := removeNode_linked hd hn hr
  rw [hs'] at hs''
  rw [Option.some.inj hs'']
  exact hrep

/-! ## Sorting a list that is already in order -/

theorem mem_payloads {α : Type} {h : Heap α} {L : List Ptr} {x : Ptr} {c : Cell α} (hx : x ∈ L)
    (hc : h x = some c) : c.data ∈ payloads h L :=
  List.mem_filterMap.mpr ⟨x, hx, by simp [hc]⟩

/-- While every node before `next` has a smaller address, the scan of the inner loop moves
    nothing. -/
theorem sortInner_keeps {s : ExtDataList R} {node next : Ptr} {top prev tmp last : Option Ptr}
    {A : List Ptr} (hs : Seg s.heap prev tmp A last (some next)) (hnext : next ∉ A)
    {cnext : Cell (ExtData R)} (hcn : s.heap next = some cnext)
    (hlt : ∀ d ∈ payloads s.heap A, d.xIo.usAddr < cnext.data.xIo.usAddr) {fuel : Nat}
    {r : ExtDataList R × Option Ptr} (hr : sortInner node next fuel s top tmp = some r) :
    r = (s, top) := by
  induction A generalizing prev tmp fuel with
  | nil =>
    have htmp : tmp = some next := hs.2
    cases fuel with
    | zero => simp [sortInner] at hr
    | succ fuel =>
      rw [sortInner, if_pos htmp] at hr
      exact (Option.some.inj hr).symm
  | cons x A ih =>
    obtain ⟨htmp, c, hc, hprev, ht⟩ := hs
    subst htmp
    rw [payloads_cons hc] at hlt
    have hlx := hlt c.data List.mem_cons_self
    have hnle : ¬ cnext.data.xIo.usAddr ≤ c.data.xIo.usAddr := UInt16.not_le.mpr hlx
    have hxn : ¬ some x = some next := fun he => hnext (by simp [Option.some.inj he])
    have hrest : ∀ k, sortInner node next k s top c.next = some r → r = (s, top) :=
      fun k hr => ih ht (fun hm => hnext (List.mem_cons_of_mem x hm))
        (fun d hd => hlt d (List.mem_cons_of_mem _ hd)) hr
    cases fuel with
    | zero => simp [sortInner] at hr
    | succ fuel =>
      rw [sortInner, if_neg hxn] at hr
      simp only [Option.bind_eq_bind, Option.bind_some, hc, hcn] at hr
      cases hcp : c.prev with
      | none =>
        simp only [hcp, if_neg hnle] at hr
        exact hrest fuel hr
      | some q =>
        simp only [hcp] at hr
        cases hq : s.heap q with
        | none => simp [hq] at hr
        | some cq =>
          have hno : ¬ (cnext.data.xIo.usAddr ≥ cq.data.xIo.usAddr ∧
              cnext.data.xIo.usAddr ≤ c.data.xIo.usAddr) := fun h => hnle h.2
          simp only [hq, Option.bind_some, if_neg hno] at hr
          exact hrest fuel hr

theorem sortInner_total {s : ExtDataList R} {node next : Ptr} {top prev tmp last : Option Ptr}
    {A : List Ptr} (hs : Seg s.heap prev tmp A last (some next)) (hnext : next ∉ A)
    {cnext : Cell (ExtData R)} (hcn : s.heap next = some cnext)
    (hlt : ∀ d ∈ payloads s.heap A, d.xIo.usAddr < cnext.data.xIo.usAddr)
    (hprev : ∀ q, prev = some q → ∃ c, s.heap q = some c) :
    sortInner node next (A.length + 1) s top tmp = some (s, top) := by
  induction A generalizing prev tmp with
  | nil =>
    have htmp : tmp = some next := hs.2
    rw [sortInner, if_pos htmp]
  | cons x A ih =>
    obtain ⟨htmp, c, hc, hcp, ht⟩ := hs
    subst htmp
    rw [payloads_cons hc] at hlt
    have hnle : ¬ cnext.data.xIo.usAddr ≤ c.data.xIo.usAddr :=
      UInt16.not_le.mpr (hlt c.data List.mem_cons_self)
    have hxn : ¬ some x = some next := fun he => hnext (by simp [Option.some.inj he])
    have hrest := ih ht (fun hm => hnext (List.mem_cons_of_mem x hm))
      (fun d hd => hlt d (List.mem_cons_of_mem _ hd))
      (fun q hq => ⟨c, by rw [← Option.some.inj hq]; exact hc⟩)
    rw [sortInner, if_neg hxn]
    simp only [Option.bind_eq_bind, Option.bind_some, hc, hcn]
    rw [← hcp] at hprev
    cases hq : c.prev with
    | none => simp only [if_neg hnle]; exact hrest
    | some q =>
      obtain ⟨cq, hcq⟩ := hprev q hq
      have hno : ¬ (cnext.data.xIo.usAddr ≥ cq.data.xIo.usAddr ∧
          cnext.data.xIo.usAddr ≤ c.data.xIo.usAddr) := fun h => hnle h.2
      simp only [hcq, Option.bind_some, if_neg hno]
      exact hrest

/-- On a list in strictly increasing order `__sort_extdata_link` changes nothing: at `node`
    the cells before it are `A`, those from it on are `B`. -/
theorem sortOuter_keeps {s : ExtDataList R} {top m p last : Option Ptr} {A B : List Ptr}
    (hA : Seg s.heap none top A m p) (hB : Seg s.heap m p B last none) (hnd : (A ++ B).Nodup)
    (hinc : Increasing (payloads s.heap (A ++ B))) {fuel : Nat} {s' : ExtDataList R}
    (hr : sortOuter fuel s top p = some s') : s' = s := by
  induction B generalizing A m p fuel with
  | nil =>
    have hp : p = none := hB.2
    subst hp
    cases fuel with
    | zero => simp [sortOuter] at hr
    | succ fuel => simpa [sortOuter] using hr.symm
  | cons x B ih =>
    obtain ⟨hp, c, hc, hcm, hB'⟩ := hB
    subst hp
    cases fuel with
    | zero => simp [sortOuter] at hr
    | succ fuel =>
      simp only [sortOuter, hc, Option.bind_eq_bind, Option.bind_some] at hr
      have hAx : Seg s.heap none top (A ++ [x]) (some x) c.next :=
        (seg_append _ A [x] _ _ _ _).mpr ⟨m, some x, hA, rfl, c, hc, hcm, rfl, rfl⟩
      have hassoc : A ++ x :: B = (A ++ [x]) ++ B := by simp
      rw [hassoc] at hnd hinc
      cases B with
      | nil =>
        have hnone : c.next = none := hB'.2
        simp only [hnone] at hr hAx hB'
        exact ih hAx hB' hnd hinc hr
      | cons y B =>
        have hsome : c.next = some y := hB'.1
        simp only [hsome] at hr
        obtain ⟨cy, hcy⟩ := hB'.allocated (x := y) List.mem_cons_self
        have hy : y ∉ A ++ [x] := fun hm =>
          (List.nodup_append.mp hnd).2.2 y hm y List.mem_cons_self rfl
        have hlt : ∀ d ∈ payloads s.heap (A ++ [x]), d.xIo.usAddr < cy.data.xIo.usAddr := by
          intro d hd
          rw [payloads_append] at hinc
          exact (List.pairwise_append.mp hinc).2.2 d hd cy.data
            (mem_payloads List.mem_cons_self hcy)
        rw [hsome] at hAx
        cases hin : sortInner x y fuel s top top with
        | none => simp [hin] at hr
        | some r =>
          have hkeep := sortInner_keeps hAx hy hcy hlt hin
          subst hkeep
          simp only [hin, Option.bind_some, hc, hsome] at hr
          rw [hsome] at hB'
          exact ih hAx hB' hnd hinc hr

theorem sortInner_mono {s : ExtDataList R} {node next : Ptr} {top tmp : Option Ptr} {fuel : Nat}
    {r : ExtDataList R × Option Ptr} (hr : sortInner node next fuel s top tmp = some r) (k : Nat) :
    sortInner node next (fuel + k) s top tmp = some r := by
  induction fuel generalizing tmp with
  | zero => simp [sortInner] at hr
  | succ fuel ih =>
    rw [Nat.succ_add]
    rw [sortInner] at hr ⊢
    split_ifs at hr ⊢ with htmp
    · exact hr
    · cases tmp with
      | none => simp at hr
      | some t =>
        simp only [Option.bind_eq_bind, Option.bind_some] at hr ⊢
        cases ht : s.heap t with
        | none => simp [ht] at hr
        | some c =>
          cases hn : s.heap next with
          | none => simp [ht, hn] at hr
          | some cn =>
            simp only [ht, hn, Option.bind_some] at hr ⊢
            cases hq : c.prev with
            | none =>
              simp only [hq] at hr ⊢
              split_ifs at hr ⊢ with hle
              · exact hr
              · exact ih hr
            | some q =>
              simp only [hq] at hr ⊢
              cases hcq : s.heap q with
              | none => simp [hcq] at hr
              | some cq =>
                simp only [hcq, Option.bind_some] at hr ⊢
                split_ifs at hr ⊢ with hle
                · exact hr
                · exact ih hr

theorem sortOuter_total {s : ExtDataList R} {top m p last : Option Ptr} {A B : List Ptr}
    (hA : Seg s.heap none top A m p) (hB : Seg s.heap m p B last none) (hnd : (A ++ B).Nodup)
    (hinc : Increasing (payloads s.heap (A ++ B))) :
    sortOuter (A.length + 2 * B.length + 1) s top p = some s := by
  induction B generalizing A m p with
  | nil =>
    have hp : p = none := hB.2
    subst hp
    rfl
  | cons x B ih =>
    obtain ⟨hp, c, hc, hcm, hB'⟩ := hB
    subst hp
    have hAx : Seg s.heap none top (A ++ [x]) (some x) c.next :=
      (seg_append _ A [x] _ _ _ _).mpr ⟨m, some x, hA, rfl, c, hc, hcm, rfl, rfl⟩
    have hassoc : A ++ x :: B = (A ++ [x]) ++ B := by simp
    rw [hassoc] at hnd hinc
    have hfuel : A.length + 2 * (x :: B).length + 1 = (A ++ [x]).length + 2 * B.length + 1 + 1 := by
      simp only [List.length_append, List.length_cons, List.length_nil]
      omega
    rw [hfuel]
    simp only [sortOuter, hc, Option.bind_eq_bind, Option.bind_some]
    cases B with
    | nil => simp only [show c.next = none from hB'.2]
    | cons y B =>
      have hsome : c.next = some y := hB'.1
      simp only [hsome] at hAx hB' ⊢
      obtain ⟨cy, hcy⟩ := hB'.allocated (x := y) List.mem_cons_self
      have hy : y ∉ A ++ [x] := fun hm =>
        (List.nodup_append.mp hnd).2.2 y hm y List.mem_cons_self rfl
      have hlt : ∀ d ∈ payloads s.heap (A ++ [x]), d.xIo.usAddr < cy.data.xIo.usAddr := by
        intro d hd
        rw [payloads_append] at hinc
        exact (List.pairwise_append.mp hinc).2.2 d hd cy.data
          (mem_payloads List.mem_cons_self hcy)
      have hin : sortInner x y ((A ++ [x]).length + 1) s top top = some (s, top) :=
        sortInner_total hAx hy hcy hlt (by simp)
      have hin' := sortInner_mono hin (2 * (y :: B).length)
      rw [show (A ++ [x]).length + 1 + 2 * (y :: B).length =
        (A ++ [x]).length + 2 * (y :: B).length + 1 by omega] at hin'
      rw [hin']
      simp only [Option.bind_some, hc, hsome]
      exact ih hAx hB' hnd hinc

theorem sortExtdataLink_keeps {s : ExtDataList R} {vars : List (ExtData R)}
    (h : Represents s vars) (hinc : Increasing vars) {s' : ExtDataList R}
    (hstep : Step s .sortExtdataLink s') : s' = s := by
  obtain ⟨L, ⟨last, hs⟩, -, rfl⟩ := h
  obtain ⟨fuel, hr⟩ := hstep
  unfold sortExtdataLink at hr
  cases hp : s.pList with
  | none => simpa [hp] using hr.symm
  | some top =>
    simp only [hp] at hr
    rw [hp] at hs
    exact sortOuter_keeps (A := []) ⟨rfl, rfl⟩ hs hs.nodup hinc hr

theorem sortExtdataLink_total {s : ExtDataList R} {vars : List (ExtData R)}
    (h : Represents s vars) (hinc : Increasing vars) : Step s .sortExtdataLink s := by
  obtain ⟨L, ⟨last, hs⟩, -, rfl⟩ := h
  unfold Step sortExtdataLink
  cases hp : s.pList with
  | none => exact ⟨0, rfl⟩
  | some top =>
    rw [hp] at hs
    exact ⟨_, sortOuter_total (A := []) ⟨rfl, rfl⟩ hs hs.nodup hinc⟩

/-! ## Every run -/

/-- Every sort of the run finds the list in strictly increasing order. -/
def SortsInOrder (s : ExtDataList R) : Call R → Prop
  | .sortExtdataLink => ∀ vars, Represents s vars → Increasing vars
  | _ => True

theorem represents_of_step {s s' : ExtDataList R} {vars : List (ExtData R)}
    (h : Represents s vars) {c : Call R} (hc : SortsInOrder s c) (hstep : Step s c s') :
    ∃ vars', Represents s' vars' := by
  cases c with
  | insertNode data => exact ⟨_, represents_insertNode h hstep⟩
  | sortExtdataLink =>
    have hsame := sortExtdataLink_keeps h (hc vars h) hstep
    exact ⟨vars, hsame ▸ h⟩
  | removeNodeWithName name => exact ⟨_, represents_removeNode h hstep⟩

/-- The list is well formed in every state of a run whose sorts move nothing, and removing a
    name loses no other variable there. -/
theorem extDataList_linked (s : ExtDataList R) (hs : Reachable SortsInOrder s) :
    ∃ vars, Represents s vars ∧ (Increasing vars → Step s .sortExtdataLink s) ∧
      ∀ name, (∃ s', Step s (.removeNodeWithName name) s') ∧
        ∀ s', Step s (.removeNodeWithName name) s' → Represents s' (removeFirst name vars) := by
  have hrep : ∃ vars, Represents s vars := by
    induction hs with
    | empty => exact ⟨[], represents_empty⟩
    | call _ hc hstep ih =>
      obtain ⟨vars, h⟩ := ih
      exact represents_of_step h hc hstep
  obtain ⟨vars, h⟩ := hrep
  exact ⟨vars, h, sortExtdataLink_total h, fun name =>
    ⟨removeNode_total h name, fun s' hstep => represents_removeNode h hstep⟩⟩

/-! ## Two variables out of order -/

/-- A variable of this name and address, every other field zero. -/
def namedVar (szName : CStr) (usAddr : UInt16) : ExtData Unit :=
  { ExtData.zero () with
    bEnable := true
    szName := szName
    xIo := { (ExtData.zero ()).xIo with usAddr := usAddr } }

/-- The names of the two variables. -/
def nameA : CStr := [97]
def nameB : CStr := [98]

/-- `a` and then `b` inserted, in the cells 0 and 1. -/
def pairList (a b : UInt16) : ExtDataList Unit where
  heap := fun p =>
    if p = 0 then some { data := namedVar nameA a, next := some 1, prev := none }
    else if p = 1 then some { data := namedVar nameB b, next := none, prev := some 0 }
    else none
  n := 2
  pList := some 0

theorem pairList_represents (a b : UInt16) :
    Represents (pairList a b) [namedVar nameA a, namedVar nameB b] :=
  ⟨[0, 1], ⟨some 1, rfl, _, rfl, rfl, rfl, _, rfl, rfl, rfl, rfl⟩, rfl, rfl⟩

theorem pairList_reachable {guard : ExtDataList Unit → Call Unit → Prop} (a b : UInt16)
    (hg : ∀ s d, guard s (.insertNode d)) : Reachable guard (pairList a b) := by
  let s1 : ExtDataList Unit :=
    { heap := callocNode emptyExtDataList.heap 0 (namedVar nameA a), n := 1, pList := some 0 }
  have h1 : Step emptyExtDataList (.insertNode (namedVar nameA a)) s1 := ⟨0, 1, rfl, rfl⟩
  have h2 : Step s1 (.insertNode (namedVar nameB b)) (pairList a b) := by
    refine ⟨1, 2, rfl, ?_⟩
    have hrun : vVarManageInsertNode 2
        { s1 with heap := callocNode s1.heap 1 (namedVar nameB b) } 1 =
        some { heap := write (write (callocNode s1.heap 1 (namedVar nameB b)) 0
                 (some { data := namedVar nameA a, next := some 1, prev := none })) 1
                 (some { data := namedVar nameB b, next := none, prev := some 0 }),
               n := 2, pList := some 0 } := rfl
    rw [hrun]
    have hheap : write (write (callocNode s1.heap 1 (namedVar nameB b)) 0
        (some { data := namedVar nameA a, next := some 1, prev := none })) 1
        (some { data := namedVar nameB b, next := none, prev := some 0 }) =
        (pairList a b).heap := by
      funext p
      match p with
      | 0 => rfl
      | 1 => rfl
      | p + 2 => rfl
    rw [hheap]
    rfl
  exact (Reachable.empty.call (hg _ _) h1).call (hg _ _) h2

/-- A run with a sort: two variables in order, sorted, and the first one removed. -/
theorem extDataList_linked_pair : Reachable SortsInOrder (pairList 1 2) ∧
    ∃ vars, Represents (pairList 1 2) vars ∧
      (Increasing vars → Step (pairList 1 2) .sortExtdataLink (pairList 1 2)) ∧
      ∀ name, (∃ s', Step (pairList 1 2) (.removeNodeWithName name) s') ∧
        ∀ s', Step (pairList 1 2) (.removeNodeWithName name) s' →
          Represents s' (removeFirst name vars) :=
  ⟨pairList_reachable 1 2 fun _ _ => trivial,
    extDataList_linked (pairList 1 2) (pairList_reachable 1 2 fun _ _ => trivial)⟩

/-- `pairList 2 1` after `__sort_extdata_link`: `b` leads to `a`, whose prev is still null. -/
def swappedList : ExtDataList Unit where
  heap := fun p =>
    if p = 0 then some { data := namedVar nameA 2, next := none, prev := none }
    else if p = 1 then some { data := namedVar nameB 1, next := some 0, prev := none }
    else none
  n := 2
  pList := some 1

/-- `swappedList` after removing `a`: the head is null and `b` is lost. -/
def lostList : ExtDataList Unit where
  heap := fun p =>
    if p = 1 then some { data := namedVar nameB 1, next := some 0, prev := none } else none
  n := 1
  pList := none

theorem swappedList_step : Step (pairList 2 1) .sortExtdataLink swappedList := by
  refine ⟨3, ?_⟩
  have hrun : sortExtdataLink 3 (pairList 2 1) =
      some { heap := write (write (write (pairList 2 1).heap 0
               (some { data := namedVar nameA 2, next := none, prev := none })) 1
               (some { data := namedVar nameB 1, next := some 0, prev := some 0 })) 1
               (some { data := namedVar nameB 1, next := some 0, prev := none }),
             n := 2, pList := some 1 } := rfl
  rw [hrun]
  have hheap : write (write (write (pairList 2 1).heap 0
      (some { data := namedVar nameA 2, next := none, prev := none })) 1
      (some { data := namedVar nameB 1, next := some 0, prev := some 0 })) 1
      (some { data := namedVar nameB 1, next := some 0, prev := none }) = swappedList.heap := by
    funext p
    match p with
    | 0 => rfl
    | 1 => rfl
    | p + 2 => rfl
  rw [hheap]
  rfl

theorem lostList_step : Step swappedList (.removeNodeWithName nameA) lostList := by
  refine ⟨3, ?_⟩
  have hrun : vVarManageRemoveNodeWithName 3 swappedList nameA =
      some { heap := write swappedList.heap 0 none, n := 1, pList := none } := rfl
  rw [hrun]
  have hheap : write swappedList.heap 0 none = lostList.heap := by
    funext p
    match p with
    | 0 => rfl
    | 1 => rfl
    | p + 2 => rfl
  rw [hheap]
  rfl

theorem swappedList_not_represents (vars : List (ExtData Unit)) :
    ¬ Represents swappedList vars := by
  intro h
  obtain ⟨L, ⟨last, hs⟩, hn, -⟩ := h
  have hlen : L.length = 2 := by
    have : (2 : Int) = L.length := hn
    omega
  match L, hlen with
  | [x, y], _ =>
    obtain ⟨hx, c, hc, -, hy, c', hc', hprev, -⟩ := hs
    have hx1 : x = 1 := (Option.some.inj hx).symm
    subst hx1
    have hcn : c.next = some 0 := by rw [← Option.some.inj hc]
    have hy0 : y = 0 := by
      rw [hcn] at hy
      exact (Option.some.inj hy).symm
    subst hy0
    have hnull : c'.prev = none := by rw [← Option.some.inj hc']
    rw [hnull] at hprev
    exact absurd hprev (by simp)

/-- The sort of two variables that stand in the wrong order leaves a null prev pointer, and the
    removal of `a` then empties the list although `b` was on it. -/
theorem swappedList_loses :
    ¬ (∀ s : ExtDataList Unit, Reachable (fun _ _ => True) s → ∃ vars, Represents s vars) ∧
    Reachable (fun _ _ => True) swappedList ∧
    Step swappedList (.removeNodeWithName nameA) lostList ∧
    lostList.pList = none ∧ lostList.n = 1 := by
  have hpair : Reachable (fun _ _ => True) (pairList 2 1) := pairList_reachable 2 1 fun _ _ => trivial
  have hswap := hpair.call trivial swappedList_step
  refine ⟨fun hall => ?_, hswap, lostList_step, rfl, rfl⟩
  obtain ⟨vars, h⟩ := hall _ hswap
  exact swappedList_not_represents vars h

end K64Gateway.VarManage
