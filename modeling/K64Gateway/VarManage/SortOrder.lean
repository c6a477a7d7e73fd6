import K64Gateway.VarManage.SortPass

/-
  Which lists `__sort_extdata_link` sorts. It always comes back. A node behind a moved one is passed
  without being looked at, and a node that belongs in front of one of the two with a wrong prev
  takes nodes off the list.

  Proved: the sort leaves all variables in order if and only if neither happens (`sorted_iff`).
-/

namespace K64Gateway.VarManage

open LinkedHeap

variable {R : Type}

/-! ## The condition -/

/-- The sort moves the variable at `i`: it is not behind a moved one, and a variable in front of it
    has no smaller address. -/
def moves (a : List UInt16) : Nat → Bool
  | 0 => false
  | i + 1 => !moves a i && (a.take (i + 1)).any fun b => decide (a.getD (i + 1) 0 ≤ b)

/-- Of the variables that have been passed when the one at `i` has been moved, those that are not
    below its address, but below `y`. -/
def between (a : List UInt16) (i : Nat) (y : UInt16) : Nat :=
  ((a.take (i + 2)).eraseIdx i).countP fun b => decide (a.getD i 0 ≤ b) && decide (b < y)

/-- `y` is above the variable at `i` where it was moved to, but not above the two behind it. -/
def Near (a : List UInt16) (i : Nat) (y : UInt16) : Prop :=
  moves a i = true ∧ a.getD i 0 < y ∧ between a i y < 2

/-- The one behind the moved variable at `k` has no smaller address than those in front of both, and
    the moved one is not near one that was moved before. -/
def SettlesAt (a : List UInt16) (k : Nat) : Prop :=
  (k + 1 < a.length → ∀ b ∈ a.take k, b ≤ a.getD (k + 1) 0) ∧ ∀ i < k, ¬ Near a i (a.getD k 0)

def Settles (a : List UInt16) : Prop := ∀ k < a.length, moves a k = true → SettlesAt a k

instance decidableNear (a : List UInt16) (i : Nat) (y : UInt16) : Decidable (Near a i y) :=
  inferInstanceAs (Decidable (_ ∧ _))

instance decidableSettlesAt (a : List UInt16) (k : Nat) : Decidable (SettlesAt a k) :=
  inferInstanceAs (Decidable (_ ∧ _))

instance decidableSettles (a : List UInt16) : Decidable (Settles a) :=
  inferInstanceAs (Decidable (∀ k < a.length, moves a k = true → SettlesAt a k))

/-- The next pointers lead through the variables `vars`, each once, in order of their addresses. -/
def IsSorted (s : ExtDataList R) (vars : List (ExtData R)) : Prop :=
  ∃ L, Path (nextOf s.heap) s.pList L none ∧ (payloads s.heap L).Perm vars ∧
    (payloads s.heap L).Pairwise fun d e => d.xIo.usAddr ≤ e.xIo.usAddr

section Split

variable {D Q : List UInt16} {x w : UInt16}

theorem moves_split (hne : D ≠ []) (hlast : moves (D ++ x :: Q) (D.length - 1) = false) :
    moves (D ++ x :: Q) D.length = D.any fun b => decide (x ≤ b) := by
  obtain ⟨m, hm⟩ := Nat.exists_eq_succ_of_ne_zero (fun h => hne (List.length_eq_zero_iff.mp h))
  rw [hm, Nat.succ_sub_one] at hlast
  have hget : (D ++ x :: Q).getD D.length 0 = x := by simp
  have htake : (D ++ x :: Q).take D.length = D := List.take_left
  rw [hm] at hget htake ⊢
  rw [moves, hlast, hget, htake, Bool.not_false, Bool.true_and]

theorem between_split (y : UInt16) :
    between (D ++ x :: w :: Q) D.length y =
      (D ++ [w]).countP fun b => decide (x ≤ b) && decide (b < y) := by
  have hget : (D ++ x :: w :: Q).getD D.length 0 = x := by simp
  have htake : (D ++ x :: w :: Q).take (D.length + 2) = D ++ [x, w] := by simp [List.take_append]
  have herase : (D ++ [x, w]).eraseIdx D.length = D ++ [w] := by simp [List.eraseIdx_append]
  unfold between
  rw [hget, htake, herase]

theorem settlesAt_split :
    SettlesAt (D ++ x :: w :: Q) D.length ↔ (∀ b ∈ D, b ≤ w) ∧
      ∀ i < D.length, ¬ Near (D ++ x :: w :: Q) i x := by
  have hget : (D ++ x :: w :: Q).getD D.length 0 = x := by simp
  have hnext : (D ++ x :: w :: Q).getD (D.length + 1) 0 = w := by simp
  have htake : (D ++ x :: w :: Q).take D.length = D := List.take_left
  have hlt : D.length + 1 < (D ++ x :: w :: Q).length := by simp
  unfold SettlesAt
  rw [hget, hnext, htake]
  exact and_congr_left fun _ => ⟨fun h => h hlt, fun h _ => h⟩

theorem settlesAt_last :
    SettlesAt (D ++ [x]) D.length ↔ ∀ i < D.length, ¬ Near (D ++ [x]) i x := by
  have hget : (D ++ [x]).getD D.length 0 = x := by simp
  unfold SettlesAt
  rw [hget]
  exact and_iff_right fun hlt => absurd hlt (by simp)

end Split

/-! ## Wrong prev pointers -/

/-- A node of address `y` belongs in front of a node with a wrong prev; `prev` is the node in front
    of the list. -/
def Stale (addr : Ptr → UInt16) (prevs : Ptr → Option Ptr) : Option Ptr → List Ptr → UInt16 → Prop
  | _, [], _ => False
  | prev, t :: C, y => if addr t < y then Stale addr prevs (some t) C y else prevs t ≠ prev

section Staleness

variable {addr : Ptr → UInt16} {prevs prevs' : Ptr → Option Ptr} {prev : Option Ptr}
  {A B L : List Ptr} {y : UInt16}

theorem stale_congr (hprev : ∀ c ∈ L, prevs' c = prevs c) :
    Stale addr prevs' prev L y ↔ Stale addr prevs prev L y := by
  induction L generalizing prev with
  | nil => exact Iff.rfl
  | cons t C ih =>
    unfold Stale
    rw [hprev t List.mem_cons_self, ih fun c hc => hprev c (List.mem_cons_of_mem t hc)]

/-- The nodes with lower addresses in front are passed. -/
theorem stale_skip (hA : ∀ p ∈ A, addr p < y) :
    Stale addr prevs prev (A ++ B) y ↔ Stale addr prevs (A.getLast?.or prev) B y := by
  induction A generalizing prev with
  | nil => exact Iff.rfl
  | cons t A ih =>
    rw [List.cons_append, Stale, if_pos (hA t List.mem_cons_self),
      ih fun p hp => hA p (List.mem_cons_of_mem t hp), List.getLast?_cons]
    cases A.getLast? <;> rfl

theorem stale_below (hA : ∀ p ∈ A, addr p < y) : ¬ Stale addr prevs prev A y := by
  rw [← List.append_nil A, stale_skip hA]
  exact id

/-- What follows a node of no lower address does not matter. -/
theorem stale_front {p : Ptr} (hp : p ∈ A) (hy : y ≤ addr p) :
    Stale addr prevs prev (A ++ B) y ↔ Stale addr prevs prev A y := by
  induction A generalizing prev with
  | nil => exact absurd hp List.not_mem_nil
  | cons t A ih =>
    rw [List.cons_append, Stale, Stale]
    split
    · next hlt =>
      rcases List.mem_cons.mp hp with rfl | hp
      · exact absurd hlt (UInt16.not_lt.mpr hy)
      · exact ih hp
    · exact Iff.rfl

theorem stale_at {t : Ptr} {C : List Ptr} (hA : ∀ p ∈ A, addr p < y) (ht : y ≤ addr t) :
    Stale addr prevs prev (A ++ t :: C) y ↔ prevs t ≠ A.getLast?.or prev := by
  rw [stale_skip hA, Stale, if_neg (UInt16.not_lt.mpr ht)]

end Staleness

/-- The prev pointers of the rest of the list, which has not been passed. -/
def PrevsFrom (prevs : Ptr → Option Ptr) : Option Ptr → List Ptr → Prop
  | _, [] => True
  | prev, x :: L => prevs x = prev ∧ PrevsFrom prevs (some x) L

theorem PrevsFrom.congr {prevs prevs' : Ptr → Option Ptr} {prev : Option Ptr} {L : List Ptr}
    (h : PrevsFrom prevs prev L) (hf : ∀ x ∈ L, prevs' x = prevs x) : PrevsFrom prevs' prev L := by
  induction L generalizing prev with
  | nil => trivial
  | cons x L ih =>
    exact ⟨(hf x List.mem_cons_self).trans h.1,
      ih h.2 fun y hy => hf y (List.mem_cons_of_mem x hy)⟩

/-- `P` has been passed, of the nodes that were first `D`; the addresses of all are `a`. Nothing is
    lost, what has been passed is in order, and the wrong prev pointers are those near the variables
    that were moved. -/
structure Tight (s : ExtDataList R) (P Q D : List Ptr) (a : List UInt16) : Prop where
  loose : Loose s (P ++ Q)
  perm : P.Perm D
  addrs : (D ++ Q).map (usAddrOf s.heap) = a
  sorted : P.Pairwise fun p r => usAddrOf s.heap p ≤ usAddrOf s.heap r
  rest : PrevsFrom (prevOf s.heap) P.getLast? Q
  inside : ∀ p ∈ P, ∀ q, prevOf s.heap p = some q → q ∈ P
  stale : ∀ y, Stale (usAddrOf s.heap) (prevOf s.heap) none P y ↔ ∃ i < D.length, Near a i y
  last : moves a (D.length - 1) = false

section Passes

variable {s : ExtDataList R} {P Q D : List Ptr} {a : List UInt16} {x : Ptr}

theorem Tight.addrs_cons (h : Tight s P (x :: Q) D a) :
    a = D.map (usAddrOf s.heap) ++ usAddrOf s.heap x :: Q.map (usAddrOf s.heap) := by
  rw [← h.addrs, List.map_append, List.map_cons]

/-- The inner loop looks for the first node that has no lower address. -/
theorem Tight.find (h : Tight s P (x :: Q) D a) :
    P.find? (fitsAt s.heap x) = P.find? fun p => decide (usAddrOf s.heap x ≤ usAddrOf s.heap p) := by
  have hle {p : Ptr} (hp : ¬ usAddrOf s.heap x ≤ usAddrOf s.heap p) : fitsAt s.heap x p = false := by
    unfold fitsAt
    split
    · rw [decide_eq_false hp, Bool.and_false]
    · exact decide_eq_false hp
  cases hfind : P.find? fun p => decide (usAddrOf s.heap x ≤ usAddrOf s.heap p) with
  | none =>
    refine List.find?_eq_none.mpr fun p hp hfits => ?_
    have hnot := List.find?_eq_none.mp hfind p hp
    rw [hle (by simpa using hnot)] at hfits
    exact nomatch hfits
  | some t =>
    obtain ⟨ht, A, C, rfl, hA⟩ := List.find?_eq_some_iff_append.mp hfind
    refine List.find?_eq_some_iff_append.mpr ⟨?_, A, C, rfl, fun p hp => ?_⟩
    · -- its prev is in front of it, so it has a lower address
      unfold fitsAt
      cases hprev : prevOf s.heap t with
      | none => exact ht
      | some q =>
        have hq := h.inside t (by simp) q hprev
        obtain ⟨hback, -⟩ := List.pairwise_append.mp h.loose.back
        obtain ⟨-, hbackT, -⟩ := List.pairwise_append.mp hback
        have hqA : q ∈ A := by
          rcases List.mem_append.mp hq with hq | hq
          · exact hq
          · rcases List.mem_cons.mp hq with rfl | hq
            · exact absurd hprev (h.loose.self q (by simp))
            · exact absurd hprev ((List.pairwise_cons.mp hbackT).1 q hq)
        have hlt := hA q hqA
        rw [Bool.not_eq_true', decide_eq_false_iff_not, UInt16.not_le] at hlt
        dsimp only
        rw [ht, Bool.and_true, decide_eq_true_eq]
        exact UInt16.le_of_lt hlt
    · have hlt := hA p hp
      rw [Bool.not_eq_true', decide_eq_false_iff_not] at hlt
      rw [hle hlt]
      rfl

/-- It finds one where the variable is to be moved. -/
theorem Tight.moves_eq (h : Tight s P (x :: Q) D a) (hne : P ≠ []) :
    moves a D.length = P.any fun p => decide (usAddrOf s.heap x ≤ usAddrOf s.heap p) := by
  have hlast := h.last
  have hD : D.map (usAddrOf s.heap) ≠ [] := by
    rw [Ne, List.map_eq_nil_iff]
    rintro rfl
    exact hne h.perm.eq_nil
  rw [h.addrs_cons] at hlast ⊢
  rw [← List.length_map (usAddrOf s.heap)] at hlast ⊢
  rw [moves_split hD hlast, List.any_map, h.perm.any_eq]
  rfl

theorem Tight.kept (h : Tight s P (x :: Q) D a) (hne : P ≠ [])
    (hP : ∀ p ∈ P, usAddrOf s.heap p < usAddrOf s.heap x) :
    Tight s (P ++ [x]) Q (D ++ [x]) a := by
  have hmoves : moves a D.length = false := by
    rw [h.moves_eq hne, List.any_eq_false]
    intro p hp
    rw [decide_eq_true_eq]
    exact UInt16.not_le.mpr (hP p hp)
  have hassoc : P ++ x :: Q = P ++ [x] ++ Q := by simp
  refine ⟨hassoc ▸ h.loose, h.perm.append_right [x], ?_, ?_, ?_, fun p hp q hq => ?_, fun y => ?_, ?_⟩
  · rw [← h.addrs, List.append_assoc]
    rfl
  · refine List.pairwise_append.mpr ⟨h.sorted, List.pairwise_singleton _ _, fun p hp r hr => ?_⟩
    rw [List.mem_singleton.mp hr]
    exact UInt16.le_of_lt (hP p hp)
  · rw [List.getLast?_concat]
    exact h.rest.2
  · rcases List.mem_append.mp hp with hp | hp
    · exact List.mem_append_left _ (h.inside p hp q hq)
    · rw [List.mem_singleton.mp hp, h.rest.1] at hq
      exact List.mem_append_left _ (List.mem_of_getLast? hq)
  · -- the node has a right prev, so nothing is stale that was not
    rw [List.length_append, List.length_singleton, Nat.exists_lt_succ_right,
      or_iff_left fun hnear : Near a D.length y => Bool.false_ne_true (hmoves.symm.trans hnear.1)]
    by_cases hfront : ∃ p ∈ P, y ≤ usAddrOf s.heap p
    · obtain ⟨p, hp, hy⟩ := hfront
      rw [stale_front hp hy, h.stale]
    · have hbelow : ∀ p ∈ P, usAddrOf s.heap p < y := fun p hp =>
        UInt16.not_le.mp fun hy => hfront ⟨p, hp, hy⟩
      rw [← h.stale]
      refine iff_of_false ?_ (stale_below hbelow)
      by_cases hx : usAddrOf s.heap x < y
      · refine stale_below fun p hp => ?_
        rcases List.mem_append.mp hp with hp | hp
        · exact hbelow p hp
        · rwa [List.mem_singleton.mp hp]
      · rw [stale_at hbelow (UInt16.not_lt.mp hx), Option.or_none]
        exact fun hne => hne h.rest.1
  · rw [List.length_append, List.length_singleton, Nat.add_sub_cancel]
    exact hmoves

end Passes

/-! ## A move -/

section Move

variable {s s' : ExtDataList R} {A C Q D : List Ptr} {a : List UInt16} {t x node w : Ptr}

/-- The addresses from `x` on and below `y`. -/
def isBetween (h : Heap (ExtData R)) (x : Ptr) (y : UInt16) (p : Ptr) : Bool :=
  decide (usAddrOf h x ≤ usAddrOf h p) && decide (usAddrOf h p < y)

theorem Tight.between_eq (h : Tight s (A ++ t :: C) (x :: w :: Q) D a)
    (hA : ∀ p ∈ A, usAddrOf s.heap p < usAddrOf s.heap x) (y : UInt16) :
    between a D.length y = (t :: C ++ [w]).countP (isBetween s.heap x y) := by
  have hcount : A.countP (isBetween s.heap x y) = 0 := by
    refine List.countP_eq_zero.mpr fun p hp => ?_
    unfold isBetween
    rw [decide_eq_false (UInt16.not_le.mpr (hA p hp)), Bool.false_and]
    exact Bool.false_ne_true
  have hsplit := between_split (D := D.map (usAddrOf s.heap)) (x := usAddrOf s.heap x)
    (w := usAddrOf s.heap w) (Q := Q.map (usAddrOf s.heap)) y
  rw [List.length_map] at hsplit
  rw [h.addrs_cons, List.map_cons, hsplit, List.countP_append, List.countP_map,
    ← h.perm.countP_eq, List.countP_append, List.countP_append]
  show A.countP (isBetween s.heap x y) + (t :: C).countP (isBetween s.heap x y) + _ = _
  rw [hcount, Nat.zero_add]
  rfl

/-- The prev pointers behind `tmp`. -/
theorem Tight.prev_behind (h : Tight s (A ++ t :: C) (x :: w :: Q) D a)
    (hlast : (t :: C).getLast? = some node) (hm : Moved s.heap s'.heap node x t) :
    (∀ {u : Ptr} {C' : List Ptr}, C = u :: C' → prevOf s'.heap u = some x ∧
      (∀ c ∈ C', prevOf s'.heap c = prevOf s.heap c) ∧ prevOf s'.heap w = some node) ∧
    (C = [] → prevOf s'.heap w = some x) ∧ ∀ c ∈ Q, prevOf s'.heap c = prevOf s.heap c := by
  obtain ⟨-, hT, hrest⟩ := h.loose.paths
  obtain ⟨-, hndT, hndQ, -, hxT, hxQ, -, -, hTQ⟩ := h.loose.nodup
  have hnext : nextOf s.heap x = some w := hrest.1
  have hwT : w ∉ t :: C := fun hw => hTQ w hw List.mem_cons_self
  have hbehind {u : Ptr} {C' : List Ptr} (hC : C = u :: C') :
      behind s.heap node x t = some u := by
    subst hC
    have hne : t ≠ node := by
      rintro rfl
      rw [List.getLast?_cons_cons] at hlast
      exact (List.nodup_cons.mp hndT).1 (List.mem_of_getLast? hlast)
    unfold behind
    rw [if_neg hne]
    exact hT.2.1
  have hbehindNil (hC : C = []) : behind s.heap node x t = some w := by
    subst hC
    have htn : t = node := Option.some.inj hlast
    unfold behind
    rw [if_pos htn, hnext]
  refine ⟨fun {u C'} hC => ⟨hm.behindPrev u (hbehind hC), fun c hc => ?_, ?_⟩,
    fun hC => hm.behindPrev w (hbehindNil hC), fun c hc => ?_⟩
  · rw [hC] at hndT hxT hwT
    have hmem : c ∈ t :: u :: C' := by simp [hc]
    refine hm.otherPrev c (fun he => hxT (he ▸ hmem)) (fun he => hwT ?_) fun he => ?_
    · rw [hnext] at he
      exact Option.some.inj he ▸ hmem
    · rw [hbehind hC] at he
      rw [Option.some.inj he] at hndT
      exact (List.nodup_cons.mp (List.nodup_cons.mp hndT).2).1 hc
  · refine hm.restPrev w hnext fun he => hwT ?_
    rw [hbehind hC] at he
    rw [← Option.some.inj he, hC]
    simp
  · refine hm.otherPrev c (fun he => hxQ (he ▸ List.mem_cons_of_mem w hc)) (fun he => ?_) fun he => ?_
    · rw [hnext] at he
      exact (List.nodup_cons.mp hndQ).1 (Option.some.inj he ▸ hc)
    · rcases List.mem_append.mp (h.loose.behind_mem hlast he) with hC | hwQ
      · exact hTQ c (List.mem_cons_of_mem t hC) (List.mem_cons_of_mem w hc)
      · cases hC : C with
        | nil =>
          rw [hbehindNil hC] at he
          exact (List.nodup_cons.mp hndQ).1 (Option.some.inj he ▸ hc)
        | cons u C' =>
          rw [hbehind hC] at he
          exact hTQ u (by simp [hC]) (Option.some.inj he ▸ hwQ)

theorem Tight.near_iff (h : Tight s (A ++ t :: C) (x :: w :: Q) D a)
    (hA : ∀ p ∈ A, usAddrOf s.heap p < usAddrOf s.heap x) (hmoves : moves a D.length = true)
    {y : UInt16} :
    Near a D.length y ↔
      usAddrOf s.heap x < y ∧ (t :: C ++ [w]).countP (isBetween s.heap x y) < 2 := by
  have hget : a.getD D.length 0 = usAddrOf s.heap x := by
    rw [h.addrs_cons]
    simp
  unfold Near
  rw [hget, h.between_eq hA y, hmoves]
  exact and_iff_right rfl

theorem countP_isBetween_zero {h : Heap (ExtData R)} {y : UInt16} {L : List Ptr}
    (hL : ∀ p ∈ L, y ≤ usAddrOf h p) : L.countP (isBetween h x y) = 0 := by
  refine List.countP_eq_zero.mpr fun p hp => ?_
  unfold isBetween
  rw [decide_eq_false (UInt16.not_lt.mpr (hL p hp)), Bool.and_false]
  exact Bool.false_ne_true

theorem countP_isBetween_cons {h : Heap (ExtData R)} {y : UInt16} {p : Ptr} (L : List Ptr)
    (hx : usAddrOf h x ≤ usAddrOf h p) (hy : usAddrOf h p < y) :
    (p :: L).countP (isBetween h x y) = L.countP (isBetween h x y) + 1 := by
  refine List.countP_cons_of_pos ?_
  unfold isBetween
  rw [decide_eq_true hx, decide_eq_true hy]
  rfl

/-- After a move a wrong prev is in the way of those addresses for which it was before, and of those
    near the moved variable. -/
theorem Tight.stale_moved (h : Tight s (A ++ t :: C) (x :: w :: Q) D a)
    (hlast : (t :: C).getLast? = some node) (hm : Moved s.heap s'.heap node x t)
    (hA : ∀ p ∈ A, usAddrOf s.heap p < usAddrOf s.heap x)
    (ht : usAddrOf s.heap x ≤ usAddrOf s.heap t) (hright : prevOf s.heap t = A.getLast?)
    (hw : ∀ p ∈ A ++ t :: C, usAddrOf s.heap p ≤ usAddrOf s.heap w)
    (hmoves : moves a D.length = true) (y : UInt16) :
    Stale (usAddrOf s.heap) (prevOf s'.heap) none (A ++ [x] ++ t :: C ++ [w]) y ↔
      Stale (usAddrOf s.heap) (prevOf s.heap) none (A ++ t :: C) y ∨ Near a D.length y := by
  obtain ⟨hbehind, hbehindNil, -⟩ := h.prev_behind hlast hm
  obtain ⟨-, -, -, hxA, hxT, -⟩ := h.loose.nodup
  have hfront {c : Ptr} (hc : c ∈ A ++ [t]) := h.loose.prev_front hlast hm hc
  have htw := hw t (by simp)
  have htC : ∀ c ∈ C, usAddrOf s.heap t ≤ usAddrOf s.heap c :=
    (List.pairwise_cons.mp (List.pairwise_append.mp h.sorted).2.1).1
  rw [h.near_iff hA hmoves, List.append_assoc _ (t :: C)]
  by_cases hin : ∃ p ∈ A, y ≤ usAddrOf s.heap p
  · -- in front of the place nothing changes
    obtain ⟨p, hp, hy⟩ := hin
    rw [List.append_assoc, stale_front hp hy, stale_front hp hy,
      stale_congr fun c hc => hfront (List.mem_append_left [t] hc),
      or_iff_left fun hnear => UInt16.not_lt.mpr (UInt16.le_trans hy (UInt16.le_of_lt (hA p hp)))
        hnear.1]
  have hbelow : ∀ p ∈ A, usAddrOf s.heap p < y := fun p hp =>
    UInt16.not_le.mp fun hy => hin ⟨p, hp, hy⟩
  by_cases hxy : usAddrOf s.heap x < y
  swap
  · -- the moved node has a right prev
    have hyx := UInt16.not_lt.mp hxy
    rw [List.append_assoc, List.singleton_append, stale_at hbelow hyx,
      stale_at hbelow (UInt16.le_trans hyx ht), hm.nextPrev, hright, Option.or_none,
      or_iff_left fun hnear => hxy hnear.1]
  rw [stale_skip (A := A ++ [x]) fun p hp => (List.mem_append.mp hp).elim (hbelow p)
    fun hp => List.mem_singleton.mp hp ▸ hxy, stale_skip hbelow, List.getLast?_concat,
    Option.some_or, List.cons_append, Stale, Stale, and_iff_right hxy]
  by_cases hty : usAddrOf s.heap t < y
  swap
  · -- that of the node behind it is wrong
    have hyt := UInt16.not_lt.mp hty
    rw [if_neg hty, hfront (by simp), hright]
    refine iff_of_true (fun he => hxA (List.mem_of_getLast? he)) (Or.inr ?_)
    have hzero : (t :: (C ++ [w])).countP (isBetween s.heap x y) = 0 :=
      countP_isBetween_zero fun p hp => by
        rcases List.mem_cons.mp hp with rfl | hp
        · exact hyt
        · rcases List.mem_append.mp hp with hp | hp
          · exact UInt16.le_trans hyt (htC p hp)
          · rw [List.mem_singleton.mp hp]
            exact UInt16.le_trans hyt htw
    omega
  rw [if_pos hty, if_pos hty, countP_isBetween_cons _ ht hty]
  cases hC : C with
  | nil =>
    rw [List.nil_append, Stale, Stale]
    by_cases hwy : usAddrOf s.heap w < y
    · rw [if_pos hwy, countP_isBetween_cons _ (UInt16.le_trans ht htw) hwy]
      simp [Stale]
    · rw [if_neg hwy, hbehindNil hC]
      refine iff_of_true (fun he => hxT ?_) (Or.inr ?_)
      · rw [Option.some.inj he]
        exact List.mem_cons_self
      · have hzero : [w].countP (isBetween s.heap x y) = 0 :=
          countP_isBetween_zero fun p hp => List.mem_singleton.mp hp ▸ UInt16.not_lt.mp hwy
        omega
  | cons u C' =>
    obtain ⟨hu, hrest, hwprev⟩ := hbehind hC
    rw [hC] at htC hw hxT hlast
    have hsorted := h.sorted
    rw [hC] at hsorted
    have huC : ∀ c ∈ C', usAddrOf s.heap u ≤ usAddrOf s.heap c :=
      (List.pairwise_cons.mp (List.pairwise_cons.mp (List.pairwise_append.mp hsorted).2.1).2).1
    have huw := hw u (by simp)
    rw [List.cons_append, Stale, Stale]
    by_cases huy : usAddrOf s.heap u < y
    swap
    · -- and that of the next one too
      have hyu := UInt16.not_lt.mp huy
      rw [if_neg huy, hu]
      refine iff_of_true (fun he => hxT ?_) (Or.inr ?_)
      · rw [Option.some.inj he]
        exact List.mem_cons_self
      · have hzero : (u :: (C' ++ [w])).countP (isBetween s.heap x y) = 0 :=
          countP_isBetween_zero fun p hp => by
            rcases List.mem_cons.mp hp with rfl | hp
            · exact hyu
            · rcases List.mem_append.mp hp with hp | hp
              · exact UInt16.le_trans hyu (huC p hp)
              · rw [List.mem_singleton.mp hp]
                exact UInt16.le_trans hyu huw
        omega
    -- behind them nothing changes
    rw [if_pos huy, if_pos huy,
      countP_isBetween_cons _ (UInt16.le_trans ht (htC u List.mem_cons_self)) huy,
      or_iff_left (by omega)]
    by_cases hhit : ∃ p ∈ C', y ≤ usAddrOf s.heap p
    · obtain ⟨p, hp, hy⟩ := hhit
      rw [stale_front hp hy, stale_congr hrest]
    · have hbelowC : ∀ p ∈ C', usAddrOf s.heap p < y := fun p hp =>
        UInt16.not_le.mp fun hy => hhit ⟨p, hp, hy⟩
      refine iff_of_false ?_ (stale_below hbelowC)
      by_cases hwy : usAddrOf s.heap w < y
      · exact stale_below fun p hp => (List.mem_append.mp hp).elim (hbelowC p)
          fun hp => List.mem_singleton.mp hp ▸ hwy
      · rw [stale_at hbelowC (UInt16.not_lt.mp hwy), hwprev, ← hlast, List.getLast?_cons_cons,
          List.getLast?_cons]
        cases C'.getLast? <;> exact fun hne => hne rfl

theorem Tight.settles_iff {P : List Ptr} (h : Tight s P (x :: w :: Q) D a) :
    SettlesAt a D.length ↔ (∀ p ∈ P, usAddrOf s.heap p ≤ usAddrOf s.heap w) ∧
      ∀ i < D.length, ¬ Near a i (usAddrOf s.heap x) := by
  have hsplit := settlesAt_split (D := D.map (usAddrOf s.heap)) (x := usAddrOf s.heap x)
    (w := usAddrOf s.heap w) (Q := Q.map (usAddrOf s.heap))
  rw [← List.map_cons, ← h.addrs_cons, List.length_map, List.forall_mem_map] at hsplit
  rw [hsplit]
  exact and_congr_left fun _ => forall_congr' fun p => by rw [h.perm.mem_iff]

theorem Tight.settles_last {P : List Ptr} (h : Tight s P [x] D a) :
    SettlesAt a D.length ↔ ∀ i < D.length, ¬ Near a i (usAddrOf s.heap x) := by
  have hlast := settlesAt_last (D := D.map (usAddrOf s.heap)) (x := usAddrOf s.heap x)
  rw [List.length_map] at hlast
  rw [h.addrs_cons]
  exact hlast

/-- The prev of the node that the variable belongs in front of is right. -/
theorem Tight.right_iff (h : Tight s (A ++ t :: C) (x :: Q) D a)
    (hA : ∀ p ∈ A, usAddrOf s.heap p < usAddrOf s.heap x)
    (ht : usAddrOf s.heap x ≤ usAddrOf s.heap t) :
    prevOf s.heap t = A.getLast? ↔ ∀ i < D.length, ¬ Near a i (usAddrOf s.heap x) := by
  have hstale := h.stale (usAddrOf s.heap x)
  rw [stale_at hA ht, Option.or_none] at hstale
  rw [← not_iff_not]
  refine hstale.trans ?_
  simp only [not_forall, not_not, exists_prop]

/-- The moved node stands between lower addresses and others. -/
theorem Tight.sorted_moved (h : Tight s (A ++ t :: C) (x :: Q) D a)
    (hA : ∀ p ∈ A, usAddrOf s.heap p < usAddrOf s.heap x)
    (ht : usAddrOf s.heap x ≤ usAddrOf s.heap t) :
    (A ++ [x] ++ t :: C).Pairwise fun p r => usAddrOf s.heap p ≤ usAddrOf s.heap r := by
  obtain ⟨hsA, hsT, hAT⟩ := List.pairwise_append.mp h.sorted
  rw [List.append_assoc]
  refine List.pairwise_append.mpr ⟨hsA, List.pairwise_cons.mpr ⟨fun c hc => ?_, hsT⟩,
    fun p hp r hr => ?_⟩
  · rcases List.mem_cons.mp hc with rfl | hc
    · exact ht
    · exact UInt16.le_trans ht ((List.pairwise_cons.mp hsT).1 c hc)
  · rcases List.mem_cons.mp hr with rfl | hr
    · exact UInt16.le_of_lt (hA p hp)
    · exact hAT p hp r hr

theorem Tight.moved (h : Tight s (A ++ t :: C) (x :: w :: Q) D a)
    (hlast : (t :: C).getLast? = some node)
    (hs : sortAt node x t s s.pList = some (s', s'.pList))
    (hA : ∀ p ∈ A, usAddrOf s.heap p < usAddrOf s.heap x)
    (ht : usAddrOf s.heap x ≤ usAddrOf s.heap t) (hmoves : moves a D.length = true)
    (hset : SettlesAt a D.length) :
    Tight s' (A ++ [x] ++ t :: C ++ [w]) Q (D ++ [x, w]) a := by
  obtain ⟨hw, hnear⟩ := h.settles_iff.mp hset
  have hright := (h.right_iff hA ht).mpr hnear
  obtain ⟨hm, -, A', hloose, -, hall⟩ := h.loose.moved hlast hs
  obtain rfl := hall.mp hright
  obtain ⟨-, -, hQ⟩ := h.prev_behind hlast hm
  have haddr : usAddrOf s'.heap = usAddrOf s.heap := funext (usAddrOf_congr hm.data)
  have hassoc : A ++ [x] ++ (t :: C ++ w :: Q) = A ++ [x] ++ t :: C ++ [w] ++ Q := by simp
  have hnext : moves a (D.length + 1) = false := by
    rw [moves, hmoves]
    rfl
  refine ⟨hassoc ▸ hloose, ?_, ?_, ?_, ?_, fun p hp q hq => ?_, fun y => ?_, ?_⟩
  · have hperm := (perm_moved A (t :: C) [w] x).trans (h.perm.append_right [x, w])
    exact hperm
  · rw [haddr, ← h.addrs]
    simp
  · rw [haddr]
    refine List.pairwise_append.mpr ⟨h.sorted_moved hA ht, List.pairwise_singleton _ _,
      fun p hp r hr => ?_⟩
    rw [List.mem_singleton.mp hr]
    by_cases hpx : p = x
    · rw [hpx]
      exact UInt16.le_trans ht (hw t (by simp))
    · refine hw p ?_
      simp only [List.mem_append, List.mem_cons, hpx] at hp ⊢
      tauto
  · rw [List.getLast?_concat]
    exact h.rest.2.2.congr hQ
  · have hold {q : Ptr} (hq : q ∈ A ++ t :: C) : q ∈ A ++ [x] ++ t :: C ++ [w] := by
      simp only [List.mem_append, List.mem_cons] at hq ⊢
      tauto
    have hx : x ∈ A ++ [x] ++ t :: C ++ [w] := by simp
    have hnode := hold (List.mem_append_right A (List.mem_of_getLast? hlast))
    by_cases hpx : p = x
    · rw [hpx, hm.nextPrev] at hq
      exact hold (h.inside t (by simp) q hq)
    · have hmem : p ∈ A ++ t :: C ++ w :: Q := by
        simp only [List.mem_append, List.mem_cons, hpx] at hp ⊢
        tauto
      rcases h.loose.prev_cases hlast hm hmem with heq | ⟨-, heq⟩ | ⟨-, heq⟩
      · rw [heq] at hq
        by_cases hpw : p = w
        · rw [hpw, h.rest.2.1] at hq
          exact Option.some.inj hq ▸ hx
        · refine hold (h.inside p ?_ q hq)
          simp only [List.mem_append, List.mem_cons, hpx, hpw] at hp ⊢
          tauto
      · rw [heq] at hq
        exact Option.some.inj hq ▸ hx
      · rw [heq] at hq
        exact Option.some.inj hq ▸ hnode
  · rw [haddr, h.stale_moved hlast hm hA ht hright hw hmoves, h.stale, List.length_append]
    show _ ↔ ∃ i < D.length + 1 + 1, Near a i y
    rw [Nat.exists_lt_succ_right, Nat.exists_lt_succ_right,
      or_iff_left fun hnear : Near a (D.length + 1) y =>
        Bool.false_ne_true (hnext.symm.trans hnear.1)]
  · rw [List.length_append]
    exact hnext

end Move

/-! ## The whole sort -/

/-- The list has the cells `L`, each once, in order of their addresses. -/
def InOrder (s : ExtDataList R) (L : List Ptr) : Prop :=
  ∃ F, Path (nextOf s.heap) s.pList F none ∧ F.Perm L ∧
    F.Pairwise fun p r => usAddrOf s.heap p ≤ usAddrOf s.heap r

section Whole

variable {s s' : ExtDataList R} {P Q D A C : List Ptr} {a : List UInt16} {t x node : Ptr}

theorem SortRuns.sameData {p : Option Ptr} (h : SortRuns s p s') : SameData s.heap s'.heap := by
  obtain ⟨fuel, h⟩ := h
  exact sortOuter_sameData h

/-- If the list is in order at the end, the move lost nothing and what was passed then was in
    order. -/
theorem Tight.of_inOrder (h : Tight s (A ++ t :: C) (x :: Q) D a) (hdata : SameData s.heap s'.heap)
    {A' E Q' F : List Ptr} (hQ : E ++ Q' = Q) (hsub : A'.Sublist (A ++ [x]))
    (hF : KeepsOrder s' (A' ++ t :: C ++ E) Q' F) (hin : InOrder s' (D ++ x :: Q)) :
    A' = A ++ [x] ∧
      (A' ++ t :: C ++ E).Pairwise fun p r => usAddrOf s.heap p ≤ usAddrOf s.heap r := by
  obtain ⟨F', hpath, hperm, hsorted⟩ := hin
  obtain rfl := hF.path.unique hpath
  have hlen := hperm.length_eq
  have hle := hF.subperm.length_le
  have hle' := hsub.length_le
  have hPD := h.perm.length_eq
  rw [← hQ] at hlen
  simp only [List.length_append, List.length_cons, List.length_nil] at hlen hle hle' hPD
  have hA : A' = A ++ [x] := hsub.eq_of_length (by
    simp only [List.length_append, List.length_cons, List.length_nil]
    omega)
  have hsubF := hF.order (by
    simp only [List.length_append, List.length_cons]
    omega)
  have haddr : usAddrOf s'.heap = usAddrOf s.heap := funext (usAddrOf_congr hdata)
  rw [haddr] at hsorted
  exact ⟨hA, hsorted.sublist hsubF⟩

/-- From a state without losses on, the sort succeeds if and only if the rest settles. -/
theorem Tight.sorts_iff (h : Tight s P Q D a) (hnode : P.getLast? = some node) :
    ∃ s', SortRuns s (some node) s' ∧ (InOrder s' (D ++ Q) ↔
      ∀ k, D.length ≤ k → k < a.length → moves a k = true → SettlesAt a k) := by
  induction hn : Q.length using Nat.strong_induction_on generalizing s P Q D node with
  | _ n ih =>
    have hne : P ≠ [] := by
      rintro rfl
      exact nomatch hnode
    have hlen : a.length = D.length + Q.length := by
      rw [← h.addrs, List.length_map, List.length_append]
    cases Q with
    | nil =>
      have hloose : Loose s P := List.append_nil P ▸ h.loose
      refine ⟨s, sortRuns_last hloose hnode, iff_of_true ⟨P, hloose.path, ?_, h.sorted⟩
        fun k hk hlt => ?_⟩
      · rw [List.append_nil]
        exact h.perm
      · rw [hlen, List.length_nil] at hlt
        omega
    | cons x Q =>
      rw [List.length_cons] at hn hlen
      have hmoves := h.moves_eq hne
      cases hfind : P.find? fun p => decide (usAddrOf s.heap x ≤ usAddrOf s.heap p) with
      | none =>
        have hP : ∀ p ∈ P, usAddrOf s.heap p < usAddrOf s.heap x := fun p hp =>
          UInt16.not_le.mp (by simpa using List.find?_eq_none.mp hfind p hp)
        obtain ⟨s', hrun, hiff⟩ := ih Q.length (by omega) (h.kept hne hP) List.getLast?_concat rfl
        refine ⟨s', sortRuns_kept h.loose hnode (h.find.trans hfind) hrun, ?_⟩
        rw [List.append_assoc, List.singleton_append, List.length_append] at hiff
        refine hiff.trans ⟨fun hall k hk hlt hmove => ?_, fun hall k hk => hall k (by omega)⟩
        rcases Nat.eq_or_lt_of_le hk with rfl | hk
        · have hfalse := (h.kept hne hP).last
          rw [List.length_append, List.length_singleton, Nat.add_sub_cancel, hmove] at hfalse
          exact nomatch hfalse
        · exact hall k hk hlt hmove
      | some t =>
        obtain ⟨ht, A, C, rfl, hA⟩ := List.find?_eq_some_iff_append.mp hfind
        have ht : usAddrOf s.heap x ≤ usAddrOf s.heap t := of_decide_eq_true ht
        have hA : ∀ p ∈ A, usAddrOf s.heap p < usAddrOf s.heap x := fun p hp =>
          UInt16.not_le.mp (by simpa using hA p hp)
        have hmove : moves a D.length = true := by
          rw [hmoves, List.any_eq_true]
          exact ⟨t, by simp, decide_eq_true ht⟩
        have hlast : (t :: C).getLast? = some node := by
          rwa [List.getLast?_append_of_ne_nil _ (List.cons_ne_nil t C)] at hnode
        obtain ⟨s1, hs⟩ := h.loose.sortAt_isSome hlast
        obtain ⟨hm, -, A', hloose, hsub, hall⟩ := h.loose.moved hlast hs
        have hrunOf {s' : ExtDataList R} (hrun : SortRuns s1 Q.head? s') :=
          sortRuns_moved h.loose hlast (h.find.trans hfind) hs hrun
        cases Q with
        | nil =>
          refine ⟨s1, hrunOf (sortRuns_none s1), ?_⟩
          have hF : KeepsOrder s1 (A' ++ t :: C ++ []) [] (A' ++ t :: C) := by
            rw [List.append_nil] at hloose ⊢
            exact ⟨hloose.path, by rw [List.append_nil], fun _ => List.Sublist.refl _⟩
          constructor
          · intro hin k hk hlt _
            obtain ⟨hA', -⟩ := h.of_inOrder hm.data rfl hsub hF hin
            obtain rfl : k = D.length := by
              rw [hlen, List.length_nil] at hlt
              omega
            exact h.settles_last.mpr ((h.right_iff hA ht).mp (hall.mpr hA'))
          · intro hset
            have hnear := h.settles_last.mp (hset D.length (Nat.le_refl _) (by omega) hmove)
            obtain rfl := hall.mp ((h.right_iff hA ht).mpr hnear)
            have hperm := (perm_moved A (t :: C) [] x).trans (h.perm.append_right [x])
            refine ⟨_, hF.path, by rwa [List.append_nil] at hperm, ?_⟩
            rw [funext (usAddrOf_congr hm.data)]
            exact h.sorted_moved hA ht
        | cons w Q =>
          rw [List.length_cons] at hn hlen
          by_cases hset : SettlesAt a D.length
          · obtain ⟨s', hrun, hiff⟩ := ih Q.length (by omega)
              (h.moved hlast hs hA ht hmove hset) List.getLast?_concat rfl
            refine ⟨s', hrunOf hrun, ?_⟩
            have hassoc : D ++ [x, w] ++ Q = D ++ x :: w :: Q := by simp
            have hnext : moves a (D.length + 1) = false := by
              rw [moves, hmove]
              rfl
            rw [hassoc, List.length_append] at hiff
            refine hiff.trans ⟨fun hall k hk hlt hmovek => ?_,
              fun hall k hk => hall k (Nat.le_trans (Nat.le_add_right _ _) hk)⟩
            -- the one behind is not moved
            rcases Nat.eq_or_lt_of_le hk with rfl | hk
            · exact hset
            · rcases Nat.eq_or_lt_of_le hk with rfl | hk
              · rw [Nat.succ_eq_add_one, hnext] at hmovek
                exact nomatch hmovek
              · exact hall k hk hlt hmovek
          · have hassoc : A' ++ (t :: C ++ w :: Q) = A' ++ t :: C ++ [w] ++ Q := by simp
            obtain ⟨s', F, hrun, hF⟩ := Loose.sorts (hassoc ▸ hloose) List.getLast?_concat
            refine ⟨s', hrunOf hrun, iff_of_false (fun hin => hset ?_)
              fun hall => hset (hall D.length (Nat.le_refl _) (by omega) hmove)⟩
            obtain ⟨hA', hsorted⟩ := h.of_inOrder (hrunOf hrun).sameData
              (List.singleton_append) hsub hF hin
            refine h.settles_iff.mpr ⟨fun p hp => ?_, (h.right_iff hA ht).mp (hall.mpr hA')⟩
            rw [hA'] at hsorted
            refine (List.pairwise_append.mp hsorted).2.2 p ?_ w (List.mem_singleton_self w)
            simp only [List.mem_append, List.mem_cons] at hp ⊢
            tauto

theorem prevsFrom_of_seg {h : Heap (ExtData R)} {prev p last q : Option Ptr} {L : List Ptr}
    (hs : Seg h prev p L last q) : PrevsFrom (prevOf h) prev L := by
  induction L generalizing prev p with
  | nil => trivial
  | cons x L ih =>
    obtain ⟨-, c, hc, hprev, hrest⟩ := hs
    exact ⟨(prevOf_eq hc).trans hprev, ih hrest⟩

/-- Right prev pointers do not lead backwards. -/
theorem PrevsFrom.back {prevs : Ptr → Option Ptr} {prev : Option Ptr} {L : List Ptr}
    (h : PrevsFrom prevs prev L) (hnd : L.Nodup) (hprev : ∀ r ∈ L, prev ≠ some r) :
    L.Pairwise (fun c r => prevs c ≠ some r) ∧ (∀ c ∈ L, prevs c ≠ some c) ∧
      ∀ c ∈ L, ∀ q, prevs c = some q → prev = some q ∨ q ∈ L := by
  induction L generalizing prev with
  | nil => exact ⟨List.Pairwise.nil, by simp, by simp⟩
  | cons x L ih =>
    obtain ⟨hx, hrest⟩ := h
    obtain ⟨hnot, hnd⟩ := List.nodup_cons.mp hnd
    obtain ⟨hback, hself, hin⟩ := ih hrest hnd fun r hr he => hnot (Option.some.inj he ▸ hr)
    refine ⟨List.pairwise_cons.mpr ⟨fun r hr => ?_, hback⟩, fun c hc => ?_, fun c hc q hq => ?_⟩
    · rw [hx]
      exact hprev r (List.mem_cons_of_mem x hr)
    · rcases List.mem_cons.mp hc with rfl | hc
      · rw [hx]
        exact hprev c List.mem_cons_self
      · exact hself c hc
    · rcases List.mem_cons.mp hc with rfl | hc
      · exact .inl (hx.symm.trans hq)
      · rcases hin c hc q hq with he | hqL
        · exact .inr (Option.some.inj he ▸ List.mem_cons_self)
        · exact .inr (List.mem_cons_of_mem x hqL)

theorem loose_of_dList {L : List Ptr} (hd : DList s.heap s.pList L) : Loose s L := by
  have hnd := hd.nodup
  obtain ⟨last, hs⟩ := hd
  obtain ⟨hback, hself, hin⟩ := (prevsFrom_of_seg hs).back hnd fun r _ he => nomatch he
  have halloc {p : Ptr} (hp : p ∈ L) : (s.heap p).isSome = true := by
    obtain ⟨c, hc⟩ := hs.allocated hp
    rw [hc]
    rfl
  refine ⟨hs.path, ⟨fun p hp => halloc hp, fun p hp q hq => ?_⟩, hback, hself⟩
  rcases hin p hp q hq with he | hq
  · exact nomatch he
  · exact halloc hq

/-- The first node is in order. -/
theorem tight_of_dList (hd : DList s.heap s.pList (x :: Q)) :
    Tight s [x] Q [x] ((x :: Q).map (usAddrOf s.heap)) := by
  have hloose := loose_of_dList hd
  obtain ⟨last, hs⟩ := hd
  obtain ⟨hx, hrest⟩ := prevsFrom_of_seg hs
  refine ⟨hloose, List.Perm.refl _, rfl, List.pairwise_singleton _ _, hrest, fun p hp q hq => ?_,
    fun y => iff_of_false ?_ ?_, rfl⟩
  · rw [List.mem_singleton.mp hp, hx] at hq
    exact nomatch hq
  · rw [Stale, Stale]
    split
    · exact id
    · exact fun hne => hne hx
  · rintro ⟨i, hi, hnear⟩
    obtain rfl : i = 0 := Nat.lt_one_iff.mp hi
    exact nomatch hnear.1

/-! ### The variables -/

theorem payloads_usAddr {h : Heap (ExtData R)} {L : List Ptr}
    (hall : ∀ p ∈ L, (h p).isSome = true) :
    (payloads h L).map (fun d => d.xIo.usAddr) = L.map (usAddrOf h) := by
  induction L with
  | nil => rfl
  | cons x L ih =>
    obtain ⟨c, hc⟩ := Option.isSome_iff_exists.mp (hall x List.mem_cons_self)
    rw [payloads_cons hc, List.map_cons, List.map_cons, usAddrOf_eq hc,
      ih fun p hp => hall p (List.mem_cons_of_mem x hp)]

theorem InOrder.isSorted_iff {L F : List Ptr} (hloose : Loose s L) (hdata : SameData s.heap s'.heap)
    (hpath : Path (nextOf s'.heap) s'.pList F none) (hsub : F.Subperm L) :
    InOrder s' L ↔ IsSorted s' (payloads s.heap L) := by
  have hall : ∀ p ∈ F, (s'.heap p).isSome = true := fun p hp =>
    (hdata.isSome p).trans (hloose.alloc.self p (hsub.subset hp))
  have haddrs := payloads_usAddr hall
  have hlen : (payloads s'.heap F).length = F.length := by
    have hlen := congrArg List.length haddrs
    rwa [List.length_map, List.length_map] at hlen
  have hsorted : (payloads s'.heap F).Pairwise (fun d e => d.xIo.usAddr ≤ e.xIo.usAddr) ↔
      F.Pairwise fun p r => usAddrOf s'.heap p ≤ usAddrOf s'.heap r := by
    rw [← List.pairwise_map (f := fun d : ExtData R => d.xIo.usAddr) (R := (· ≤ ·)), haddrs,
      List.pairwise_map]
  constructor
  · rintro ⟨F', hpath', hperm, hF'⟩
    obtain rfl := hpath.unique hpath'
    refine ⟨F, hpath, ?_, hsorted.mpr hF'⟩
    rw [← hdata.payloads]
    exact hperm.filterMap _
  · rintro ⟨F', hpath', hperm, hF'⟩
    obtain rfl := hpath.unique hpath'
    refine ⟨F, hpath, hsub.perm_of_length_le ?_, hsorted.mp hF'⟩
    rw [← hlen, hperm.length_eq]
    have hL := congrArg List.length (payloads_usAddr hloose.alloc.self)
    rw [List.length_map, List.length_map] at hL
    exact Nat.le_of_eq hL.symm

/-- The sort of a well-formed list comes back, and leaves its variables in order if and only if
    they settle. -/
theorem sorted_iff {vars : List (ExtData R)} (h : Represents s vars) :
    (∃ s', Step s .sortExtdataLink s') ∧
      ∀ s', Step s .sortExtdataLink s' →
        (IsSorted s' vars ↔ Settles (vars.map fun d => d.xIo.usAddr)) := by
  obtain ⟨L, hd, -, rfl⟩ := h
  cases L with
  | nil =>
    have hnull : s.pList = none := hd.head_eq
    have hstep {s' : ExtDataList R} : Step s .sortExtdataLink s' ↔ s' = s := by
      unfold Step sortExtdataLink
      rw [hnull]
      exact ⟨fun ⟨_, h⟩ => (Option.some.inj h).symm, fun h => ⟨0, by rw [h]⟩⟩
    refine ⟨⟨s, hstep.mpr rfl⟩, fun s' hs' => ?_⟩
    obtain rfl := hstep.mp hs'
    refine iff_of_true ⟨[], hnull, List.Perm.refl _, List.Pairwise.nil⟩ fun k hk => ?_
    exact absurd hk (Nat.not_lt_zero k)
  | cons x Q =>
    have hhead : s.pList = some x := hd.head_eq
    have hloose := loose_of_dList hd
    have hstep {s' : ExtDataList R} : Step s .sortExtdataLink s' ↔ SortRuns s (some x) s' := by
      unfold Step sortExtdataLink SortRuns
      rw [hhead]
    obtain ⟨s1, hrun, hiff⟩ := (tight_of_dList hd).sorts_iff rfl
    obtain ⟨s2, F, hrun2, hF⟩ := Loose.sorts (P := [x]) (Q := Q) hloose rfl
    obtain rfl := hrun.unique hrun2
    refine ⟨⟨s1, hstep.mpr hrun⟩, fun s' hs' => ?_⟩
    obtain rfl := hrun.unique (hstep.mp hs')
    rw [← InOrder.isSorted_iff hloose hrun.sameData hF.path hF.subperm,
      payloads_usAddr hloose.alloc.self]
    refine hiff.trans ⟨fun hall k hlt hmove => ?_, fun hall k _ => hall k⟩
    cases k with
    | zero => exact nomatch hmove
    | succ k => exact hall (k + 1) (Nat.succ_le_succ (Nat.zero_le k)) hlt hmove

end Whole

/-! ## Three variables in descending order -/

theorem pairList_sorted :
    ∃ s', Step (pairList 2 1) .sortExtdataLink s' ∧
      IsSorted s' [namedVar nameA 2, namedVar nameB 1] := by
  obtain ⟨⟨s', hstep⟩, hiff⟩ := sorted_iff (pairList_represents 2 1)
  exact ⟨s', hstep, (hiff s' hstep).mpr (by decide)⟩

/-- `pairList` with a third variable. -/
def tripleList (a b c : UInt16) : ExtDataList Unit where
  heap := fun p =>
    if p = 0 then some { data := namedVar nameA a, next := some 1, prev := none }
    else if p = 1 then some { data := namedVar nameB b, next := some 2, prev := some 0 }
    else if p = 2 then some { data := namedVar [99] c, next := none, prev := some 1 }
    else none
  n := 3
  pList := some 0

theorem tripleList_represents (a b c : UInt16) :
    Represents (tripleList a b c) [namedVar nameA a, namedVar nameB b, namedVar [99] c] :=
  ⟨[0, 1, 2], ⟨some 2, rfl, _, rfl, rfl, rfl, _, rfl, rfl, rfl, _, rfl, rfl, rfl, rfl⟩, rfl, rfl⟩

/-- The second variable is moved to the front, and the third one is not looked at. -/
theorem descending_not_sorted :
    Represents (tripleList 2 1 0) [namedVar nameA 2, namedVar nameB 1, namedVar [99] 0] ∧
      ¬ ∃ s', Step (tripleList 2 1 0) .sortExtdataLink s' ∧
        IsSorted s' [namedVar nameA 2, namedVar nameB 1, namedVar [99] 0] := by
  refine ⟨tripleList_represents 2 1 0, ?_⟩
  rintro ⟨s', hstep, L, hpath, -, hsorted⟩
  have hlinks : (sortExtdataLink 4 (tripleList 2 1 0)).map (fun s =>
      (s.pList, nextOf s.heap 1, nextOf s.heap 0, nextOf s.heap 2)) =
        some (some 1, some 0, some 2, none) := rfl
  obtain ⟨s1, hs1, hlinks⟩ := Option.map_eq_some_iff.mp hlinks
  obtain rfl : s1 = s' := SortRuns.unique (p := some 0) (s := tripleList 2 1 0) ⟨4, hs1⟩ hstep
  simp only [Prod.mk.injEq] at hlinks
  obtain ⟨hhead, hnext1, hnext0, hnext2⟩ := hlinks
  have hpath' : Path (nextOf s1.heap) s1.pList [1, 0, 2] none :=
    ⟨hhead, hnext1, hnext0, hnext2⟩
  obtain rfl := hpath.unique hpath'
  -- the second variable of the list has the address 2, the third one 0
  rw [(sortExtdataLink_sameData hs1).payloads] at hsorted
  have hpair := (List.pairwise_cons.mp (List.pairwise_cons.mp hsorted).2).1
    (namedVar [99] 0) (List.mem_singleton_self _)
  exact absurd hpair (by decide)

end K64Gateway.VarManage
