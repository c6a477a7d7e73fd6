import K64Gateway.Lib.Path
import K64Gateway.VarManage.ExtDataLink

/-
  One pass of `__sort_extdata_link`, over a list whose prev pointers may be wrong. A node that is
  moved gets the prev of the node it is moved in front of, but the prev of that node and of the one
  behind it is wrong from then on; where such a prev is used, nodes are lost.

  Proved: the passes never leave the list (`Loose`), so the sort always comes back, and a node that
  is lost or stands behind a greater one stays so (`sortOuter_keepsOrder`).
-/

namespace K64Gateway.VarManage

open LinkedHeap

variable {R : Type}

/-! ## The inner loop -/

/-- The address of the variable in a cell. -/
def usAddrOf (h : Heap (ExtData R)) (p : Ptr) : UInt16 :=
  match h p with
  | some c => c.data.xIo.usAddr
  | none => 0

/-- The tests of the inner loop at `tmp`. -/
def fitsAt (h : Heap (ExtData R)) (next tmp : Ptr) : Bool :=
  match prevOf h tmp with
  | some prev => decide (usAddrOf h next ≥ usAddrOf h prev) &&
      decide (usAddrOf h next ≤ usAddrOf h tmp)
  | none => decide (usAddrOf h next ≤ usAddrOf h tmp)

/-- What the loop does where a test holds. -/
def sortAt (node next tmp : Ptr) (s : ExtDataList R) (top : Option Ptr) :
    Option (ExtDataList R × Option Ptr) := do
  let ctmp ← s.heap tmp
  let h ← sortMove s.heap node next tmp
  match ctmp.prev with
  | some _ => do
      let ctmp ← h tmp
      let prev ← ctmp.prev
      let h ← setNext h prev (some next)
      let h ← sortTail h next tmp
      some ({ s with heap := h }, top)
  | none => do
      let h ← sortTail h next tmp
      some ({ s with heap := h, pList := some next }, some next)

/-- The cells and those that their prev pointers lead to are allocated. -/
structure Allocated (h : Heap (ExtData R)) (L : List Ptr) : Prop where
  self : ∀ p ∈ L, (h p).isSome = true
  prev : ∀ p ∈ L, ∀ q, prevOf h p = some q → (h q).isSome = true

theorem usAddrOf_eq {h : Heap (ExtData R)} {p : Ptr} {c : Cell (ExtData R)} (hc : h p = some c) :
    usAddrOf h p = c.data.xIo.usAddr := by
  unfold usAddrOf
  rw [hc]

theorem usAddrOf_congr {h h' : Heap (ExtData R)} (hsame : SameData h h') (p : Ptr) :
    usAddrOf h' p = usAddrOf h p := by
  have hp := hsame p
  unfold usAddrOf
  cases hc : h p with
  | none =>
    rw [hc, Option.map_none, Option.map_eq_none_iff] at hp
    rw [hp]
  | some c =>
    rw [hc, Option.map_some, Option.map_eq_some_iff] at hp
    obtain ⟨c', hc', hd⟩ := hp
    rw [hc']
    dsimp only
    rw [hd]

/-- The inner loop stops at the first node with a test that holds. -/
theorem sortInner_eq {s : ExtDataList R} {node next : Ptr} {top p : Option Ptr} {M : List Ptr}
    (hpath : Path (nextOf s.heap) p M (some next)) (hnot : next ∉ M)
    (hnext : (s.heap next).isSome = true) (halloc : Allocated s.heap M) (fuel : Nat)
    (hfuel : M.length < fuel) :
    sortInner node next fuel s top p =
      match M.find? (fitsAt s.heap next) with
      | some tmp => sortAt node next tmp s top
      | none => some (s, top) := by
  induction M generalizing p fuel with
  | nil =>
    obtain ⟨fuel, rfl⟩ := Nat.exists_eq_succ_of_ne_zero (Nat.ne_zero_of_lt hfuel)
    have hp : p = some next := hpath
    unfold sortInner
    rw [if_pos hp]
    rfl
  | cons t M ih =>
    obtain ⟨fuel, rfl⟩ := Nat.exists_eq_succ_of_ne_zero (Nat.ne_zero_of_lt hfuel)
    obtain ⟨rfl, hrest⟩ := hpath
    rw [List.mem_cons, not_or] at hnot
    obtain ⟨ct, hct⟩ := Option.isSome_iff_exists.mp (halloc.self t List.mem_cons_self)
    obtain ⟨cn, hcn⟩ := Option.isSome_iff_exists.mp hnext
    rw [nextOf_eq hct] at hrest
    have hrest := ih hrest hnot.2
      ⟨fun q hq => halloc.self q (List.mem_cons_of_mem t hq),
        fun q hq => halloc.prev q (List.mem_cons_of_mem t hq)⟩
      fuel (by rw [List.length_cons] at hfuel; omega)
    unfold sortInner
    rw [if_neg fun he => hnot.1 (Option.some.inj he).symm]
    simp only [Option.bind_eq_bind, Option.bind_some, hct, hcn]
    rw [List.find?_cons]
    cases hq : ct.prev with
    | none =>
      have hfits : fitsAt s.heap next t = decide (cn.data.xIo.usAddr ≤ ct.data.xIo.usAddr) := by
        unfold fitsAt
        rw [prevOf_eq hct, hq, usAddrOf_eq hct, usAddrOf_eq hcn]
      rw [hfits]
      dsimp only
      split
      · next hle =>
        rw [decide_eq_true hle]
        unfold sortAt
        simp only [hct, hq, Option.bind_eq_bind, Option.bind_some]
      · next hle =>
        rw [decide_eq_false hle]
        exact hrest
    | some q =>
      obtain ⟨cq, hcq⟩ := Option.isSome_iff_exists.mp
        (halloc.prev t List.mem_cons_self q (by rw [prevOf_eq hct, hq]))
      have hfits : fitsAt s.heap next t = (decide (cn.data.xIo.usAddr ≥ cq.data.xIo.usAddr) &&
          decide (cn.data.xIo.usAddr ≤ ct.data.xIo.usAddr)) := by
        unfold fitsAt
        rw [prevOf_eq hct, hq, usAddrOf_eq hct, usAddrOf_eq hcn]
        dsimp only
        rw [usAddrOf_eq hcq]
      rw [hfits, ← Bool.decide_and]
      simp only [hcq, Option.bind_some]
      split
      · next hle =>
        rw [decide_eq_true hle]
        unfold sortAt
        simp only [hct, hq, Option.bind_eq_bind, Option.bind_some]
      · next hle =>
        rw [decide_eq_false hle]
        exact hrest

/-- With less fuel it does not come back. -/
theorem sortInner_some {s : ExtDataList R} {node next : Ptr} {top p : Option Ptr} {M : List Ptr}
    (hpath : Path (nextOf s.heap) p M (some next)) (hnot : next ∉ M)
    (hnext : (s.heap next).isSome = true) (halloc : Allocated s.heap M) {fuel : Nat}
    {r : ExtDataList R × Option Ptr} (hr : sortInner node next fuel s top p = some r) :
    (match M.find? (fitsAt s.heap next) with
      | some tmp => sortAt node next tmp s top
      | none => some (s, top)) = some r := by
  have hmono := sortInner_mono hr (M.length + 1)
  rwa [sortInner_eq hpath hnot hnext halloc _ (by omega)] at hmono

/-! ## A move -/

/-- The cell behind `tmp` once `next` is taken out of its place. -/
def behind (h : Heap (ExtData R)) (node next tmp : Ptr) : Option Ptr :=
  if tmp = node then nextOf h next else nextOf h tmp

/-- The links after `next` was moved in front of `tmp`. -/
structure Moved (h h' : Heap (ExtData R)) (node next tmp : Ptr) : Prop where
  data : SameData h h'
  nodeNext : nextOf h' node = nextOf h next
  nextNext : nextOf h' next = some tmp
  frontNext : ∀ q, prevOf h tmp = some q → nextOf h' q = some next
  otherNext : ∀ p, p ≠ node → p ≠ next → prevOf h tmp ≠ some p → nextOf h' p = nextOf h p
  nextPrev : prevOf h' next = prevOf h tmp
  behindPrev : ∀ u, behind h node next tmp = some u → prevOf h' u = some next
  restPrev : ∀ w, nextOf h next = some w → behind h node next tmp ≠ some w → prevOf h' w = some node
  otherPrev : ∀ p, p ≠ next → nextOf h next ≠ some p → behind h node next tmp ≠ some p →
    prevOf h' p = prevOf h p

/-- The cells of a move are different ones, but for `node` and `tmp`. -/
structure Movable (h : Heap (ExtData R)) (node next tmp : Ptr) : Prop where
  nodeNe : node ≠ next
  tmpNe : tmp ≠ next
  restNext : nextOf h next ≠ some next
  restTmp : nextOf h next ≠ some tmp
  behindNext : behind h node next tmp ≠ some next
  prevNext : prevOf h tmp ≠ some next
  prevNode : prevOf h tmp ≠ some node
  prevTmp : prevOf h tmp ≠ some tmp

theorem sortMove_links {h h' : Heap (ExtData R)} {node next tmp : Ptr}
    (hm : Movable h node next tmp) (hs : sortMove h node next tmp = some h') :
    nextOf h' = Function.update (Function.update (nextOf h) node (nextOf h next)) next (some tmp) ∧
      prevOf h' next = prevOf h tmp ∧ (∀ w, nextOf h next = some w → prevOf h' w = some node) ∧
        ∀ p, p ≠ next → nextOf h next ≠ some p → prevOf h' p = prevOf h p := by
  simp only [sortMove, Option.bind_eq_bind, Option.bind_eq_some_iff] at hs
  obtain ⟨cn, hcn, h1, hs1, cn1, hcn1, h2, hs2, h3, hs3, ct, hct, hs4⟩ := hs
  have hnext : cn.next = nextOf h next := (nextOf_eq hcn).symm
  have hnext1 : cn1.next = nextOf h next := by
    rw [← nextOf_eq hcn1, nextOf_setNext hs1, Function.update_of_ne hm.nodeNe.symm]
  rw [hnext] at hs1
  rw [hnext1] at hs2
  have hprev2 {p : Ptr} (hp : nextOf h next ≠ some p) : prevOf h2 p = prevOf h p := by
    rw [prevOf_setPrevIf_of_ne hs2 hp, prevOf_setNext hs1]
  have hprev3 : ct.prev = prevOf h tmp := by
    rw [← prevOf_eq hct, prevOf_setNext hs3, hprev2 hm.restTmp]
  rw [hprev3] at hs4
  refine ⟨?_, ?_, fun w hw => ?_, fun p hp hw => ?_⟩
  · rw [nextOf_setPrev hs4, nextOf_setNext hs3, nextOf_setPrevIf hs2, nextOf_setNext hs1]
  · rw [prevOf_setPrev hs4, Function.update_self]
  · rw [prevOf_setPrev hs4, Function.update_of_ne (fun he => hm.restNext (by rw [hw, he])),
      prevOf_setNext hs3]
    rw [hw] at hs2
    exact prevOf_setPrevIf_self hs2
  · rw [prevOf_setPrev hs4, Function.update_of_ne hp, prevOf_setNext hs3, hprev2 hw]

theorem sortTail_links {h h' : Heap (ExtData R)} {next tmp : Ptr}
    (hs : sortTail h next tmp = some h') :
    nextOf h' = nextOf h ∧ (∀ u, nextOf h tmp = some u → prevOf h' u = some next) ∧
      ∀ p, nextOf h tmp ≠ some p → prevOf h' p = prevOf h p := by
  simp only [sortTail, Option.bind_eq_bind, Option.bind_eq_some_iff] at hs
  obtain ⟨ct, hct, hs⟩ := hs
  rw [← nextOf_eq hct] at hs
  refine ⟨nextOf_setPrevIf hs, fun u hu => ?_, fun p hp => prevOf_setPrevIf_of_ne hs hp⟩
  rw [hu] at hs
  exact prevOf_setPrevIf_self hs

theorem sortAt_moved {s s' : ExtDataList R} {node next tmp : Ptr} {top top' : Option Ptr}
    (hm : Movable s.heap node next tmp) (hs : sortAt node next tmp s top = some (s', top')) :
    Moved s.heap s'.heap node next tmp ∧
      top' = (if prevOf s.heap tmp = none then some next else top) ∧
        s'.pList = if prevOf s.heap tmp = none then some next else s.pList := by
  unfold sortAt at hs
  simp only [Option.bind_eq_bind, Option.bind_eq_some_iff] at hs
  obtain ⟨ct, hct, h1, hmove, hs⟩ := hs
  obtain ⟨hnext1, hprevNext, hprevRest, hprevOther⟩ := sortMove_links hm hmove
  have hq : ct.prev = prevOf s.heap tmp := (prevOf_eq hct).symm
  -- the heap before `tmp->next->prev` is set
  obtain ⟨h2, htail, hdata2, hnode2, hnext2, hfront2, hother2, hprev2, hs', htop⟩ :
      ∃ h2, sortTail h2 next tmp = some s'.heap ∧ SameData s.heap h2 ∧
        nextOf h2 node = nextOf s.heap next ∧ nextOf h2 next = some tmp ∧
        (∀ q, prevOf s.heap tmp = some q → nextOf h2 q = some next) ∧
        (∀ p, p ≠ node → p ≠ next → prevOf s.heap tmp ≠ some p →
          nextOf h2 p = nextOf s.heap p) ∧
        prevOf h2 = prevOf h1 ∧
        s'.pList = (if prevOf s.heap tmp = none then some next else s.pList) ∧
        top' = if prevOf s.heap tmp = none then some next else top := by
    rw [hq] at hs
    cases hprev : prevOf s.heap tmp with
    | none =>
      rw [hprev] at hs
      simp only [Option.bind_eq_some_iff] at hs
      obtain ⟨h2, htail, hs⟩ := hs
      obtain ⟨rfl, rfl⟩ := Prod.mk.inj (Option.some.inj hs)
      refine ⟨h1, htail, sortMove_sameData hmove, ?_, ?_, fun q hq => absurd hq.symm (by simp),
        fun p hpn hpx _ => ?_, rfl, rfl, rfl⟩
      · rw [hnext1, Function.update_of_ne hm.nodeNe, Function.update_self]
      · rw [hnext1, Function.update_self]
      · rw [hnext1, Function.update_of_ne hpx, Function.update_of_ne hpn]
    | some q =>
      rw [hprev] at hs
      simp only [Option.bind_eq_some_iff] at hs
      obtain ⟨ct1, hct1, q1, hq1, h2, hset, h3, htail, hs⟩ := hs
      obtain ⟨rfl, rfl⟩ := Prod.mk.inj (Option.some.inj hs)
      obtain rfl : q1 = q := by
        rw [← prevOf_eq hct1, hprevOther tmp hm.tmpNe hm.restTmp, hprev] at hq1
        exact (Option.some.inj hq1).symm
      have hqn : node ≠ q1 := fun he => hm.prevNode (by rw [hprev, he])
      have hqx : next ≠ q1 := fun he => hm.prevNext (by rw [hprev, he])
      refine ⟨h2, htail, (sortMove_sameData hmove).trans (SameData.setNext hset), ?_, ?_,
        fun q hq => ?_, fun p hpn hpx hpq => ?_, prevOf_setNext hset, rfl, rfl⟩
      · rw [nextOf_setNext hset, Function.update_of_ne hqn, hnext1, Function.update_of_ne hm.nodeNe,
          Function.update_self]
      · rw [nextOf_setNext hset, Function.update_of_ne hqx, hnext1, Function.update_self]
      · rw [← Option.some.inj hq, nextOf_setNext hset, Function.update_self]
      · rw [nextOf_setNext hset, Function.update_of_ne (fun he => hpq (by rw [he])), hnext1,
          Function.update_of_ne hpx, Function.update_of_ne hpn]
  obtain ⟨hnextTail, hafter, hkeep⟩ := sortTail_links htail
  have hbehind : nextOf h2 tmp = behind s.heap node next tmp := by
    unfold behind
    split
    · next he => rw [he, hnode2]
    · next hne => exact hother2 tmp hne hm.tmpNe hm.prevTmp
  rw [hbehind] at hafter hkeep
  refine ⟨⟨hdata2.trans (sortTail_sameData htail), by rw [hnextTail, hnode2], by rw [hnextTail, hnext2],
    fun q hq => by rw [hnextTail, hfront2 q hq],
    fun p hpn hpx hpq => by rw [hnextTail, hother2 p hpn hpx hpq], ?_, hafter, ?_, ?_⟩, htop, hs'⟩
  · rw [hkeep next hm.behindNext, hprev2, hprevNext]
  · intro w hw hne
    rw [hkeep w hne, hprev2, hprevRest w hw]
  · intro p hpx hpw hpu
    rw [hkeep p hpu, hprev2, hprevOther p hpx hpw]

theorem sortMove_total {h : Heap (ExtData R)} {node next tmp : Ptr} (hm : Movable h node next tmp)
    (hnode : (h node).isSome = true) (hnext : (h next).isSome = true)
    (htmp : (h tmp).isSome = true)
    (hrest : ∀ w, nextOf h next = some w → (h w).isSome = true) :
    ∃ h', sortMove h node next tmp = some h' := by
  obtain ⟨cn, hcn⟩ := Option.isSome_iff_exists.mp hnext
  obtain ⟨h1, hs1⟩ := setNext_isSome hnode cn.next
  have hd1 := SameData.setNext hs1
  obtain ⟨cn1, hcn1⟩ := Option.isSome_iff_exists.mp ((hd1.isSome next).trans hnext)
  have hnext1 : cn1.next = nextOf h next := by
    rw [← nextOf_eq hcn1, nextOf_setNext hs1, Function.update_of_ne hm.nodeNe.symm]
  obtain ⟨h2, hs2⟩ := setPrevIf_isSome (h := h1) (p := cn1.next) (fun w hw =>
    (hd1.isSome w).trans (hrest w (hnext1.symm.trans hw))) (some node)
  have hd2 := hd1.trans (SameData.setPrevIf hs2)
  obtain ⟨h3, hs3⟩ := setNext_isSome ((hd2.isSome next).trans hnext) (some tmp)
  have hd3 := hd2.trans (SameData.setNext hs3)
  obtain ⟨ct, hct⟩ := Option.isSome_iff_exists.mp ((hd3.isSome tmp).trans htmp)
  obtain ⟨h4, hs4⟩ := setPrev_isSome ((hd3.isSome next).trans hnext) ct.prev
  refine ⟨h4, ?_⟩
  simp only [sortMove, Option.bind_eq_bind, Option.bind_some, hcn, hs1, hcn1, hs2, hs3, hct, hs4]

theorem sortTail_total {h : Heap (ExtData R)} {tmp : Ptr} (next : Ptr)
    (htmp : (h tmp).isSome = true)
    (hbehind : ∀ u, nextOf h tmp = some u → (h u).isSome = true) :
    ∃ h', sortTail h next tmp = some h' := by
  obtain ⟨ct, hct⟩ := Option.isSome_iff_exists.mp htmp
  obtain ⟨h', hs⟩ := setPrevIf_isSome (fun u hu => hbehind u ((nextOf_eq hct).trans hu))
    (some next)
  refine ⟨h', ?_⟩
  simp only [sortTail, Option.bind_eq_bind, Option.bind_some, hct, hs]

theorem sortAt_total {s : ExtDataList R} {node next tmp : Ptr} (top : Option Ptr)
    (hm : Movable s.heap node next tmp) (hnode : (s.heap node).isSome = true)
    (hnext : (s.heap next).isSome = true) (htmp : (s.heap tmp).isSome = true)
    (hrest : ∀ w, nextOf s.heap next = some w → (s.heap w).isSome = true)
    (hbehind : ∀ u, nextOf s.heap tmp = some u → (s.heap u).isSome = true)
    (hprev : ∀ q, prevOf s.heap tmp = some q → (s.heap q).isSome = true) :
    ∃ r, sortAt node next tmp s top = some r := by
  obtain ⟨ct, hct⟩ := Option.isSome_iff_exists.mp htmp
  obtain ⟨h1, hmove⟩ := sortMove_total hm hnode hnext htmp hrest
  have hd1 := sortMove_sameData hmove
  obtain ⟨hnext1, -, -, hother⟩ := sortMove_links hm hmove
  have hbehind1 : ∀ u, nextOf h1 tmp = some u → (s.heap u).isSome = true := by
    intro u hu
    rw [hnext1, Function.update_of_ne hm.tmpNe] at hu
    by_cases he : tmp = node
    · rw [he, Function.update_self] at hu
      exact hrest u hu
    · rw [Function.update_of_ne he] at hu
      exact hbehind u hu
  unfold sortAt
  simp only [Option.bind_eq_bind, Option.bind_some, hct, hmove]
  cases hq : ct.prev with
  | none =>
    obtain ⟨h2, htail⟩ := sortTail_total next ((hd1.isSome tmp).trans htmp)
      fun u hu => (hd1.isSome u).trans (hbehind1 u hu)
    refine ⟨({ s with heap := h2, pList := some next }, some next), ?_⟩
    simp only [htail, Option.bind_some]
  | some q =>
    have hprevq : prevOf s.heap tmp = some q := (prevOf_eq hct).trans hq
    obtain ⟨ct1, hct1⟩ := Option.isSome_iff_exists.mp ((hd1.isSome tmp).trans htmp)
    have hq1 : ct1.prev = some q := by
      rw [← prevOf_eq hct1, hother tmp hm.tmpNe hm.restTmp, hprevq]
    obtain ⟨h2, hset⟩ := setNext_isSome ((hd1.isSome q).trans (hprev q hprevq)) (some next)
    have hd2 := hd1.trans (SameData.setNext hset)
    have hqt : tmp ≠ q := fun he => hm.prevTmp (by rw [hprevq, he])
    obtain ⟨h3, htail⟩ := sortTail_total next ((hd2.isSome tmp).trans htmp) fun u hu => by
      rw [nextOf_setNext hset, Function.update_of_ne hqt] at hu
      exact (hd2.isSome u).trans (hbehind1 u hu)
    refine ⟨({ s with heap := h3 }, top), ?_⟩
    simp only [hct1, hq1, hset, htail, Option.bind_some]

/-! ## Lists with wrong prev pointers -/

/-- The next pointers lead through `L`, and no prev pointer leads to its own cell or to one behind
    it; it may lead to a cell that is not on the list any more. -/
structure Loose (s : ExtDataList R) (L : List Ptr) : Prop where
  path : Path (nextOf s.heap) s.pList L none
  alloc : Allocated s.heap L
  back : L.Pairwise fun c r => prevOf s.heap c ≠ some r
  self : ∀ c ∈ L, prevOf s.heap c ≠ some c

section Pass

variable {s : ExtDataList R} {A C Q : List Ptr} {t x node : Ptr}

theorem Loose.paths (h : Loose s (A ++ t :: C ++ x :: Q)) :
    Path (nextOf s.heap) s.pList A (some t) ∧ Path (nextOf s.heap) (some t) (t :: C) (some x) ∧
      Path (nextOf s.heap) (nextOf s.heap x) Q none := by
  obtain ⟨r, hP, hX⟩ := path_append.mp h.path
  obtain ⟨r', hA, hT⟩ := path_append.mp hP
  obtain rfl := hX.1
  obtain rfl := hT.1
  exact ⟨hA, hT, hX.2⟩

theorem Loose.nodup (h : Loose s (A ++ t :: C ++ x :: Q)) :
    A.Nodup ∧ (t :: C).Nodup ∧ Q.Nodup ∧ x ∉ A ∧ x ∉ t :: C ∧ x ∉ Q ∧
      (∀ c ∈ A, c ∉ t :: C) ∧ (∀ c ∈ A, c ∉ Q) ∧ ∀ c ∈ t :: C, c ∉ Q := by
  obtain ⟨hP, hX, hPX⟩ := List.nodup_append.mp h.path.nodup
  obtain ⟨hA, hT, hAT⟩ := List.nodup_append.mp hP
  obtain ⟨hxQ, hQ⟩ := List.nodup_cons.mp hX
  refine ⟨hA, hT, hQ, fun hx => ?_, fun hx => ?_, hxQ, fun c hc hc' => hAT c hc c hc' rfl,
    fun c hc hc' => ?_, fun c hc hc' => ?_⟩
  · exact hPX x (List.mem_append_left _ hx) x List.mem_cons_self rfl
  · exact hPX x (List.mem_append_right _ hx) x List.mem_cons_self rfl
  · exact hPX c (List.mem_append_left _ hc) c (List.mem_cons_of_mem x hc') rfl
  · exact hPX c (List.mem_append_right _ hc) c (List.mem_cons_of_mem x hc') rfl

/-- What is behind `tmp` is a node between it and `next`, or the first one behind `next`. -/
theorem Loose.behind_mem (h : Loose s (A ++ t :: C ++ x :: Q)) (hlast : (t :: C).getLast? = some node)
    {u : Ptr} (hu : behind s.heap node x t = some u) : u ∈ C ++ Q := by
  obtain ⟨-, hT, hQ⟩ := h.paths
  obtain ⟨-, hnd, -⟩ := h.nodup
  unfold behind at hu
  split at hu
  · rw [hQ.head_eq] at hu
    exact List.mem_append_right C (List.mem_of_head? hu)
  · next hne =>
    cases C with
    | nil => exact absurd (Option.some.inj hlast) hne
    | cons c C =>
      obtain ⟨-, hc⟩ := hT
      rw [hc.1] at hu
      rw [← Option.some.inj hu]
      exact List.mem_append_left Q List.mem_cons_self

theorem Loose.movable (h : Loose s (A ++ t :: C ++ x :: Q)) (hlast : (t :: C).getLast? = some node) :
    Movable s.heap node x t := by
  obtain ⟨-, hT, hQ⟩ := h.paths
  obtain ⟨-, hnd, -, -, hxT, hxQ, -, -, hTQ⟩ := h.nodup
  have hnode : node ∈ t :: C := List.mem_of_getLast? hlast
  have ht : t ∈ t :: C := List.mem_cons_self
  obtain ⟨hback, -, hcross⟩ := List.pairwise_append.mp h.back
  have htx := hcross t (List.mem_append_right A ht) x List.mem_cons_self
  have hself := h.self t (by simp)
  refine ⟨fun he => hxT (he ▸ hnode), fun he => hxT (he ▸ ht), fun he => ?_, fun he => ?_,
    fun he => ?_, htx, fun he => ?_, hself⟩
  · rw [hQ.head_eq] at he
    exact hxQ (List.mem_of_head? he)
  · rw [hQ.head_eq] at he
    exact hTQ t ht (List.mem_of_head? he)
  · rcases List.mem_append.mp (h.behind_mem hlast he) with hx | hx
    · exact hxT (List.mem_cons_of_mem t hx)
    · exact hxQ hx
  · rcases List.mem_cons.mp hnode with rfl | hnode
    · exact hself he
    · obtain ⟨-, hback, -⟩ := List.pairwise_append.mp hback
      exact (List.pairwise_cons.mp hback).1 node hnode he

/-- The prev pointers after the move. -/
theorem Loose.prev_cases (h : Loose s (A ++ t :: C ++ x :: Q)) {h' : Heap (ExtData R)}
    (hlast : (t :: C).getLast? = some node) (hm : Moved s.heap h' node x t) {c : Ptr}
    (hc : c ∈ A ++ t :: C ++ Q) :
    prevOf h' c = prevOf s.heap c ∨ (c ∈ C ++ Q ∧ prevOf h' c = some x) ∨
      (c ∈ Q ∧ prevOf h' c = some node) := by
  obtain ⟨-, -, hQ⟩ := h.paths
  obtain ⟨-, -, -, hxA, hxT, hxQ, -, -, -⟩ := h.nodup
  by_cases hu : behind s.heap node x t = some c
  · exact .inr (.inl ⟨h.behind_mem hlast hu, hm.behindPrev c hu⟩)
  · by_cases hw : nextOf s.heap x = some c
    · refine .inr (.inr ⟨?_, hm.restPrev c hw hu⟩)
      rw [hQ.head_eq] at hw
      exact List.mem_of_head? hw
    · refine .inl (hm.otherPrev c ?_ hw hu)
      rintro rfl
      rcases List.mem_append.mp hc with hc | hc
      · rcases List.mem_append.mp hc with hc | hc
        · exact hxA hc
        · exact hxT hc
      · exact hxQ hc

/-- The prev pointers of the nodes in front of the moved one, and that of `tmp`, stay. -/
theorem Loose.prev_front (h : Loose s (A ++ t :: C ++ x :: Q)) {h' : Heap (ExtData R)}
    (hlast : (t :: C).getLast? = some node) (hm : Moved s.heap h' node x t) {c : Ptr}
    (hc : c ∈ A ++ [t]) : prevOf h' c = prevOf s.heap c := by
  obtain ⟨-, hT, -, -, -, -, hAT, hAQ, hTQ⟩ := h.nodup
  have hout : c ∉ C ++ Q := by
    rw [List.mem_append, not_or]
    rcases List.mem_append.mp hc with hA | ht
    · exact ⟨fun hC => hAT c hA (List.mem_cons_of_mem t hC), hAQ c hA⟩
    · rw [List.mem_singleton.mp ht]
      exact ⟨(List.nodup_cons.mp hT).1, hTQ t List.mem_cons_self⟩
  have hmem : c ∈ A ++ t :: C ++ Q := by
    rcases List.mem_append.mp hc with hA | ht
    · simp [hA]
    · simp [List.mem_singleton.mp ht]
  rcases h.prev_cases hlast hm hmem with heq | ⟨hin, -⟩ | ⟨hin, -⟩
  · exact heq
  · exact absurd hin hout
  · exact absurd (List.mem_append_right C hin) hout

/-- Over all cells, with `next` in its new place, no prev pointer leads backwards. -/
theorem Loose.moved_back (h : Loose s (A ++ t :: C ++ x :: Q)) {h' : Heap (ExtData R)}
    (hlast : (t :: C).getLast? = some node) (hm : Moved s.heap h' node x t) :
    (A ++ x :: (t :: C ++ Q)).Pairwise (fun c r => prevOf h' c ≠ some r) ∧
      ∀ c ∈ A ++ x :: (t :: C ++ Q), prevOf h' c ≠ some c := by
  obtain ⟨-, hndT, -, hxA, hxT, hxQ, -, -, hTQ⟩ := h.nodup
  have hnode : node ∈ t :: C := List.mem_of_getLast? hlast
  have hmv := h.movable hlast
  obtain ⟨hP, hX, hPX⟩ := List.pairwise_append.mp h.back
  obtain ⟨hA, hT, hAT⟩ := List.pairwise_append.mp hP
  have hcases {c : Ptr} (hc : c ∈ t :: C ++ Q) := h.prev_cases hlast hm (c := c) (by
    rw [List.append_assoc]
    exact List.mem_append_right A hc)
  constructor
  · refine List.pairwise_append.mpr ⟨hA.imp_of_mem fun hc _ hne => ?_,
      List.pairwise_cons.mpr ⟨fun r hr => ?_, List.pairwise_append.mpr
        ⟨hT.imp_of_mem fun hc hr hne => ?_, ?_, fun c hc r hr => ?_⟩⟩, fun c hc r hr => ?_⟩
    · rwa [h.prev_front hlast hm (List.mem_append_left [t] hc)]
    · -- the moved node has the prev of `tmp`
      rw [hm.nextPrev]
      rcases List.mem_append.mp hr with hr | hr
      · rcases List.mem_cons.mp hr with rfl | hr
        · exact hmv.prevTmp
        · exact (List.pairwise_cons.mp hT).1 r hr
      · exact hPX t (by simp) r (List.mem_cons_of_mem x hr)
    · rcases hcases (List.mem_append_left Q hc) with heq | ⟨-, heq⟩ | ⟨hQ, -⟩
      · rwa [heq]
      · rw [heq]
        exact fun he => hxT (Option.some.inj he ▸ hr)
      · exact absurd hQ (hTQ _ hc)
    · refine (List.pairwise_cons.mp hX).2.imp_of_mem fun hc hr hne => ?_
      rcases hcases (List.mem_append_right _ hc) with heq | ⟨-, heq⟩ | ⟨-, heq⟩
      · rwa [heq]
      · rw [heq]
        exact fun he => hxQ (Option.some.inj he ▸ hr)
      · rw [heq]
        exact fun he => hTQ node hnode (Option.some.inj he ▸ hr)
    · rcases hcases (List.mem_append_left Q hc) with heq | ⟨-, heq⟩ | ⟨hQ, -⟩
      · rw [heq]
        exact hPX c (List.mem_append_right A hc) r (List.mem_cons_of_mem x hr)
      · rw [heq]
        exact fun he => hxQ (Option.some.inj he ▸ hr)
      · exact absurd hQ (hTQ _ hc)
    · rw [h.prev_front hlast hm (List.mem_append_left [t] hc)]
      rcases List.mem_cons.mp hr with rfl | hr
      · exact hPX c (List.mem_append_left _ hc) r List.mem_cons_self
      · rcases List.mem_append.mp hr with hr | hr
        · exact hAT c hc r hr
        · exact hPX c (List.mem_append_left _ hc) r (List.mem_cons_of_mem x hr)
  · intro c hc
    rcases List.mem_append.mp hc with hc | hc
    · rw [h.prev_front hlast hm (List.mem_append_left [t] hc)]
      exact h.self c (by simp [hc])
    · rcases List.mem_cons.mp hc with rfl | hc
      · rw [hm.nextPrev]
        exact hmv.prevNext
      · rcases hcases hc with heq | ⟨-, heq⟩ | ⟨hQ, heq⟩
        · rw [heq]
          refine h.self c ?_
          rcases List.mem_append.mp hc with hc | hc
          · exact List.mem_append_left _ (List.mem_append_right A hc)
          · exact List.mem_append_right _ (List.mem_cons_of_mem x hc)
        · rw [heq]
          rintro he
          rw [Option.some.inj he] at hxT hxQ
          rcases List.mem_append.mp hc with hc | hc
          · exact hxT hc
          · exact hxQ hc
        · rw [heq]
          exact fun he => hTQ node hnode (Option.some.inj he ▸ hQ)

/-- From `tmp` on the list is without the moved node. -/
theorem Loose.moved_rest (h : Loose s (A ++ t :: C ++ x :: Q)) {h' : Heap (ExtData R)}
    (hlast : (t :: C).getLast? = some node) (hm : Moved s.heap h' node x t) :
    Path (nextOf h') (some t) (t :: C ++ Q) none ∧
      ∀ c ∈ A, prevOf s.heap t ≠ some c → nextOf h' c = nextOf s.heap c := by
  obtain ⟨-, hT, hQ⟩ := h.paths
  obtain ⟨-, hndT, -, hxA, hxT, hxQ, hAT, -, hTQ⟩ := h.nodup
  obtain ⟨hP, -, hPX⟩ := List.pairwise_append.mp h.back
  obtain ⟨-, hbackT, -⟩ := List.pairwise_append.mp hP
  have hnode : node ∈ t :: C := List.mem_of_getLast? hlast
  have hmv := h.movable hlast
  obtain ⟨T, hT'⟩ := List.getLast?_eq_some_iff.mp hlast
  have hprevT {c : Ptr} (hc : c ∈ t :: C) : prevOf s.heap t ≠ some c := by
    rcases List.mem_cons.mp hc with rfl | hc
    · exact hmv.prevTmp
    · exact (List.pairwise_cons.mp hbackT).1 c hc
  constructor
  · refine path_append.mpr ⟨nextOf s.heap x, ?_, ?_⟩
    · rw [hT'] at hT hndT hxT hprevT ⊢
      have hpath : Path (nextOf h') (some t) (T ++ [node]) (nextOf h' node) :=
        hT.concat fun c hc => by
          have hcm : c ∈ T ++ [node] := List.mem_append_left _ hc
          refine hm.otherNext c (fun he => ?_) (fun he => hxT (he ▸ hcm)) (hprevT hcm)
          rw [he] at hc
          exact (List.nodup_append.mp hndT).2.2 node hc node (by simp) rfl
      rwa [hm.nodeNext] at hpath
    · refine hQ.congr fun c hc => hm.otherNext c (fun he => hTQ node hnode (he ▸ hc))
        (fun he => hxQ (he ▸ hc)) ?_
      exact hPX t (by simp) c (List.mem_cons_of_mem x hc)
  · intro c hc hne
    exact hm.otherNext c (fun he => hAT c hc (he ▸ hnode)) (fun he => hxA (he ▸ hc)) hne

/-- The list after the move. It has all nodes if and only if the prev of `tmp` was right. -/
theorem Loose.moved_path (h : Loose s (A ++ t :: C ++ x :: Q)) {s' : ExtDataList R}
    (hlast : (t :: C).getLast? = some node) (hm : Moved s.heap s'.heap node x t)
    (hpList : s'.pList = if prevOf s.heap t = none then some x else s.pList) :
    ∃ A', Path (nextOf s'.heap) s'.pList (A' ++ (t :: C ++ Q)) none ∧ A'.Sublist (A ++ [x]) ∧
      (prevOf s.heap t = A.getLast? ↔ A' = A ++ [x]) := by
  obtain ⟨hA, -, -⟩ := h.paths
  obtain ⟨hrest, hfront⟩ := h.moved_rest hlast hm
  obtain ⟨hndA, -⟩ := h.nodup
  rw [hpList]
  cases hprev : prevOf s.heap t with
  | none =>
    refine ⟨[x], ⟨rfl, by rw [hm.nextNext]; exact hrest⟩, List.sublist_append_right A [x], ?_⟩
    rw [eq_comm, List.getLast?_eq_none_iff]
    constructor
    · rintro rfl
      rfl
    · intro heq
      have hlen := congrArg List.length heq
      simpa using hlen
  | some q =>
    rw [if_neg (Option.some_ne_none q)]
    rw [hprev] at hfront
    by_cases hq : q ∈ A
    · obtain ⟨A1, A2, rfl⟩ := List.append_of_mem hq
      refine ⟨A1 ++ [q, x], ?_, ?_, ?_⟩
      · -- the nodes between the wrong prev and `tmp` are lost
        have hassoc : A1 ++ q :: A2 = (A1 ++ [q]) ++ A2 := by simp
        rw [hassoc] at hA hndA hfront
        obtain ⟨r, hA1, -⟩ := path_append.mp hA
        have hpath : Path (nextOf s'.heap) s.pList (A1 ++ [q]) (nextOf s'.heap q) :=
          hA1.concat fun c hc => hfront c (by simp [hc]) fun he => by
            rw [Option.some.inj he] at hndA
            exact (List.nodup_append.mp (List.nodup_append.mp hndA).1).2.2 c hc c (by simp) rfl
        rw [hm.frontNext q hprev] at hpath
        have hsplit : A1 ++ [q, x] ++ (t :: C ++ Q) = (A1 ++ [q]) ++ x :: (t :: C ++ Q) := by simp
        rw [hsplit]
        exact path_append.mpr ⟨some x, hpath, rfl, by rw [hm.nextNext]; exact hrest⟩
      · simp
      · rcases List.eq_nil_or_concat A2 with rfl | ⟨B, b, rfl⟩
        · simp
        · have hne : q ≠ b := fun he =>
            (List.nodup_cons.mp (List.nodup_append.mp hndA).2.1).1 (by simp [he])
          have hassoc : A1 ++ q :: B.concat b = (A1 ++ q :: B) ++ [b] := by simp
          rw [hassoc, List.getLast?_concat]
          constructor
          · exact fun heq => absurd (Option.some.inj heq) hne
          · intro heq
            have hlen := congrArg List.length heq
            simp at hlen
    · refine ⟨A, path_append.mpr ⟨some t, hA.congr fun c hc => hfront c hc ?_, hrest⟩,
        List.sublist_append_left A [x], ?_⟩
      · exact fun he => hq (Option.some.inj he ▸ hc)
      · constructor
        · exact fun heq => absurd (List.mem_of_getLast? heq.symm) hq
        · intro heq
          have hlen := congrArg List.length heq
          simp at hlen

theorem Loose.moved (h : Loose s (A ++ t :: C ++ x :: Q)) {s' : ExtDataList R}
    {top' : Option Ptr} (hlast : (t :: C).getLast? = some node)
    (hs : sortAt node x t s s.pList = some (s', top')) :
    Moved s.heap s'.heap node x t ∧ top' = s'.pList ∧
      ∃ A', Loose s' (A' ++ (t :: C ++ Q)) ∧ A'.Sublist (A ++ [x]) ∧
        (prevOf s.heap t = A.getLast? ↔ A' = A ++ [x]) := by
  obtain ⟨hm, htop, hpList⟩ := sortAt_moved (h.movable hlast) hs
  obtain ⟨A', hpath, hsub, hiff⟩ := h.moved_path hlast hm hpList
  obtain ⟨hback, hself⟩ := h.moved_back hlast hm
  have hall : (A' ++ (t :: C ++ Q)).Sublist (A ++ x :: (t :: C ++ Q)) := by
    have happ := hsub.append (List.Sublist.refl (t :: C ++ Q))
    rwa [List.append_assoc A [x]] at happ
  refine ⟨hm, htop.trans hpList.symm, A', ⟨hpath, ?_, hback.sublist hall,
    fun c hc => hself c (hall.subset hc)⟩, hsub, hiff⟩
  -- the cells are the ones from before
  have hold {c : Ptr} (hc : c ∈ A' ++ (t :: C ++ Q)) : c ∈ A ++ t :: C ++ x :: Q := by
    have hmem := hall.subset hc
    simp only [List.mem_append, List.mem_cons] at hmem ⊢
    tauto
  have hx : x ∈ A ++ t :: C ++ x :: Q := List.mem_append_right _ List.mem_cons_self
  have hnode : node ∈ A ++ t :: C ++ x :: Q :=
    List.mem_append_left _ (List.mem_append_right A (List.mem_of_getLast? hlast))
  refine ⟨fun c hc => (hm.data.isSome c).trans (h.alloc.self c (hold hc)), fun c hc q hq => ?_⟩
  refine (hm.data.isSome q).trans ?_
  by_cases hcx : c = x
  · rw [hcx, hm.nextPrev] at hq
    exact h.alloc.prev t (by simp) q hq
  · have hmem : c ∈ A ++ t :: C ++ Q := by
      have hmem := hold hc
      simp only [List.mem_append, List.mem_cons, hcx, false_or] at hmem ⊢
      exact hmem
    rcases h.prev_cases hlast hm hmem with heq | ⟨-, heq⟩ | ⟨-, heq⟩
    · exact h.alloc.prev c (hold hc) q (heq ▸ hq)
    · rw [heq] at hq
      exact Option.some.inj hq ▸ h.alloc.self x hx
    · rw [heq] at hq
      exact Option.some.inj hq ▸ h.alloc.self node hnode

end Pass

/-! ## Runs of the outer loop -/

/-- The outer loop from the node `p` comes back with `s'`. -/
def SortRuns (s : ExtDataList R) (p : Option Ptr) (s' : ExtDataList R) : Prop :=
  ∃ fuel, sortOuter fuel s s.pList p = some s'

theorem sortOuter_mono {s s' : ExtDataList R} {top p : Option Ptr} {fuel : Nat}
    (hr : sortOuter fuel s top p = some s') (k : Nat) :
    sortOuter (fuel + k) s top p = some s' := by
  induction fuel generalizing s top p with
  | zero => exact nomatch hr
  | succ fuel ih =>
    rw [Nat.succ_add]
    cases p with
    | none => exact hr
    | some node =>
      simp only [sortOuter, Option.bind_eq_bind, Option.bind_eq_some_iff] at hr ⊢
      obtain ⟨cnode, hc, hr⟩ := hr
      refine ⟨cnode, hc, ?_⟩
      split at hr
      · exact ih hr
      · next next _ =>
        simp only [Option.bind_eq_some_iff] at hr ⊢
        obtain ⟨r, hin, c, hc, hr⟩ := hr
        exact ⟨r, sortInner_mono hin k, c, hc, ih hr⟩

theorem SortRuns.unique {s s1 s2 : ExtDataList R} {p : Option Ptr} (h1 : SortRuns s p s1)
    (h2 : SortRuns s p s2) : s1 = s2 := by
  obtain ⟨f1, h1⟩ := h1
  obtain ⟨f2, h2⟩ := h2
  have h1 := sortOuter_mono h1 f2
  rw [Nat.add_comm, sortOuter_mono h2 f1] at h1
  exact (Option.some.inj h1).symm

theorem sortRuns_none (s : ExtDataList R) : SortRuns s none s := ⟨1, rfl⟩

section Steps

variable {s s' : ExtDataList R} {P Q : List Ptr} {x node : Ptr}

theorem Loose.node_next (h : Loose s (P ++ Q)) (hnode : P.getLast? = some node) :
    nextOf s.heap node = Q.head? := by
  obtain ⟨T, rfl⟩ := List.getLast?_eq_some_iff.mp hnode
  have hpath := h.path
  rw [List.append_assoc, List.singleton_append] at hpath
  obtain ⟨r, -, -, hQ⟩ := path_append.mp hpath
  exact hQ.head_eq

theorem Loose.cell (h : Loose s (P ++ Q)) (hnode : P.getLast? = some node) :
    ∃ c, s.heap node = some c ∧ c.next = Q.head? := by
  obtain ⟨c, hc⟩ := Option.isSome_iff_exists.mp
    (h.alloc.self node (List.mem_append_left Q (List.mem_of_getLast? hnode)))
  exact ⟨c, hc, (nextOf_eq hc).symm.trans (h.node_next hnode)⟩

/-- The last node ends the loop. -/
theorem sortRuns_last (h : Loose s P) (hnode : P.getLast? = some node) :
    SortRuns s (some node) s := by
  rw [← List.append_nil P] at h
  obtain ⟨c, hc, hnext⟩ := h.cell hnode
  refine ⟨2, ?_⟩
  simp only [sortOuter, Option.bind_eq_bind, Option.bind_some, hc, hnext, List.head?_nil]

/-- The inner loop of a pass, with fuel for it. -/
theorem Loose.inner (h : Loose s (P ++ x :: Q)) (node : Ptr) (fuel : Nat)
    (hfuel : P.length < fuel) :
    sortInner node x fuel s s.pList s.pList =
      match P.find? (fitsAt s.heap x) with
      | some tmp => sortAt node x tmp s s.pList
      | none => some (s, s.pList) := by
  obtain ⟨r, hP, hX⟩ := path_append.mp h.path
  obtain rfl := hX.1
  have hx : x ∉ P := fun hm => (List.nodup_append.mp h.path.nodup).2.2 x hm x List.mem_cons_self rfl
  exact sortInner_eq hP hx (h.alloc.self x (List.mem_append_right P List.mem_cons_self))
    ⟨fun p hp => h.alloc.self p (List.mem_append_left _ hp),
      fun p hp => h.alloc.prev p (List.mem_append_left _ hp)⟩ fuel hfuel

/-- The next node stays where it is. -/
theorem sortRuns_kept (h : Loose s (P ++ x :: Q)) (hnode : P.getLast? = some node)
    (hfind : P.find? (fitsAt s.heap x) = none) (hrun : SortRuns s (some x) s') :
    SortRuns s (some node) s' := by
  obtain ⟨fuel, hrun⟩ := hrun
  obtain ⟨c, hc, hnext⟩ := h.cell hnode
  have hinner := h.inner node (fuel + (P.length + 1)) (by omega)
  rw [hfind] at hinner
  refine ⟨fuel + (P.length + 1) + 1, ?_⟩
  rw [List.head?_cons] at hnext
  simp only [sortOuter, Option.bind_eq_bind, Option.bind_some, hc, hnext, hinner]
  exact sortOuter_mono hrun (P.length + 1)

/-- The next node is moved, and the one behind it is passed. -/
theorem sortRuns_moved {A C : List Ptr} {t : Ptr} {s1 : ExtDataList R}
    (h : Loose s (A ++ t :: C ++ x :: Q)) (hnode : (t :: C).getLast? = some node)
    (hfind : (A ++ t :: C).find? (fitsAt s.heap x) = some t)
    (hs : sortAt node x t s s.pList = some (s1, s1.pList)) (hrun : SortRuns s1 Q.head? s') :
    SortRuns s (some node) s' := by
  have hlast : (A ++ t :: C).getLast? = some node := by
    rw [List.getLast?_append, hnode, Option.some_or]
  obtain ⟨fuel, hrun⟩ := hrun
  obtain ⟨c, hc, hnext⟩ := h.cell hlast
  obtain ⟨hm, -⟩ := h.moved hnode hs
  have hinner := h.inner node (fuel + ((A ++ t :: C).length + 1)) (by omega)
  rw [hfind] at hinner
  dsimp only at hinner
  rw [hs] at hinner
  obtain ⟨-, -, hQ⟩ := h.paths
  obtain ⟨c1, hc1⟩ := Option.isSome_iff_exists.mp ((hm.data.isSome node).trans
    (Option.isSome_iff_exists.mpr ⟨c, hc⟩))
  have hnext1 : c1.next = Q.head? := by
    rw [← nextOf_eq hc1, hm.nodeNext, hQ.head_eq]
  refine ⟨fuel + ((A ++ t :: C).length + 1) + 1, ?_⟩
  rw [List.head?_cons] at hnext
  simp only [sortOuter, Option.bind_eq_bind, Option.bind_some, hc, hnext, hinner, hc1, hnext1]
  exact sortOuter_mono hrun ((A ++ t :: C).length + 1)

/-- A move is done, whatever the prev pointers are. -/
theorem Loose.sortAt_isSome {A C : List Ptr} {t : Ptr} (h : Loose s (A ++ t :: C ++ x :: Q))
    (hnode : (t :: C).getLast? = some node) :
    ∃ s1, sortAt node x t s s.pList = some (s1, s1.pList) := by
  have hmem {p : Ptr} (hp : p ∈ t :: C) : (s.heap p).isSome = true :=
    h.alloc.self p (List.mem_append_left _ (List.mem_append_right A hp))
  obtain ⟨-, hT, hQ⟩ := h.paths
  obtain ⟨⟨s1, top1⟩, hs⟩ := sortAt_total s.pList (h.movable hnode)
    (hmem (List.mem_of_getLast? hnode))
    (h.alloc.self x (List.mem_append_right _ List.mem_cons_self)) (hmem List.mem_cons_self)
    (fun w hw => h.alloc.self w (by
      rw [hQ.head_eq] at hw
      exact List.mem_append_right _ (List.mem_cons_of_mem x (List.mem_of_head? hw))))
    (fun u hu => h.alloc.self u (by
      obtain ⟨-, hC⟩ := hT
      rw [hu] at hC
      cases C with
      | nil => simp [Option.some.inj hC]
      | cons c C => simp [Option.some.inj hC.1]))
    fun q hq => h.alloc.prev t (by simp) q hq
  obtain ⟨-, rfl, -⟩ := h.moved hnode hs
  exact ⟨s1, hs⟩

end Steps

/-! ## What is lost stays lost -/

/-- The list that the sort leaves has no other nodes, and if it has all of them, those that were
    passed are in the same order. -/
structure KeepsOrder (s' : ExtDataList R) (P Q F : List Ptr) : Prop where
  path : Path (nextOf s'.heap) s'.pList F none
  subperm : F.Subperm (P ++ Q)
  order : (P ++ Q).length ≤ F.length → P.Sublist F

theorem KeepsOrder.of_sublist {s' : ExtDataList R} {P P' Q F X : List Ptr}
    (h : KeepsOrder s' P' Q F) (hsub : P'.Sublist X) (hX : P.Sublist X) {Y : List Ptr}
    (hperm : (X ++ Q).Perm Y) : F.Subperm Y ∧ (Y.length ≤ F.length → P.Sublist F) := by
  have hsubperm : (P' ++ Q).Subperm Y :=
    ((hsub.append (List.Sublist.refl Q)).subperm).trans hperm.subperm
  refine ⟨h.subperm.trans hsubperm, fun hlen => ?_⟩
  have hle := h.subperm.length_le
  have hPX : P'.length = X.length := by
    have hYlen := hperm.length_eq
    have hle' := hsub.length_le
    simp only [List.length_append] at hYlen hle
    omega
  rw [hsub.eq_of_length hPX] at h
  exact hX.trans (h.order (by rw [hperm.length_eq]; exact hlen))

theorem perm_moved {α : Type} (A B C : List α) (x : α) :
    (A ++ [x] ++ B ++ C).Perm (A ++ B ++ x :: C) := by
  rw [List.append_assoc A [x], List.append_assoc A, List.append_assoc A B]
  exact List.perm_middle.symm.append_left A

/-- The sort comes back, from every list of which the prev pointers do not lead backwards. -/
theorem Loose.sorts {s : ExtDataList R} {P Q : List Ptr} {node : Ptr} (h : Loose s (P ++ Q))
    (hnode : P.getLast? = some node) :
    ∃ s' F, SortRuns s (some node) s' ∧ KeepsOrder s' P Q F := by
  induction hn : Q.length using Nat.strong_induction_on generalizing s P Q node with
  | _ n ih =>
    cases Q with
    | nil =>
      rw [List.append_nil] at h
      exact ⟨s, P, sortRuns_last h hnode, h.path, by rw [List.append_nil],
        fun _ => List.Sublist.refl P⟩
    | cons x Q =>
      rw [List.length_cons] at hn
      cases hfind : P.find? (fitsAt s.heap x) with
      | none =>
        have hassoc : P ++ x :: Q = P ++ [x] ++ Q := by simp
        obtain ⟨s', F, hrun, hF⟩ := ih Q.length (by omega) (s := s) (P := P ++ [x]) (Q := Q)
          (by rw [← hassoc]; exact h) List.getLast?_concat rfl
        obtain ⟨hsub, horder⟩ := hF.of_sublist (List.Sublist.refl _)
          (List.sublist_append_left P [x]) (List.Perm.of_eq hassoc.symm)
        exact ⟨s', F, sortRuns_kept h hnode hfind hrun, hF.path, hsub, horder⟩
      | some t =>
        obtain ⟨-, A, C, rfl, -⟩ := List.find?_eq_some_iff_append.mp hfind
        have hlast : (t :: C).getLast? = some node := by
          rwa [List.getLast?_append_of_ne_nil _ (List.cons_ne_nil t C)] at hnode
        obtain ⟨s1, hs⟩ := h.sortAt_isSome hlast
        obtain ⟨-, -, A', hloose, hsub, -⟩ := h.moved hlast hs
        have hrunOf {s' : ExtDataList R} (hrun : SortRuns s1 Q.head? s') :=
          sortRuns_moved h hlast hfind hs hrun
        have hP : (A ++ t :: C).Sublist (A ++ [x] ++ t :: C) := by simp
        cases Q with
        | nil =>
          have hF : KeepsOrder s1 (A' ++ t :: C) [] (A' ++ t :: C) := by
            rw [List.append_nil] at hloose
            exact ⟨hloose.path, by rw [List.append_nil], fun _ => List.Sublist.refl _⟩
          obtain ⟨hsubF, horder⟩ := hF.of_sublist (hsub.append (List.Sublist.refl _)) hP
            (perm_moved A (t :: C) [] x)
          exact ⟨s1, _, hrunOf (sortRuns_none s1), hF.path, hsubF, horder⟩
        | cons w Q =>
          rw [List.length_cons] at hn
          have hassoc : A' ++ (t :: C ++ w :: Q) = A' ++ t :: C ++ [w] ++ Q := by simp
          obtain ⟨s', F, hrun, hF⟩ := ih Q.length (by omega) (s := s1) (Q := Q)
            (by rw [← hassoc]; exact hloose) List.getLast?_concat rfl
          obtain ⟨hsubF, horder⟩ := hF.of_sublist
            ((hsub.append (List.Sublist.refl (t :: C))).append (List.Sublist.refl [w]))
            (hP.trans (List.sublist_append_left _ [w]))
            (Y := A ++ t :: C ++ x :: w :: Q) (by
              rw [List.append_assoc _ [w]]
              exact perm_moved A (t :: C) (w :: Q) x)
          exact ⟨s', F, hrunOf hrun, hF.path, hsubF, horder⟩

end K64Gateway.VarManage
