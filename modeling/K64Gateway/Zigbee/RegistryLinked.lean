import K64Gateway.Zigbee.Registry

/-
  Every routine of the Zigbee registry keeps both kinds of lists well formed and does to the nodes
  what `Call.apply` says; with free cells for its allocations it comes back (`exec_represents`).
-/

namespace K64Gateway.Zigbee

open LinkedHeap
open VarManage (walkLast walkLast_eq walkLast_total)

/-! ## Loops over a well-formed list -/

section Loops

variable {α : Type} {h : Heap α} {head : Option Ptr} {L : List Ptr}

theorem walkLast_fuel {prev p last : Option Ptr} (hs : Seg h prev p L last none) {fuel : Nat}
    (hfuel : L.length < fuel) : walkLast h fuel p = some L.getLast? := by
  induction L generalizing prev p fuel with
  | nil =>
    obtain ⟨n, rfl⟩ := Nat.exists_eq_succ_of_ne_zero (Nat.ne_of_gt hfuel)
    rw [show p = none from hs.2]
    rfl
  | cons x L ih =>
    obtain ⟨n, rfl⟩ := Nat.exists_eq_succ_of_ne_zero (Nat.ne_of_gt (Nat.zero_lt_of_lt hfuel))
    obtain ⟨rfl, c, hc, -, ht⟩ := hs
    simp only [walkLast, hc, Option.bind_eq_bind, Option.bind_some]
    cases L with
    | nil =>
      rw [show c.next = none from ht.2]
      rfl
    | cons y L =>
      have hnext : c.next = some y := ht.1
      have hrest := ih ht (Nat.lt_of_succ_lt_succ hfuel)
      rw [hnext] at hrest ⊢
      rw [List.getLast?_cons_cons]
      exact hrest

/-- The loop stops at the first cell with the property, or at the end. -/
inductive Found (h : Heap α) (p : α → Bool) (L : List Ptr) : Option Ptr → Prop
  | none (hall : ∀ x ∈ L, ∀ c, h x = some c → p c.data = false) : Found h p L none
  | some (A : List Ptr) (x : Ptr) (B : List Ptr) (c : Cell α) (hL : L = A ++ x :: B)
      (hc : h x = some c) (hp : p c.data = true)
      (hA : ∀ y ∈ A, ∀ d, h y = some d → p d.data = false) : Found h p L (some x)

theorem findCell_seg {prev q last : Option Ptr} (hs : Seg h prev q L last none) (p : α → Bool) :
    ∃ r, Found h p L r ∧ ∀ fuel, L.length < fuel → findCell p fuel h q = some r := by
  induction L generalizing prev q with
  | nil =>
    refine ⟨none, .none fun x hx => absurd hx List.not_mem_nil, fun fuel hfuel => ?_⟩
    obtain ⟨n, rfl⟩ := Nat.exists_eq_succ_of_ne_zero (Nat.ne_of_gt hfuel)
    rw [show q = none from hs.2]
    rfl
  | cons x L ih =>
    obtain ⟨rfl, c, hc, -, ht⟩ := hs
    obtain ⟨r, hfound, hr⟩ := ih ht
    by_cases hp : p c.data = true
    · refine ⟨some x, .some [] x L c rfl hc hp fun y hy => absurd hy List.not_mem_nil,
        fun fuel hfuel => ?_⟩
      obtain ⟨n, rfl⟩ := Nat.exists_eq_succ_of_ne_zero (Nat.ne_of_gt (Nat.zero_lt_of_lt hfuel))
      simp [findCell, hc, hp]
    · have hx : ∀ d, h x = some d → p d.data = false := fun d hd => by
        rw [← Option.some.inj (hc.symm.trans hd)]
        exact Bool.eq_false_of_not_eq_true hp
      refine ⟨r, ?_, fun fuel hfuel => ?_⟩
      · cases hfound with
        | none hall => exact .none (List.forall_mem_cons.mpr ⟨hx, hall⟩)
        | some A y B d hL hd hpd hA =>
          exact .some (x :: A) y B d (by rw [hL]; rfl) hd hpd (List.forall_mem_cons.mpr ⟨hx, hA⟩)
      · obtain ⟨n, rfl⟩ := Nat.exists_eq_succ_of_ne_zero (Nat.ne_of_gt (Nat.zero_lt_of_lt hfuel))
        simp [findCell, hc, hp, hr n (Nat.lt_of_succ_lt_succ hfuel)]

theorem findCell_spec (hd : DList h head L) (p : α → Bool) :
    ∃ r, Found h p L r ∧ ∀ fuel, L.length < fuel → findCell p fuel h head = some r := by
  obtain ⟨last, hs⟩ := hd
  exact findCell_seg hs p

end Loops

/-! ## The addresses behind a node -/

/-- The payloads without the first one with the property. -/
theorem eraseP_payloads {h : Heap Snode} {p : Snode → Bool} {A B : List Ptr} {x : Ptr}
    {c : Cell Snode} (hc : h x = some c) (hp : p c.data = true)
    (hA : ∀ y ∈ A, ∀ d, h y = some d → p d.data = false) :
    (payloads h (A ++ x :: B)).eraseP p = payloads h A ++ payloads h B := by
  have hfirst : ∀ d ∈ payloads h A, ¬ p d = true := fun d hd => by
    obtain ⟨y, hy, hyd⟩ := List.mem_filterMap.mp hd
    obtain ⟨e, he, rfl⟩ := Option.map_eq_some_iff.mp hyd
    simp [hA y hy e he]
  rw [payloads_append, payloads_cons hc, List.eraseP_append_right _ hfirst,
    List.eraseP_cons_of_pos hp]

theorem eraseP_payloads_of_none {h : Heap Snode} {p : Snode → Bool} {L : List Ptr}
    (hall : ∀ x ∈ L, ∀ c, h x = some c → p c.data = false) :
    (payloads h L).eraseP p = payloads h L := by
  refine List.eraseP_of_forall_not fun d hd => ?_
  obtain ⟨y, hy, hyd⟩ := List.mem_filterMap.mp hd
  obtain ⟨e, he, rfl⟩ := Option.map_eq_some_iff.mp hyd
  simp [hall y hy e he]

theorem snodeRmOne_spec {h : Heap Snode} {snode : Option Ptr} {K : List Ptr}
    (hd : DList h snode K) (type : UInt8) :
    ∃ h' snode' K', (∀ fuel, K.length < fuel → snodeRmOne fuel h snode type = some (h', snode')) ∧
      DList h' snode' K' ∧ K' ⊆ K ∧ K'.length ≤ K.length ∧
      payloads h' K' = (payloads h K).eraseP (fun d => decide (d.type = type)) ∧
      ∀ y, y ∉ K → h' y = h y := by
  obtain ⟨r, hfound, hr⟩ := findCell_spec hd fun d => decide (d.type = type)
  cases hfound with
  | none hall =>
    exact ⟨h, snode, K, fun fuel hfuel => by simp [snodeRmOne, hr fuel hfuel], hd,
      List.Subset.refl K, le_rfl, (eraseP_payloads_of_none hall).symm, fun _ _ => rfl⟩
  | some A x B c hL hc hp hA =>
    subst hL
    obtain ⟨h', snode', hrun, hd', -, hframe, hdata⟩ := hd.unlink
    have hxA : ∀ y ∈ A ++ B, y ≠ x := fun y hy he => by
      have hnd := hd.nodup
      rw [List.nodup_append, List.nodup_cons] at hnd
      rcases List.mem_append.mp hy with hy | hy
      · exact hnd.2.2 y hy x List.mem_cons_self he
      · exact hnd.2.1.1 (he ▸ hy)
    refine ⟨h', snode', A ++ B, fun fuel hfuel => by simp [snodeRmOne, hr fuel hfuel, hrun], hd',
      fun y hy => ?_, by simp, ?_, hframe⟩
    · rcases List.mem_append.mp hy with hy | hy <;> simp [hy]
    · rw [eraseP_payloads hc hp hA, ← payloads_append]
      exact payloads_congr fun y hy => hdata y (hxA y hy)

theorem snodeRmAll_spec {h : Heap Snode} {prev snode last : Option Ptr} {K : List Ptr}
    (hs : Seg h prev snode K last none) :
    ∃ h', (∀ fuel, K.length < fuel → snodeRmAll fuel h snode = some h') ∧
      ∀ y, y ∉ K → h' y = h y := by
  induction K generalizing h prev snode with
  | nil =>
    refine ⟨h, fun fuel hfuel => ?_, fun _ _ => rfl⟩
    obtain ⟨n, rfl⟩ := Nat.exists_eq_succ_of_ne_zero (Nat.ne_of_gt hfuel)
    rw [show snode = none from hs.2]
    rfl
  | cons x K ih =>
    have hx : x ∉ K := (List.nodup_cons.mp hs.nodup).1
    obtain ⟨rfl, c, hc, -, ht⟩ := hs
    obtain ⟨h', hrun, hframe⟩ := ih (ht.write hx none)
    refine ⟨h', fun fuel hfuel => ?_, fun y hy => ?_⟩
    · obtain ⟨n, rfl⟩ := Nat.exists_eq_succ_of_ne_zero (Nat.ne_of_gt (Nat.zero_lt_of_lt hfuel))
      simp [snodeRmAll, hc, hrun n (Nat.lt_of_succ_lt_succ hfuel)]
    · obtain ⟨hyx, hyK⟩ := not_or.mp fun hm => hy (List.mem_cons.mpr hm)
      rw [hframe y hyK, write_of_ne _ _ hyx]

theorem snodeInsert_spec {h : Heap Snode} {snode : Option Ptr} {K : List Ptr}
    (hd : DList h snode K) {q : Ptr} (hq : h q = none) (info : Scan) :
    ∃ h' snode' K', (∀ fuel, K.length < fuel → snodeInsert fuel h snode q info = some (h', snode')) ∧
      DList h' snode' K' ∧ (∀ y ∈ K', y ∈ K ∨ y = q) ∧
      payloads h' K' = info.insertSub (payloads h K) ∧ ∀ y, y ∉ K → y ≠ q → h' y = h y := by
  have hqK := hd.not_mem hq
  have hd0 : DList (write h q (some ⟨⟨0, 0, []⟩, none, none⟩)) snode K :=
    hd.frame fun y hy => write_of_ne _ _ fun he => hqK (he ▸ hy)
  obtain ⟨h1, snode1, K1, hrm, hd1, hsub, hlen, hpay, hframe⟩ := snodeRmOne_spec hd0 info.type
  -- The new cell is not in the list, so it may be written again.
  have hqK1 : q ∉ K1 := fun hm => hqK (hsub hm)
  have hd2 : DList (write h1 q none) snode1 K1 :=
    hd1.frame fun y hy => write_of_ne _ _ fun he => hqK1 (he ▸ hy)
  have hpay2 : payloads (write h1 q none) K1 = payloads h1 K1 := payloads_write_not_mem hqK1
  obtain ⟨h', snode', hlink, hd', hframe', hnew, hdata⟩ := hd2.link (write_self _ _ _) info.snode
  have hwrite : write (write h1 q none) q (some ⟨info.snode, none, none⟩) =
      write h1 q (some ⟨info.snode, none, none⟩) := by
    funext y
    by_cases hy : y = q <;> simp [LinkedHeap.write, hy]
  rw [hwrite] at hlink
  refine ⟨h', snode', K1 ++ [q], fun fuel hfuel => ?_, hd', fun y hy => ?_, ?_, fun y hy hyq => ?_⟩
  · have hwalk : walkLast (write h1 q (some ⟨info.snode, none, none⟩)) fuel snode1 =
        some K1.getLast? := by
      obtain ⟨last, hs⟩ := hd1
      exact walkLast_fuel (hs.write hqK1 _) (hlen.trans_lt hfuel)
    simp [snodeInsert, hrm fuel hfuel, hwalk, hlink]
  · rcases List.mem_append.mp hy with hy | hy
    · exact .inl (hsub hy)
    · exact .inr (List.mem_singleton.mp hy)
  · have hold : payloads h' K1 = (payloads h K).eraseP fun d => decide (d.type = info.type) := by
      rw [payloads_congr fun y hy => hdata y fun he => hqK1 (he ▸ hy), hpay2, hpay,
        payloads_write_not_mem hqK]
    have hlast : payloads h' [q] = [info.snode] := by simp [payloads, hnew]
    rw [payloads_append, hold, hlast]
    rfl
  · rw [hframe' y (fun hm => hy (hsub hm)) hyq, write_of_ne _ _ hyq, hframe y hy,
      write_of_ne _ _ hyq]

/-! ## Nodes -/

theorem nodesOf_append (s : Registry) (K : Ptr → List Ptr) (A B : List Ptr) :
    nodesOf s K (A ++ B) = nodesOf s K A ++ nodesOf s K B := List.filterMap_append

theorem nodesOf_cons {s : Registry} {K : Ptr → List Ptr} {x : Ptr} {c : Cell Mnode}
    (hc : s.mheap x = some c) (B : List Ptr) :
    nodesOf s K (x :: B) = ⟨c.data.info, payloads s.sheap (K x)⟩ :: nodesOf s K B := by
  simp [nodesOf, nodeAt, hc]

theorem nodesOf_congr {s s' : Registry} {K K' : Ptr → List Ptr} {L : List Ptr}
    (hf : ∀ x ∈ L, nodeAt s' K' x = nodeAt s K x) : nodesOf s' K' L = nodesOf s K L :=
  List.filterMap_congr hf

/-- A node is what its cell and the addresses behind it are. -/
theorem nodeAt_congr {s s' : Registry} {K K' : Ptr → List Ptr} {x : Ptr}
    (hm : (s'.mheap x).map (fun c => c.data.info) = (s.mheap x).map fun c => c.data.info)
    (hs : payloads s'.sheap (K' x) = payloads s.sheap (K x)) : nodeAt s' K' x = nodeAt s K x := by
  unfold nodeAt
  rw [hs]
  cases h : s.mheap x <;> cases h' : s'.mheap x <;> simp_all

/-- The nodes of a search over the cells. -/
theorem mem_nodesOf {s : Registry} {K : Ptr → List Ptr} {L : List Ptr} {node : Node}
    (h : node ∈ nodesOf s K L) : ∃ x ∈ L, ∃ c, s.mheap x = some c ∧
      node = ⟨c.data.info, payloads s.sheap (K x)⟩ := by
  obtain ⟨x, hx, hnode⟩ := List.mem_filterMap.mp h
  obtain ⟨c, hc, rfl⟩ := Option.map_eq_some_iff.mp hnode
  exact ⟨x, hx, c, hc, rfl⟩

theorem Linked.ne {s : Registry} {A B : List Ptr} {x : Ptr} {K : Ptr → List Ptr}
    (h : Linked s (A ++ x :: B) K) : ∀ y ∈ A ++ B, y ≠ x := by
  intro y hy he
  have hnd := h.list.nodup
  rw [List.nodup_append, List.nodup_cons] at hnd
  rcases List.mem_append.mp hy with hy | hy
  · exact hnd.2.2 y hy x List.mem_cons_self he
  · exact hnd.2.1.1 (he ▸ hy)

/-- Freeing a node leaves the others alone. -/
theorem mnodeFree_spec {s : Registry} {A B : List Ptr} {x : Ptr} {K : Ptr → List Ptr}
    (h : Linked s (A ++ x :: B) K) :
    ∃ s', (∀ fuel, (K x).length < fuel → mnodeFree fuel s x = some s') ∧ Linked s' (A ++ B) K ∧
      ∀ y ∈ A ++ B, nodeAt s' K y = nodeAt s K y := by
  have hmem : ∀ y ∈ A ++ B, y ∈ A ++ x :: B := fun y hy => by
    rcases List.mem_append.mp hy with hy | hy <;> simp [hy]
  have hx : x ∈ A ++ x :: B := by simp
  obtain ⟨c, hc, -⟩ := h.list.cell
  obtain ⟨mheap, mnode, hunlink, hlist, -, -, hdata⟩ := h.list.unlink
  obtain ⟨last, hsub⟩ := h.subs x hx c hc
  obtain ⟨sheap, hrm, hframe⟩ := snodeRmAll_spec hsub
  -- The addresses of the other nodes are in other cells.
  have hother : ∀ y ∈ A ++ B, ∀ z ∈ K y, sheap z = s.sheap z := fun y hy z hz =>
    hframe z (h.disjoint y (hmem y hy) x hx (h.ne y hy) z hz)
  refine ⟨⟨mheap, sheap, mnode⟩, fun fuel hfuel => by simp [mnodeFree, hc, hunlink, hrm fuel hfuel],
    ⟨hlist, fun y hy d hd => ?_, fun y hy y' hy' => h.disjoint y (hmem y hy) y' (hmem y' hy')⟩,
    fun y hy => ?_⟩
  · have hsame := hdata y (h.ne y hy)
    obtain ⟨e, he, hed⟩ :=
      Option.map_eq_some_iff.mp (hsame.symm.trans (congrArg (Option.map Cell.data) hd))
    rw [← hed]
    exact (h.subs y (hmem y hy) e he).frame (hother y hy)
  · refine nodeAt_congr ?_ (payloads_congr fun z hz => congrArg _ (hother y hy z hz))
    have hsame := congrArg (Option.map Mnode.info) (hdata y (h.ne y hy))
    rw [Option.map_map, Option.map_map] at hsame
    exact hsame

/-- The node at `x` gets other fields. -/
theorem setInfo_spec {s : Registry} {A B : List Ptr} {x : Ptr} {K : Ptr → List Ptr}
    (h : Linked s (A ++ x :: B) K) {c : Cell Mnode} (hc : s.mheap x = some c) (info : MnodeInfo) :
    ∃ mheap, setData s.mheap x (fun m => { m with info := info }) = some mheap ∧
      mheap x = some (c.mapData fun m => { m with info := info }) ∧
      Linked { s with mheap := mheap } (A ++ x :: B) K ∧
      ∀ y, y ≠ x → nodeAt { s with mheap := mheap } K y = nodeAt s K y := by
  have hset : setData s.mheap x (fun m => { m with info := info }) =
      some (write s.mheap x (some (c.mapData fun m => { m with info := info }))) := by
    simp only [setData, hc, Option.map_some]
  refine ⟨_, hset, write_self _ _ _, ⟨?_, ?_, h.disjoint⟩,
    fun y hy => nodeAt_congr (by simp only [write_of_ne _ _ hy]) rfl⟩
  · exact h.list.mapData hc _
  · intro y hy d hd
    by_cases hyx : y = x
    · dsimp only at hd
      rw [hyx, write_self] at hd
      rw [← Option.some.inj hd, hyx]
      exact h.subs x (by simp) c hc
    · dsimp only at hd
      rw [write_of_ne _ _ hyx] at hd
      exact h.subs y hy d hd

/-- A response is recorded for the node at `x`. -/
theorem mnodeSnodeInsert_spec {s : Registry} {A B : List Ptr} {x q : Ptr} {K : Ptr → List Ptr}
    (h : Linked s (A ++ x :: B) K) {c : Cell Mnode} (hc : s.mheap x = some c)
    (hq : s.sheap q = none) (info : Scan) :
    ∃ s' K', (∀ fuel, (K x).length < fuel → mnodeSnodeInsert fuel s x q info = some s') ∧
      Linked s' (A ++ x :: B) K' ∧
      nodeAt s' K' x = some ⟨c.data.info, info.insertSub (payloads s.sheap (K x))⟩ ∧
      ∀ y ∈ A ++ B, nodeAt s' K' y = nodeAt s K y := by
  have hx : x ∈ A ++ x :: B := by simp
  have hmem : ∀ y ∈ A ++ B, y ∈ A ++ x :: B := fun y hy => by
    rcases List.mem_append.mp hy with hy | hy <;> simp [hy]
  obtain ⟨sheap, snode, Kx, hins, hdx, hKx, hpay, hframe⟩ :=
    snodeInsert_spec (h.subs x hx c hc) hq info
  -- No other node has one of the cells that change.
  have hfree : ∀ y ∈ A ++ x :: B, q ∉ K y := fun y hy => by
    obtain ⟨d, hd⟩ := h.list.allocated hy
    exact (h.subs y hy d hd).not_mem hq
  have hother : ∀ y ∈ A ++ x :: B, y ≠ x → ∀ z ∈ K y, sheap z = s.sheap z := fun y hy hne z hz =>
    hframe z (h.disjoint y hy x hx hne z hz) fun he => hfree y hy (he ▸ hz)
  have hset : setData s.mheap x (fun m => { m with snode := snode }) =
      some (write s.mheap x (some (c.mapData fun m => { m with snode := snode }))) := by
    simp only [setData, hc, Option.map_some]
  refine ⟨⟨write s.mheap x (some (c.mapData fun m => { m with snode := snode })), sheap, s.mnode⟩,
    Function.update K x Kx, fun fuel hfuel => by simp [mnodeSnodeInsert, hc, hins fuel hfuel, hset],
    ⟨?_, ?_, ?_⟩, ?_, ?_⟩
  · exact h.list.mapData hc _
  · intro y hy d hd
    dsimp only at hd ⊢
    by_cases hyx : y = x
    · rw [hyx, write_self] at hd
      rw [← Option.some.inj hd, hyx, Function.update_self]
      exact hdx
    · rw [write_of_ne _ _ hyx] at hd
      rw [Function.update_of_ne hyx]
      exact (h.subs y hy d hd).frame (hother y hy hyx)
  · intro y hy y' hy' hne z hz
    by_cases hyx : y = x
    · have hyx' : y' ≠ x := fun he => hne (hyx.trans he.symm)
      rw [hyx, Function.update_self] at hz
      rw [Function.update_of_ne hyx']
      rcases hKx z hz with hz | rfl
      · exact h.disjoint x hx y' hy' (fun he => hyx' he.symm) z hz
      · exact hfree y' hy'
    · rw [Function.update_of_ne hyx] at hz
      by_cases hyx' : y' = x
      · rw [hyx', Function.update_self]
        intro hm
        rcases hKx z hm with hm | rfl
        · exact h.disjoint y hy x hx hyx z hz hm
        · exact hfree y hy hz
      · rw [Function.update_of_ne hyx']
        exact h.disjoint y hy y' hy' hne z hz
  · simp only [nodeAt, write_self, Option.map_some, Function.update_self, hpay]
    rfl
  · intro y hy
    refine nodeAt_congr ?_ ?_
    · simp only [write_of_ne _ _ (h.ne y hy)]
    · rw [Function.update_of_ne (h.ne y hy)]
      exact payloads_congr fun z hz => congrArg _ (hother y (hmem y hy) (h.ne y hy) z hz)

/-! ## Calls -/

theorem insertNode_append (info : Scan) (now : UInt32) {as bs : List Node} {node : Node}
    (has : ∀ a ∈ as, a.info.netid ≠ info.netid) (hnode : node.info.netid = info.netid) :
    insertNode info now (as ++ node :: bs) =
      as ++ ⟨info.refresh now node.info, info.insertSub node.subs⟩ :: bs := by
  induction as with
  | nil => exact if_pos hnode
  | cons a as ih =>
    have hrest := ih fun b hb => has b (List.mem_cons_of_mem _ hb)
    simp only [List.cons_append, insertNode, if_neg (has a List.mem_cons_self), hrest]

theorem insertNode_of_forall_ne (info : Scan) (now : UInt32) {nodes : List Node}
    (h : ∀ a ∈ nodes, a.info.netid ≠ info.netid) :
    insertNode info now nodes = nodes ++ [⟨info.newInfo now, info.insertSub []⟩] := by
  induction nodes with
  | nil => rfl
  | cons a as ih =>
    have hrest := ih fun b hb => h b (List.mem_cons_of_mem _ hb)
    simp only [List.cons_append, insertNode, if_neg (h a List.mem_cons_self), hrest]

/-- A node with no addresses behind it yet. -/
theorem addNode_spec {s : Registry} {L : List Ptr} {K : Ptr → List Ptr} (h : Linked s L K)
    {p : Ptr} (hp : s.mheap p = none) (info : MnodeInfo) :
    ∃ mheap mnode,
      link (write s.mheap p (some ⟨⟨info, none⟩, none, none⟩)) s.mnode L.getLast? p =
        some (mheap, mnode) ∧
      (∃ c, mheap p = some c ∧ c.data = ⟨info, none⟩) ∧
      Linked { s with mheap := mheap, mnode := mnode } (L ++ [p]) (Function.update K p []) ∧
      ∀ y ∈ L, nodeAt { s with mheap := mheap, mnode := mnode } (Function.update K p []) y =
        nodeAt s K y := by
  have hpL := h.list.not_mem hp
  have hne : ∀ y ∈ L, y ≠ p := fun y hy he => hpL (he ▸ hy)
  obtain ⟨mheap, mnode, hlink, hlist, -, hnew, hdata⟩ := h.list.link hp (⟨info, none⟩ : Mnode)
  refine ⟨mheap, mnode, hlink, Option.map_eq_some_iff.mp hnew, ⟨hlist, ?_, ?_⟩, fun y hy => ?_⟩
  · intro y hy d hd
    dsimp only at hd ⊢
    rcases List.mem_append.mp hy with hy | hy
    · obtain ⟨e, he, hed⟩ := Option.map_eq_some_iff.mp
        ((hdata y (hne y hy)).symm.trans (congrArg (Option.map Cell.data) hd))
      rw [← hed, Function.update_of_ne (hne y hy)]
      exact h.subs y hy e he
    · rw [List.mem_singleton.mp hy] at hd ⊢
      have hnone := hnew.symm.trans (congrArg (Option.map Cell.data) hd)
      rw [Function.update_self, ← Option.some.inj hnone]
      exact ⟨none, rfl, rfl⟩
  · intro y hy y' hy' hyy z hz
    rcases List.mem_append.mp hy with hy | hy
    · rw [Function.update_of_ne (hne y hy)] at hz
      rcases List.mem_append.mp hy' with hy' | hy'
      · rw [Function.update_of_ne (hne y' hy')]
        exact h.disjoint y hy y' hy' hyy z hz
      · rw [List.mem_singleton.mp hy', Function.update_self]
        exact List.not_mem_nil
    · rw [List.mem_singleton.mp hy, Function.update_self] at hz
      exact absurd hz List.not_mem_nil
  · have hsame := congrArg (Option.map Mnode.info) (hdata y (hne y hy))
    rw [Option.map_map, Option.map_map] at hsame
    exact nodeAt_congr hsame (by rw [Function.update_of_ne (hne y hy)])

/-- The nodes around the one at `x`. -/
theorem nodesOf_around {s s' : Registry} {K K' : Ptr → List Ptr} {A B : List Ptr} {x : Ptr}
    {node : Node} (hx : nodeAt s' K' x = some node)
    (hf : ∀ y ∈ A ++ B, nodeAt s' K' y = nodeAt s K y) :
    nodesOf s' K' (A ++ x :: B) = nodesOf s K A ++ node :: nodesOf s K B := by
  have hB : nodesOf s' K' (x :: B) = node :: nodesOf s' K' B := List.filterMap_cons_some hx
  rw [nodesOf_append, hB, nodesOf_congr fun y hy => hf y (List.mem_append_left _ hy),
    nodesOf_congr fun y hy => hf y (List.mem_append_right _ hy)]

theorem zgbMnodeInsert_spec {s : Registry} {L : List Ptr} {K : Ptr → List Ptr} (h : Linked s L K)
    {p q : Ptr} (hp : s.mheap p = none) (hq : s.sheap q = none) (info : Scan) (now : UInt32) :
    ∃ s', (∃ n, ∀ fuel, n ≤ fuel → zgbMnodeInsert fuel s info now p q = some s') ∧
      Represents s' (insertNode info now (nodesOf s K L)) := by
  obtain ⟨r, hfound, hr⟩ := findCell_spec h.list fun m => decide (m.info.netid = info.netid)
  cases hfound with
  | none hall =>
    obtain ⟨mheap, mnode, hlink, ⟨c, hc, hcd⟩, h1, hsame⟩ := addNode_spec h hp (info.newInfo now)
    obtain ⟨s', K', hins, h2, hnode, hother⟩ := mnodeSnodeInsert_spec h1 hc hq info
    have hwalk : ∀ fuel, L.length < fuel →
        walkLast (write s.mheap p (some ⟨⟨info.newInfo now, none⟩, none, none⟩)) fuel s.mnode =
          some L.getLast? := fun fuel hfuel => by
      obtain ⟨last, hs⟩ := h.list
      exact walkLast_fuel (hs.write (h.list.not_mem hp) _) hfuel
    refine ⟨s', ⟨L.length + 1, fun fuel hfuel => ?_⟩, L ++ [p], K', h2, ?_⟩
    · have hzero : (Function.update K p [] p).length < fuel := by
        rw [Function.update_self]
        exact Nat.zero_lt_of_lt hfuel
      simp [zgbMnodeInsert, hr fuel hfuel, hwalk fuel hfuel, hlink, hins fuel hzero]
    · have hne : ∀ a ∈ nodesOf s K L, a.info.netid ≠ info.netid := fun a ha => by
        obtain ⟨x, hx, d, hd, rfl⟩ := mem_nodesOf ha
        exact of_decide_eq_false (hall x hx d hd)
      have hpay : payloads s.sheap (Function.update K p [] p) = [] := by
        rw [Function.update_self]
        rfl
      rw [nodesOf_around (s := s) (K := K) hnode fun y hy => by
        rw [List.append_nil] at hy
        rw [hother y (by rwa [List.append_nil]), hsame y hy], insertNode_of_forall_ne info now hne,
        hcd]
      dsimp only
      rw [hpay]
      rfl
  | some A x B c hL hc hx hA =>
    subst hL
    obtain ⟨mheap, hset, hmx, h1, hframe⟩ := setInfo_spec h hc (info.refresh now c.data.info)
    obtain ⟨s', K', hins, h2, hnode, hother⟩ := mnodeSnodeInsert_spec h1 hmx hq info
    have hset' : setData s.mheap x (fun m => { m with info := info.refresh now m.info }) =
        some mheap := by
      rw [← hset]
      simp only [setData, hc, Option.map_some]
      rfl
    refine ⟨s', ⟨(A ++ x :: B).length + (K x).length + 1, fun fuel hfuel => ?_⟩, A ++ x :: B, K',
      h2, ?_⟩
    · simp [zgbMnodeInsert, hr fuel (by omega), hset', hins fuel (by omega)]
    · have hsame : ∀ y ∈ A ++ B, nodeAt s' K' y = nodeAt s K y := fun y hy => by
        rw [hother y hy, hframe y (h.ne y hy)]
      have hne : ∀ a ∈ nodesOf s K A, a.info.netid ≠ info.netid := fun a ha => by
        obtain ⟨y, hy, d, hd, rfl⟩ := mem_nodesOf ha
        exact of_decide_eq_false (hA y hy d hd)
      rw [nodesOf_around hnode hsame, nodesOf_append, nodesOf_cons hc,
        insertNode_append info now hne (of_decide_eq_true hx)]
      rfl

theorem zgbMnodeRmWithId_spec {s : Registry} {L : List Ptr} {K : Ptr → List Ptr}
    (h : Linked s L K) (netid : UInt16) :
    ∃ s', (∃ n, ∀ fuel, n ≤ fuel → zgbMnodeRmWithId fuel s netid = some s') ∧
      Represents s' ((nodesOf s K L).eraseP fun node => decide (node.info.netid = netid)) := by
  obtain ⟨r, hfound, hr⟩ := findCell_spec h.list fun m => decide (m.info.netid = netid)
  cases hfound with
  | none hall =>
    refine ⟨s, ⟨L.length + 1, fun fuel hfuel => by simp [zgbMnodeRmWithId, hr fuel hfuel]⟩, L, K, h,
      (List.eraseP_of_forall_not fun a ha => ?_).symm⟩
    obtain ⟨x, hx, d, hd, rfl⟩ := mem_nodesOf ha
    exact Bool.eq_false_iff.mp (hall x hx d hd)
  | some A x B c hL hc hx hA =>
    subst hL
    obtain ⟨s', hfree, h1, hsame⟩ := mnodeFree_spec h
    refine ⟨s', ⟨(A ++ x :: B).length + (K x).length + 1, fun fuel hfuel => ?_⟩, A ++ B, K, h1, ?_⟩
    · simp [zgbMnodeRmWithId, hr fuel (by omega), hfree fuel (by omega)]
    · have hfirst : ∀ a ∈ nodesOf s K A, ¬ decide (a.info.netid = netid) = true := fun a ha => by
        obtain ⟨y, hy, d, hd, rfl⟩ := mem_nodesOf ha
        exact Bool.eq_false_iff.mp (hA y hy d hd)
      have hsecond : List.eraseP (fun node : Node => decide (node.info.netid = netid))
          (⟨c.data.info, payloads s.sheap (K x)⟩ :: nodesOf s K B) = nodesOf s K B :=
        List.eraseP_cons_of_pos hx
      rw [nodesOf_congr hsame, nodesOf_append, nodesOf_append, nodesOf_cons hc,
        List.eraseP_append_right _ hfirst, hsecond]

/-- The loop over all nodes frees them one after the other. -/
theorem rmAllLoop_spec {s : Registry} {prev x last : Option Ptr} {L : List Ptr}
    {K : Ptr → List Ptr} (hs : Seg s.mheap prev x L last none)
    (hsubs : ∀ p ∈ L, ∀ c, s.mheap p = some c → DList s.sheap c.data.snode (K p))
    (hdisj : ∀ p ∈ L, ∀ p' ∈ L, p ≠ p' → ∀ x ∈ K p, x ∉ K p') :
    ∃ s', ∃ m, ∀ n fuel, m ≤ n → L.length < fuel → rmAllLoop n fuel s x = some s' := by
  induction L generalizing s prev x with
  | nil =>
    refine ⟨s, 0, fun n fuel _ hfuel => ?_⟩
    obtain ⟨k, rfl⟩ := Nat.exists_eq_succ_of_ne_zero (Nat.ne_of_gt hfuel)
    rw [show x = none from hs.2]
    rfl
  | cons y L ih =>
    have hy : y ∉ L := (List.nodup_cons.mp hs.nodup).1
    obtain ⟨rfl, c, hc, -, ht⟩ := hs
    have hne : ∀ p ∈ L, p ≠ y := fun p hp he => hy (he ▸ hp)
    obtain ⟨last', hsub⟩ := hsubs y List.mem_cons_self c hc
    obtain ⟨sheap, hrm, hframe⟩ := snodeRmAll_spec hsub
    obtain ⟨s', m, hrun⟩ := ih (s := { s with mheap := write s.mheap y none, sheap := sheap })
      (ht.write hy none)
      (fun p hp d hd => by
        dsimp only at hd
        rw [write_of_ne _ _ (hne p hp)] at hd
        exact (hsubs p (List.mem_cons_of_mem _ hp) d hd).frame fun z hz =>
          hframe z (hdisj p (List.mem_cons_of_mem _ hp) y List.mem_cons_self (hne p hp) z hz))
      (fun p hp p' hp' => hdisj p (List.mem_cons_of_mem _ hp) p' (List.mem_cons_of_mem _ hp'))
    refine ⟨s', m + (K y).length + 1, fun n fuel hn hfuel => ?_⟩
    obtain ⟨k, rfl⟩ := Nat.exists_eq_succ_of_ne_zero (Nat.ne_of_gt (Nat.zero_lt_of_lt hfuel))
    simp [rmAllLoop, hc, hrm n (by omega), hrun n k (by omega) (Nat.lt_of_succ_lt_succ hfuel)]

theorem zgbMnodeRmAll_spec {s : Registry} {L : List Ptr} {K : Ptr → List Ptr} (h : Linked s L K) :
    ∃ s', (∃ n, ∀ fuel, n ≤ fuel → zgbMnodeRmAll fuel s = some s') ∧ Represents s' [] := by
  obtain ⟨last, hs⟩ := h.list
  obtain ⟨s', m, hrun⟩ := rmAllLoop_spec hs h.subs h.disjoint
  refine ⟨{ s' with mnode := none }, ⟨m + L.length + 1, fun fuel hfuel => ?_⟩, [], fun _ => [],
    ⟨⟨none, rfl, rfl⟩, fun _ hp => absurd hp List.not_mem_nil, fun _ hp => absurd hp List.not_mem_nil⟩,
    rfl⟩
  simp [zgbMnodeRmAll, hrun fuel fuel (by omega) (by omega)]

/-- The loop over the nodes `B` behind the nodes `A`. -/
theorem checkLoop_spec {s : Registry} {A B : List Ptr} {K : Ptr → List Ptr}
    (h : Linked s (A ++ B) K) (ulLearnStep now : UInt32) :
    ∃ s', (∃ m, ∀ n fuel, m ≤ n → B.length < fuel →
      checkLoop n ulLearnStep now fuel s B.head? = some s') ∧
      Represents s' (nodesOf s K A ++
        (Call.checkOnline ulLearnStep now).apply (nodesOf s K B)) := by
  induction B generalizing s A with
  | nil =>
    refine ⟨s, ⟨0, fun n fuel _ hfuel => ?_⟩, A ++ [], K, h, by simp; rfl⟩
    obtain ⟨k, rfl⟩ := Nat.exists_eq_succ_of_ne_zero (Nat.ne_of_gt hfuel)
    rfl
  | cons x B ih =>
    obtain ⟨c, hc, hnext⟩ := h.list.cell
    cases hcheck : c.data.info.check ulLearnStep now with
    | some info =>
      obtain ⟨mheap, hset, hmx, h1, hframe⟩ := setInfo_spec h hc info
      have hA : ∀ y ∈ A ++ B, nodeAt { s with mheap := mheap } K y = nodeAt s K y := fun y hy =>
        hframe y (h.ne y hy)
      have h1' : Linked { s with mheap := mheap } ((A ++ [x]) ++ B) K := by
        rwa [List.append_assoc]
      obtain ⟨s', ⟨m, hrun⟩, hrep⟩ := ih h1'
      refine ⟨s', ⟨m, fun n fuel hn hfuel => ?_⟩, ?_⟩
      · obtain ⟨k, rfl⟩ := Nat.exists_eq_succ_of_ne_zero (Nat.ne_of_gt (Nat.zero_lt_of_lt hfuel))
        simp [checkLoop, hc, hcheck, hset, hnext, hrun n k hn (Nat.lt_of_succ_lt_succ hfuel)]
      · have hnode : nodesOf { s with mheap := mheap } K [x] =
            [⟨info, payloads s.sheap (K x)⟩] := by
          simp only [nodesOf, nodeAt, hmx, List.filterMap_cons, Option.map_some, List.filterMap_nil]
          rfl
        rw [nodesOf_append, hnode, nodesOf_congr fun y hy => hA y (List.mem_append_left _ hy),
          nodesOf_congr fun y hy => hA y (List.mem_append_right _ hy)] at hrep
        rw [nodesOf_cons hc]
        simpa [Call.apply, hcheck] using hrep
    | none =>
      obtain ⟨s1, hfree, h1, hsame⟩ := mnodeFree_spec h
      obtain ⟨s', ⟨m, hrun⟩, hrep⟩ := ih h1
      refine ⟨s', ⟨m + (K x).length + 1, fun n fuel hn hfuel => ?_⟩, ?_⟩
      · obtain ⟨k, rfl⟩ := Nat.exists_eq_succ_of_ne_zero (Nat.ne_of_gt (Nat.zero_lt_of_lt hfuel))
        simp [checkLoop, hc, hcheck, hnext, hfree n (by omega),
          hrun n k (by omega) (Nat.lt_of_succ_lt_succ hfuel)]
      · rw [nodesOf_congr fun y hy => hsame y (List.mem_append_left _ hy),
          nodesOf_congr fun y hy => hsame y (List.mem_append_right _ hy)] at hrep
        rw [nodesOf_cons hc]
        simpa [Call.apply, hcheck] using hrep

theorem zgbCheckOnline_spec {s : Registry} {L : List Ptr} {K : Ptr → List Ptr} (h : Linked s L K)
    (ulLearnStep now : UInt32) :
    ∃ s', (∃ n, ∀ fuel, n ≤ fuel → zgbCheckOnline fuel s ulLearnStep now = some s') ∧
      Represents s' ((Call.checkOnline ulLearnStep now).apply (nodesOf s K L)) := by
  obtain ⟨s', ⟨m, hrun⟩, hrep⟩ := checkLoop_spec (A := []) h ulLearnStep now
  refine ⟨s', ⟨m + L.length + 1, fun fuel hfuel => ?_⟩, hrep⟩
  unfold zgbCheckOnline
  rw [h.list.head_eq]
  exact hrun fuel fuel (by omega) (by omega)

/-- With free cells every call comes back and does to the nodes what it says. -/
theorem exec_represents {s : Registry} {nodes : List Node} (h : Represents s nodes) {p q : Ptr}
    (hp : s.mheap p = none) (hq : s.sheap q = none) (call : Call) :
    ∃ s', (∃ n, ∀ fuel, n ≤ fuel → exec fuel s p q call = some s') ∧
      Represents s' (call.apply nodes) := by
  obtain ⟨L, K, hlinked, rfl⟩ := h
  cases call with
  | insert info now => exact zgbMnodeInsert_spec hlinked hp hq info now
  | rmWithId netid => exact zgbMnodeRmWithId_spec hlinked netid
  | rmAll => exact zgbMnodeRmAll_spec hlinked
  | checkOnline ulLearnStep now => exact zgbCheckOnline_spec hlinked ulLearnStep now

theorem Step.represents {s s' : Registry} {call : Call} (hstep : Step s call s')
    {nodes : List Node} (h : Represents s nodes) : Represents s' (call.apply nodes) := by
  obtain ⟨p, q, hp, hq, n, hrun⟩ := hstep
  obtain ⟨s'', ⟨n', hrun'⟩, hrep⟩ := exec_represents h hp hq call
  have hsame := (hrun (n + n') (Nat.le_add_right _ _)).symm.trans
    (hrun' (n + n') (Nat.le_add_left _ _))
  rw [Option.some.inj hsame]
  exact hrep

theorem represents_init : Represents zgbStdInit [] :=
  ⟨[], fun _ => [], ⟨⟨none, rfl, rfl⟩, fun _ hp => absurd hp List.not_mem_nil,
    fun _ hp => absurd hp List.not_mem_nil⟩, rfl⟩

end K64Gateway.Zigbee
