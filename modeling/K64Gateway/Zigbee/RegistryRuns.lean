import K64Gateway.Zigbee.RegistryLinked

/-
  The Zigbee registry over whole runs: whatever calls come in whatever order, the lists are well
  formed, no network address and no type of a node stands twice, and each cell of addresses is that
  of the last response for it since its node was created (`registry_ok`).
-/

namespace K64Gateway.Zigbee

open LinkedHeap

/-! ## One registry, one list of nodes -/

theorem Represents.unique {s : Registry} {nodes nodes' : List Node} (h : Represents s nodes)
    (h' : Represents s nodes') : nodes = nodes' := by
  obtain ⟨L, K, hL, rfl⟩ := h
  obtain ⟨L', K', hL', rfl⟩ := h'
  obtain rfl : L = L' := hL.list.unique hL'.list
  refine nodesOf_congr fun p hp => ?_
  obtain ⟨c, hc⟩ := hL.list.allocated hp
  exact nodeAt_congr rfl (by rw [(hL.subs p hp c hc).unique (hL'.subs p hp c hc)])

/-- A node with this network address is in the registry. -/
def Present (s : Registry) (netid : UInt16) : Prop :=
  ∃ nodes, Represents s nodes ∧ ∃ node ∈ nodes, node.info.netid = netid

theorem present_iff {s : Registry} {nodes : List Node} (h : Represents s nodes) (netid : UInt16) :
    Present s netid ↔ ∃ node ∈ nodes, node.info.netid = netid := by
  constructor
  · rintro ⟨nodes', h', hnode⟩
    rwa [h.unique h']
  · exact fun hnode => ⟨nodes, h, hnode⟩

/-! ## Runs -/

/-- The response of a call, if it is one of this node. -/
def Call.responses (netid : UInt16) : Call → List Scan
  | .insert info _ => if info.netid = netid then [info] else []
  | _ => []

/-- `g'` are the responses since the nodes were created, after a call that led to `s'`. -/
def Since (call : Call) (s' : Registry) (g g' : UInt16 → List Scan) : Prop :=
  ∀ netid, (Present s' netid → g' netid = g netid ++ call.responses netid) ∧
    (¬ Present s' netid → g' netid = [])

/-- A registry that calls lead to, with the responses since its nodes were created. -/
inductive Run : Registry → (UInt16 → List Scan) → Prop
  | init : Run zgbStdInit fun _ => []
  | step {s s' : Registry} {g g' : UInt16 → List Scan} {call : Call} :
      Run s g → Step s call s' → Since call s' g g' → Run s' g'

/-- The last response of a type. -/
def lastOf (type : UInt8) (responses : List Scan) : Option Scan :=
  (responses.filter fun info => decide (info.type = type)).getLast?

/-- The cell of a type. -/
def subOf (type : UInt8) (subs : List Snode) : Option Snode :=
  subs.find? fun d => decide (d.type = type)

/-- The registry holds nodes of different network addresses, each with one cell at most for every
    type, and the cell is that of the last response, with `queue` in it. -/
structure Holds (queue : Scan → List UInt8) (nodes : List Node) (g : UInt16 → List Scan) :
    Prop where
  netids : (nodes.map fun node => node.info.netid).Nodup
  types : ∀ node ∈ nodes, (node.subs.map Snode.type).Nodup
  last : ∀ node ∈ nodes, ∀ type, subOf type node.subs =
    (lastOf type (g node.info.netid)).map fun info => ⟨info.type, info.cnt, queue info⟩

/-! ## Cells -/

theorem lastOf_append (type : UInt8) (responses : List Scan) (info : Scan) :
    lastOf type (responses ++ [info]) =
      if info.type = type then some info else lastOf type responses := by
  unfold lastOf
  by_cases h : info.type = type <;> simp [h]

/-- Where no type stands twice, the cells of the other types are left. -/
theorem eraseP_eq_filter (type : UInt8) {subs : List Snode}
    (hsubs : (subs.map Snode.type).Nodup) :
    subs.eraseP (fun d => decide (d.type = type)) = subs.filter fun d => decide (d.type ≠ type) := by
  induction subs with
  | nil => rfl
  | cons d subs ih =>
    obtain ⟨hd, hrest⟩ := List.nodup_cons.mp hsubs
    by_cases htype : d.type = type
    · have hall : ∀ e ∈ subs, e.type ≠ type := fun e he heq =>
        hd (List.mem_map.mpr ⟨e, he, heq.trans htype.symm⟩)
      rw [List.eraseP_cons_of_pos (by simpa using htype),
        List.filter_cons_of_neg (by simpa using htype)]
      exact (List.filter_eq_self.mpr fun e he => by simpa using hall e he).symm
    · rw [List.eraseP_cons_of_neg (by simpa using htype),
        List.filter_cons_of_pos (by simpa using htype), ih hrest]

/-- The new cell is found, and of the others those that were found before. -/
theorem subOf_insertSub (info : Scan) (type : UInt8) {subs : List Snode}
    (hsubs : (subs.map Snode.type).Nodup) :
    subOf type (info.insertSub subs) =
      if info.type = type then some info.snode else subOf type subs := by
  unfold Scan.insertSub subOf
  rw [eraseP_eq_filter _ hsubs, List.find?_append, List.find?_filter]
  by_cases h : info.type = type
  · rw [if_pos h, List.find?_eq_none.mpr fun e _ => by simp [h]]
    simp [Scan.snode, h]
  · have hsame : (fun d : Snode => decide (decide (d.type ≠ info.type) = true ∧
        decide (d.type = type) = true)) = fun d => decide (d.type = type) := by
      funext d
      by_cases hd : d.type = type
      · simp [hd, Ne.symm h]
      · simp [hd]
    rw [if_neg h, hsame]
    simp [Scan.snode, h]

theorem nodup_insertSub (info : Scan) {subs : List Snode} (hsubs : (subs.map Snode.type).Nodup) :
    ((info.insertSub subs).map Snode.type).Nodup := by
  unfold Scan.insertSub
  rw [eraseP_eq_filter _ hsubs, List.map_append, List.map_singleton]
  refine List.nodup_append.mpr ⟨hsubs.sublist (List.filter_sublist.map _), List.nodup_singleton _, ?_⟩
  intro type htype t ht heq
  obtain ⟨d, hd, rfl⟩ := List.mem_map.mp htype
  have hne : d.type ≠ info.type := of_decide_eq_true (List.mem_filter.mp hd).2
  exact hne (heq.trans (List.mem_singleton.mp ht))

/-! ## Nodes -/

/-- A response leaves the network addresses, but for the one of a new node. -/
theorem netids_insertNode (info : Scan) (now : UInt32) (nodes : List Node) :
    (insertNode info now nodes).map (fun node => node.info.netid) =
      nodes.map (fun node => node.info.netid) ++
        if ∃ node ∈ nodes, node.info.netid = info.netid then [] else [info.netid] := by
  induction nodes with
  | nil => simp [insertNode, Scan.newInfo]
  | cons node nodes ih =>
    unfold insertNode
    by_cases h : node.info.netid = info.netid
    · have hrefresh : (info.refresh now node.info).netid = info.netid := by
        unfold Scan.refresh
        dsimp only
        split <;> rfl
      simp [h, hrefresh]
    · rw [if_neg h, List.map_cons, ih]
      simp [h]

/-- The node of the response is there. -/
theorem exists_mem_insertNode (info : Scan) (now : UInt32) (nodes : List Node) :
    ∃ node ∈ insertNode info now nodes, node.info.netid = info.netid := by
  have hmem : info.netid ∈ (insertNode info now nodes).map fun node => node.info.netid := by
    rw [netids_insertNode]
    split
    · next hold =>
      obtain ⟨old, hmem, hnetid⟩ := hold
      exact List.mem_append_left _ (List.mem_map.mpr ⟨old, hmem, hnetid⟩)
    · exact List.mem_append_right _ (List.mem_singleton_self _)
  obtain ⟨node, hnode, hnetid⟩ := List.mem_map.mp hmem
  exact ⟨node, hnode, hnetid⟩

theorem nodup_insertNode (info : Scan) (now : UInt32) {nodes : List Node}
    (h : (nodes.map fun node => node.info.netid).Nodup) :
    ((insertNode info now nodes).map fun node => node.info.netid).Nodup := by
  rw [netids_insertNode]
  split
  · rwa [List.append_nil]
  · next hnone =>
    refine List.nodup_append.mpr ⟨h, List.nodup_singleton _, fun a ha b hb heq => hnone ?_⟩
    obtain ⟨old, hold, rfl⟩ := List.mem_map.mp ha
    exact ⟨old, hold, heq.trans (List.mem_singleton.mp hb)⟩

/-- A node after a response: one that it is not for, the one it is for, or a new one. -/
theorem mem_insertNode {info : Scan} {now : UInt32} {nodes : List Node} {node : Node}
    (hnodes : (nodes.map fun node => node.info.netid).Nodup)
    (h : node ∈ insertNode info now nodes) :
    (node ∈ nodes ∧ node.info.netid ≠ info.netid) ∨
      (∃ old ∈ nodes, old.info.netid = info.netid ∧
        node = ⟨info.refresh now old.info, info.insertSub old.subs⟩) ∨
      ((∀ old ∈ nodes, old.info.netid ≠ info.netid) ∧
        node = ⟨info.newInfo now, info.insertSub []⟩) := by
  by_cases hold : ∃ old ∈ nodes, old.info.netid = info.netid
  · obtain ⟨old, hmem, hnetid⟩ := hold
    obtain ⟨as, bs, rfl⟩ := List.append_of_mem hmem
    have hne : ∀ a ∈ as ++ bs, a.info.netid ≠ info.netid := fun a ha heq => by
      rw [List.map_append, List.map_cons, List.nodup_append, List.nodup_cons] at hnodes
      rw [← hnetid] at heq
      rcases List.mem_append.mp ha with ha | ha
      · exact hnodes.2.2 _ (List.mem_map_of_mem ha) _ List.mem_cons_self heq
      · exact hnodes.2.1.1 (List.mem_map.mpr ⟨a, ha, heq⟩)
    rw [insertNode_append info now (fun a ha => hne a (List.mem_append_left _ ha)) hnetid] at h
    rcases List.mem_append.mp h with h | h
    · exact .inl ⟨List.mem_append_left _ h, hne _ (List.mem_append_left _ h)⟩
    · rcases List.mem_cons.mp h with rfl | h
      · exact .inr (.inl ⟨old, hmem, hnetid, rfl⟩)
      · exact .inl ⟨List.mem_append_right _ (List.mem_cons_of_mem _ h),
          hne _ (List.mem_append_right _ h)⟩
  · have hne : ∀ old ∈ nodes, old.info.netid ≠ info.netid := fun old hmem hnetid =>
      hold ⟨old, hmem, hnetid⟩
    rw [insertNode_of_forall_ne info now hne] at h
    rcases List.mem_append.mp h with h | h
    · exact .inl ⟨h, hne _ h⟩
    · exact .inr (.inr ⟨hne, List.mem_singleton.mp h⟩)

theorem MnodeInfo.check_netid {ulLearnStep now : UInt32} {m m' : MnodeInfo}
    (h : m.check ulLearnStep now = some m') : m'.netid = m.netid := by
  unfold MnodeInfo.check at h
  split at h
  · split at h <;> rw [← Option.some.inj h]
  · split at h
    · exact absurd h (Option.some_ne_none m').symm
    · rw [← Option.some.inj h]

/-- What the other calls leave of a node: its network address and what is behind it. -/
theorem mem_apply {call : Call} (hcall : ∀ info now, call ≠ .insert info now) {nodes : List Node}
    {node : Node} (h : node ∈ call.apply nodes) :
    ∃ old ∈ nodes, node.info.netid = old.info.netid ∧ node.subs = old.subs := by
  cases call with
  | insert info now => exact absurd rfl (hcall info now)
  | rmWithId netid => exact ⟨node, List.eraseP_subset h, rfl, rfl⟩
  | rmAll => exact absurd h List.not_mem_nil
  | checkOnline ulLearnStep now =>
    obtain ⟨old, hold, hcheck⟩ := List.mem_filterMap.mp h
    obtain ⟨info, hinfo, rfl⟩ := Option.map_eq_some_iff.mp hcheck
    exact ⟨old, hold, MnodeInfo.check_netid hinfo, rfl⟩

theorem netids_apply {call : Call} (hcall : ∀ info now, call ≠ .insert info now)
    (nodes : List Node) :
    ((call.apply nodes).map fun node => node.info.netid).Sublist
      (nodes.map fun node => node.info.netid) := by
  cases call with
  | insert info now => exact absurd rfl (hcall info now)
  | rmWithId netid => exact List.eraseP_sublist.map _
  | rmAll => exact List.nil_sublist _
  | checkOnline ulLearnStep now =>
    induction nodes with
    | nil => exact List.nil_sublist _
    | cons node nodes ih =>
      unfold Call.apply at ih ⊢
      dsimp only at ih ⊢
      rw [List.filterMap_cons, List.map_cons]
      cases hcheck : node.info.check ulLearnStep now with
      | none => exact ih.cons _
      | some info =>
        dsimp only [Option.map_some]
        rw [List.map_cons, MnodeInfo.check_netid hcheck]
        exact ih.cons_cons _

/-! ## Every run -/

/-- The invariant of a run: nothing is remembered of a node that is not there. -/
structure Tracked (nodes : List Node) (g : UInt16 → List Scan) : Prop where
  holds : Holds Scan.lst nodes g
  absent : ∀ netid, (∀ node ∈ nodes, node.info.netid ≠ netid) → g netid = []

theorem Tracked.init : Tracked [] fun _ => [] :=
  ⟨⟨List.nodup_nil, fun _ h => absurd h List.not_mem_nil, fun _ h => absurd h List.not_mem_nil⟩,
    fun _ _ => rfl⟩

theorem Scan.refresh_netid (info : Scan) (now : UInt32) (m : MnodeInfo) :
    (info.refresh now m).netid = info.netid := by
  unfold Scan.refresh
  dsimp only
  split <;> rfl

/-- The cell of a node that a response is for. -/
theorem subOf_response {info : Scan} {subs : List Snode} {responses : List Scan}
    (htypes : (subs.map Snode.type).Nodup)
    (hlast : ∀ type, subOf type subs = (lastOf type responses).map Scan.snode) (type : UInt8) :
    subOf type (info.insertSub subs) = (lastOf type (responses ++ [info])).map Scan.snode := by
  rw [subOf_insertSub info type htypes, lastOf_append]
  split
  · rfl
  · exact hlast type

theorem Tracked.insert {nodes : List Node} {g g' : UInt16 → List Scan} (h : Tracked nodes g)
    (info : Scan) (now : UInt32)
    (hg : ∀ netid, (∃ node ∈ insertNode info now nodes, node.info.netid = netid) →
      g' netid = g netid ++ (Call.insert info now).responses netid)
    (hg' : ∀ netid, (∀ node ∈ insertNode info now nodes, node.info.netid ≠ netid) → g' netid = []) :
    Tracked (insertNode info now nodes) g' := by
  have hnetids := h.holds.netids
  have hself : (Call.insert info now).responses info.netid = [info] := if_pos rfl
  refine ⟨⟨nodup_insertNode info now hnetids, fun node hnode => ?_, fun node hnode type => ?_⟩, hg'⟩
  · rcases mem_insertNode hnetids hnode with ⟨hold, -⟩ | ⟨old, hold, -, rfl⟩ | ⟨-, rfl⟩
    · exact h.holds.types node hold
    · exact nodup_insertSub info (h.holds.types old hold)
    · exact nodup_insertSub info List.nodup_nil
  · have hresponses := hg node.info.netid ⟨node, hnode, rfl⟩
    rcases mem_insertNode hnetids hnode with ⟨hold, hne⟩ | ⟨old, hold, hnetid, rfl⟩ | ⟨hnone, rfl⟩
    · have hother : (Call.insert info now).responses node.info.netid = [] := if_neg hne.symm
      rw [hresponses, hother, List.append_nil]
      exact h.holds.last node hold type
    · dsimp only at hresponses ⊢
      rw [Scan.refresh_netid] at hresponses ⊢
      rw [hresponses, hself, ← hnetid]
      exact subOf_response (h.holds.types old hold) (h.holds.last old hold) type
    · have hnew : (info.newInfo now).netid = info.netid := rfl
      dsimp only at hresponses ⊢
      rw [hnew] at hresponses ⊢
      rw [hresponses, hself, h.absent info.netid hnone]
      have hnil : (([] : List Snode).map Snode.type).Nodup := List.nodup_nil
      exact subOf_response hnil (fun _ => rfl) type

theorem Tracked.other {nodes : List Node} {g g' : UInt16 → List Scan} (h : Tracked nodes g)
    {call : Call} (hcall : ∀ info now, call ≠ .insert info now)
    (hg : ∀ netid, (∃ node ∈ call.apply nodes, node.info.netid = netid) →
      g' netid = g netid ++ call.responses netid)
    (hg' : ∀ netid, (∀ node ∈ call.apply nodes, node.info.netid ≠ netid) → g' netid = []) :
    Tracked (call.apply nodes) g' := by
  have hnone : ∀ netid, call.responses netid = [] := fun netid => by
    cases call with
    | insert info now => exact absurd rfl (hcall info now)
    | rmWithId _ => rfl
    | rmAll => rfl
    | checkOnline _ _ => rfl
  refine ⟨⟨h.holds.netids.sublist (netids_apply hcall nodes), fun node hnode => ?_,
    fun node hnode type => ?_⟩, hg'⟩
  · obtain ⟨old, hold, -, hsubs⟩ := mem_apply hcall hnode
    rw [hsubs]
    exact h.holds.types old hold
  · obtain ⟨old, hold, hnetid, hsubs⟩ := mem_apply hcall hnode
    rw [hg _ ⟨node, hnode, rfl⟩, hnone, List.append_nil, hsubs, hnetid]
    exact h.holds.last old hold type

/-- A call keeps what the responses say of the registry. -/
theorem Tracked.apply {nodes : List Node} {g g' : UInt16 → List Scan} (h : Tracked nodes g)
    {call : Call} {s' : Registry} (hs' : Represents s' (call.apply nodes))
    (hsince : Since call s' g g') : Tracked (call.apply nodes) g' := by
  have hg : ∀ netid, (∃ node ∈ call.apply nodes, node.info.netid = netid) →
      g' netid = g netid ++ call.responses netid := fun netid hnode =>
    (hsince netid).1 ((present_iff hs' netid).mpr hnode)
  have hg' : ∀ netid, (∀ node ∈ call.apply nodes, node.info.netid ≠ netid) → g' netid = [] :=
    fun netid hnone => (hsince netid).2 fun hpresent => by
      obtain ⟨node, hnode, hnetid⟩ := (present_iff hs' netid).mp hpresent
      exact hnone node hnode hnetid
  cases call with
  | insert info now => exact h.insert info now hg hg'
  | rmWithId netid => exact h.other nofun hg hg'
  | rmAll => exact h.other nofun hg hg'
  | checkOnline ulLearnStep now => exact h.other nofun hg hg'

theorem Run.tracked {s : Registry} {g : UInt16 → List Scan} (h : Run s g) :
    ∃ nodes, Represents s nodes ∧ Tracked nodes g := by
  induction h with
  | init => exact ⟨[], represents_init, Tracked.init⟩
  | step _ hstep hsince ih =>
    obtain ⟨nodes, hs, htracked⟩ := ih
    have hs' := hstep.represents hs
    exact ⟨_, hs', htracked.apply hs' hsince⟩

/-- A registry that is well formed, holds what its responses say, and takes every further call. -/
structure RegistryOk (queue : Scan → List UInt8) (s : Registry) (g : UInt16 → List Scan) :
    Prop where
  nodes : ∃ nodes, Represents s nodes ∧ Holds queue nodes g
  calls : ∀ p q, s.mheap p = none → s.sheap q = none → ∀ call,
    ∃ s' n, ∀ fuel, n ≤ fuel → exec fuel s p q call = some s'

theorem registry_ok {s : Registry} {g : UInt16 → List Scan} (h : Run s g) :
    RegistryOk Scan.lst s g := by
  obtain ⟨nodes, hs, htracked⟩ := h.tracked
  refine ⟨⟨nodes, hs, htracked.holds⟩, fun p q hp hq call => ?_⟩
  obtain ⟨s', ⟨n, hrun⟩, -⟩ := exec_represents hs hp hq call
  exact ⟨s', n, hrun⟩

/-! ## One response -/

/-- The responses since the nodes were created are settled by the registry after the call. -/
theorem exists_since (call : Call) (s' : Registry) (g : UInt16 → List Scan) :
    ∃ g', Since call s' g g' := by
  classical
  exact ⟨fun netid => if Present s' netid then g netid ++ call.responses netid else [],
    fun _ => ⟨fun h => if_pos h, fun h => if_neg h⟩⟩

/-- A first response. -/
theorem exists_run (info : Scan) (now : UInt32) :
    ∃ s' g', Run s' g' ∧ Represents s' [⟨info.newInfo now, [info.snode]⟩] ∧
      g' info.netid = [info] := by
  obtain ⟨s', ⟨n, hrun⟩, hrep⟩ :=
    exec_represents represents_init (p := 0) (q := 0) rfl rfl (.insert info now)
  obtain ⟨g', hsince⟩ := exists_since (.insert info now) s' fun _ => []
  refine ⟨s', g', Run.init.step ⟨0, 0, rfl, rfl, n, hrun⟩ hsince, hrep, ?_⟩
  have hpresent : Present s' info.netid :=
    (present_iff hrep _).mpr ⟨_, List.mem_singleton_self _, rfl⟩
  rw [(hsince info.netid).1 hpresent]
  exact if_pos rfl

/-- A response of node 5 with one address, 7. -/
def oneAddress (type : UInt8) : Scan where
  workmode := 4
  netid := 5
  mac := ⟨List.replicate 8 0, List.length_replicate⟩
  rssi := 60
  type := type
  cnt := 1
  data _ := 7

theorem oneAddress_ok : ∃ s g, Run s g ∧ g 5 = [oneAddress 1] ∧ RegistryOk Scan.lst s g := by
  obtain ⟨s, g, hrun, -, hg⟩ := exists_run (oneAddress 1) 100
  exact ⟨s, g, hrun, hg, registry_ok hrun⟩

/-- A type that is no Modbus protocol gets an address of 0. -/
theorem otherType_not_ok : ¬ ∀ s g, Run s g → RegistryOk Scan.addresses s g := by
  intro h
  obtain ⟨s, g, hrun, hs, hg⟩ := exists_run (oneAddress 2) 100
  obtain ⟨nodes, hs', hholds⟩ := (h s g hrun).nodes
  obtain rfl := hs.unique hs'
  have hlast := hholds.last _ (List.mem_singleton_self _) 2
  rw [show ((oneAddress 2).newInfo 100).netid = (oneAddress 2).netid from rfl, hg] at hlast
  revert hlast
  decide

end K64Gateway.Zigbee
