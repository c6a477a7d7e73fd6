import K64Gateway.Lib.EventRun
import K64Gateway.Lib.NodeChain
import K64Gateway.VarManage.SyncPlan

/-
  The walk of `varmanage.c` through the poll plan: `__get_next_sync_ext_node` keeps two pointers
  between its calls, looks for them in the plan as it is now, and starts again at the head where
  they are not in it. In between the plan may be freed and built again, and the addresses of its
  nodes may be given to other nodes.

  Proved: from the null pointers the calls return the blocks of a plan of non-empty groups in
  order, then false, and whatever is rebuilt between calls, a record is the data of a block of the
  plan as it is then (`getNext_blocks`).
-/

namespace K64Gateway.VarManage

open NodeChain

variable {R : Type}

/-! ## The plan in memory -/

/-- `sync_ext_t`, but for the prev pointer. -/
structure SyncExtNode where
  data : SyncExt
  next : Option Ptr

/-- `sync_slave_t` -/
structure SyncSlaveNode where
  dev_type : UInt8
  dev_num : UInt8
  proto_type : UInt8
  param : Dlt645Addr
  ext_list : Option Ptr
  next : Option Ptr

/-- The nodes that are allocated, and `s_psync_slave`. -/
structure SyncMem where
  slaves : Ptr → Option SyncSlaveNode
  exts : Ptr → Option SyncExtNode
  s_psync_slave : Option Ptr

/-- A group as it lies in memory: its node and those of its blocks. -/
structure Group where
  node : Ptr × SyncSlaveNode
  exts : List (Ptr × SyncExtNode)

/-- The group without its addresses. -/
def Group.slave (g : Group) : SyncSlave where
  dev_type := g.node.2.dev_type
  dev_num := g.node.2.dev_num
  proto_type := g.node.2.proto_type
  param := g.node.2.param
  ext_list := g.exts.map fun e => e.2.data

/-- The lists of the memory lead through these groups. -/
structure Laid (m : SyncMem) (gs : List Group) : Prop where
  slaves : NodeChain.Chain SyncSlaveNode.next m.slaves m.s_psync_slave (gs.map Group.node)
  exts : ∀ g ∈ gs, NodeChain.Chain SyncExtNode.next m.exts g.node.2.ext_list g.exts

/-- The plan of the memory. -/
def HasPlan (m : SyncMem) (plan : List SyncSlave) : Prop :=
  ∃ gs, Laid m gs ∧ gs.map Group.slave = plan

/-! ## The next block -/

/-- The union of `sync_node_t`, as the view that was written last. -/
inductive SyncNodeParam where
  | self (addr : UInt16)
  | modbus (op slave_addr : UInt8) (ext_addr ext_ofs : UInt16) (ext_size : UInt8)
  | dlt645 (dlt645_addr : Dlt645Addr) (addr : UInt16) (op : UInt32)
deriving DecidableEq

/-- `sync_node_t` -/
structure SyncNodeRec where
  dev_type : UInt8
  dev_num : UInt8
  proto_type : UInt8
  param : SyncNodeParam
deriving DecidableEq

/-- The record of a block and its group; `old` is what the union held before, which a protocol
    that is none of the three leaves there. -/
def syncNodeOf (g : SyncSlave) (e : SyncExt) (old : SyncNodeParam) : SyncNodeRec where
  dev_type := g.dev_type
  dev_num := g.dev_num
  proto_type := g.proto_type
  param :=
    if protoIsRtuSelf g.dev_type.toNat g.dev_num.toNat then .self e.addr
    else if protoIsModbus g.dev_type.toNat g.proto_type.toNat then
      .modbus g.op g.slave_addr e.addr e.ofs e.size
    else if protoIsDlt645 g.dev_type.toNat g.proto_type.toNat then .dlt645 g.param e.addr e.op
    else old

/-- What the caller keeps: `slave`, `ext` and the record. -/
structure SyncCursor where
  slave : Option Ptr
  ext : Option Ptr
  node : SyncNodeRec

/-- `__isexist_sync_ext` -/
def isexistSyncExt (fuel : Nat) (m : SyncMem) (slave ext : Ptr) : Option Bool := do
  match ← seek SyncSlaveNode.next m.slaves slave fuel m.s_psync_slave with
  | some node_slave =>
      let node_ext ← seek SyncExtNode.next m.exts ext fuel node_slave.ext_list
      pure node_ext.isSome
  | none => pure false

/-- The pointers behind a block that is in the plan. Behind the last block of the last group the
    pointer to the block stays. -/
def syncNext (m : SyncMem) (slave ext : Ptr) : Option (Option Ptr × Option Ptr) := do
  let node_ext ← m.exts ext
  match node_ext.next with
  | some next => pure (some slave, some next)
  | none =>
      let node_slave ← m.slaves slave
      match node_slave.next with
      | some next =>
          let node_slave ← m.slaves next
          pure (some next, node_slave.ext_list)
      | none => pure (none, some ext)

/-- The pointers to the head of the plan. -/
def syncHead (m : SyncMem) : Option (Option Ptr × Option Ptr) :=
  match m.s_psync_slave with
  | some slave => do
      let node_slave ← m.slaves slave
      pure (some slave, node_slave.ext_list)
  | none => pure (none, none)

/-- Where a call goes from the pointers it is given. -/
def syncMove (fuel : Nat) (m : SyncMem) (slave ext : Option Ptr) :
    Option (Option Ptr × Option Ptr) :=
  match slave, ext with
  | some slave, some ext => do
      if ← isexistSyncExt fuel m slave ext then syncNext m slave ext else syncHead m
  | _, _ => syncHead m

/-- The record at the pointers, with the result of the call. -/
def syncCopy (m : SyncMem) (node : SyncNodeRec) (slave ext : Option Ptr) :
    Option (Bool × SyncCursor) :=
  match slave, ext with
  | some node_slave, some node_ext => do
      let s ← m.slaves node_slave
      let e ← m.exts node_ext
      let g : SyncSlave := ⟨s.dev_type, s.dev_num, s.proto_type, s.param, []⟩
      pure (true, ⟨slave, ext, syncNodeOf g e.data node.param⟩)
  | _, _ => pure (false, ⟨slave, ext, node⟩)

/-- `__get_next_sync_ext_node`; it has no result where it reads what is not allocated. -/
def getNextSyncExtNode (fuel : Nat) (m : SyncMem) (c : SyncCursor) :
    Option (Bool × SyncCursor) := do
  let (node_slave, node_ext) ← syncMove fuel m c.slave c.ext
  syncCopy m c.node node_slave node_ext

/-- The records of at most `n` calls, up to the first that returns false. -/
def enumerateSyncExt (fuel : Nat) (m : SyncMem) : Nat → SyncCursor → Option (List SyncNodeRec)
  | 0, _ => none
  | n + 1, c => do
      match ← getNextSyncExtNode fuel m c with
      | (true, c) =>
          let rest ← enumerateSyncExt fuel m n c
          pure (c.node :: rest)
      | (false, _) => pure []

/-! ## Blocks of the plan -/

/-- The blocks of a plan in order, each with its group. -/
def syncBlocks (plan : List SyncSlave) : List (SyncSlave × SyncExt) :=
  plan.flatMap fun g => g.ext_list.map (Prod.mk g)

/-- The records of blocks that are returned one after the other. -/
def syncNodesOf : SyncNodeParam → List (SyncSlave × SyncExt) → List SyncNodeRec
  | _, [] => []
  | old, (g, e) :: rest => syncNodeOf g e old :: syncNodesOf (syncNodeOf g e old).param rest

/-- The number of nodes of a plan. -/
def planSize (plan : List SyncSlave) : Nat := plan.length + (syncBlocks plan).length

/-- The pointers to the first block of the first group. -/
def firstPlace : List Group → Option Ptr × Option Ptr
  | [] => (none, none)
  | g :: _ => (some g.node.1, g.exts.head?.map Prod.fst)

/-- The pointers behind the block `e` of the group `g`, with the blocks and the groups that come
    behind it. -/
def placeBehind (g : Group) (e : Ptr × SyncExtNode) :
    List (Ptr × SyncExtNode) → List Group → Option Ptr × Option Ptr
  | e' :: _, _ => (some g.node.1, some e'.1)
  | [], g' :: B => firstPlace (g' :: B)
  | [], [] => (none, some e.1)

section Blocks

variable {m : SyncMem} {gs A B : List Group} {g : Group} {C D : List (Ptr × SyncExtNode)}
  {e : Ptr × SyncExtNode} {fuel : Nat}

theorem length_exts_le (hg : g ∈ gs) :
    g.exts.length ≤ (syncBlocks (gs.map Group.slave)).length := by
  rw [syncBlocks, List.length_flatMap]
  refine le_trans (le_of_eq ?_) (List.single_le_sum (fun x _ => Nat.zero_le x) _
    (List.mem_map_of_mem (List.mem_map_of_mem hg)))
  simp [Group.slave]

theorem syncBlocks_cons (g : Group) (gs : List Group) :
    syncBlocks ((g :: gs).map Group.slave) =
      (g.exts.map fun x => (g.slave, x.2.data)) ++ syncBlocks (gs.map Group.slave) := by
  simp [syncBlocks, Group.slave]

theorem Laid.slaves_split (hl : Laid m (A ++ g :: B)) :
    NodeChain.Chain SyncSlaveNode.next m.slaves m.s_psync_slave
      (A.map Group.node ++ g.node :: B.map Group.node) := by
  simpa using hl.slaves

theorem Laid.exts_split (hl : Laid m (A ++ g :: B)) (he : g.exts = C ++ e :: D) :
    NodeChain.Chain SyncExtNode.next m.exts g.node.2.ext_list (C ++ e :: D) :=
  he ▸ hl.exts g (List.mem_append_right _ List.mem_cons_self)

theorem Laid.ext_list_eq (hl : Laid m gs) (hg : g ∈ gs) :
    g.node.2.ext_list = g.exts.head?.map Prod.fst := (hl.exts g hg).head

/-- A block of the plan is found in it. -/
theorem isexist_of_split (hl : Laid m (A ++ g :: B)) (he : g.exts = C ++ e :: D)
    (hfuel : planSize ((A ++ g :: B).map Group.slave) < fuel) :
    isexistSyncExt fuel m g.node.1 e.1 = some true := by
  have hmem : g ∈ A ++ g :: B := List.mem_append_right _ List.mem_cons_self
  have hlen := length_exts_le hmem
  have hslaves : (A.map Group.node ++ g.node :: B.map Group.node).length < fuel := by
    simp only [planSize, List.length_map, List.length_append, List.length_cons] at hfuel ⊢
    omega
  have hexts : (C ++ e :: D).length < fuel := by
    rw [← he]
    unfold planSize at hfuel
    omega
  simp only [isexistSyncExt, seek_split hl.slaves_split hslaves,
    Option.bind_eq_bind, Option.bind_some, seek_split (hl.exts_split he) hexts]
  rfl

/-- The search comes back, and what it finds is a block of the plan. -/
theorem isexist_sound (hl : Laid m gs) (hfuel : planSize (gs.map Group.slave) < fuel)
    (slave ext : Ptr) :
    ∃ b, isexistSyncExt fuel m slave ext = some b ∧
      (b = true → ∃ g ∈ gs, g.node.1 = slave ∧ ∃ x ∈ g.exts, x.1 = ext) := by
  have hslaves : (gs.map Group.node).length < fuel := by
    simp only [planSize, List.length_map] at hfuel ⊢
    omega
  have hseek := seek_eq hl.slaves slave hslaves
  cases hfind : (gs.map Group.node).find? fun x => decide (slave = x.1) with
  | none =>
    rw [hfind] at hseek
    exact ⟨false, by simp [isexistSyncExt, hseek], by simp⟩
  | some x =>
    rw [hfind] at hseek
    obtain ⟨g, hg, rfl⟩ := List.mem_map.mp (List.mem_of_find?_eq_some hfind)
    have hslave : decide (slave = g.node.1) = true := (List.find?_eq_some_iff_append.mp hfind).1
    have hlen : g.exts.length < fuel := by
      have := length_exts_le hg
      unfold planSize at hfuel
      omega
    have hext := seek_eq (hl.exts g hg) ext hlen
    refine ⟨_, by simp only [isexistSyncExt, hseek, hext, Option.map_some, Option.bind_eq_bind,
      Option.bind_some]; rfl, fun hsome => ?_⟩
    obtain ⟨c, hc⟩ := Option.isSome_iff_exists.mp hsome
    rw [hc] at hext
    exact ⟨g, hg, (of_decide_eq_true hslave).symm, (ext, c),
      seek_found (hl.exts g hg) hlen hext, rfl⟩

theorem syncNext_eq (hl : Laid m (A ++ g :: B)) (he : g.exts = C ++ e :: D) :
    syncNext m g.node.1 e.1 = some (placeBehind g e D B) := by
  have hext := hl.exts_split he
  have hslave := hl.slaves_split
  rw [syncNext, hext.node]
  cases D with
  | cons e' D => simp [hext.next_eq, placeBehind]
  | nil =>
    cases B with
    | nil => simp [hext.next_eq, hslave.node, hslave.next_eq, placeBehind]
    | cons g' B =>
      have hnext : m.slaves g'.node.1 = some g'.node.2 := by
        have := hl.slaves_split
        rw [List.map_cons, ← List.singleton_append, ← List.append_assoc] at this
        exact this.node
      have hg' : g' ∈ A ++ g :: g' :: B := by simp
      simp [hext.next_eq, hslave.node, hslave.next_eq, hnext, hl.ext_list_eq hg', placeBehind,
        firstPlace]

theorem syncHead_eq (hl : Laid m gs) :
    syncHead m = some (firstPlace gs) := by
  cases gs with
  | nil =>
    have hnull : m.s_psync_slave = none := hl.slaves
    simp [syncHead, hnull, firstPlace]
  | cons g B =>
    have hslave := hl.slaves
    have hptr : m.s_psync_slave = some g.node.1 := hslave.1
    have hnode : m.slaves g.node.1 = some g.node.2 := hslave.2.1
    simp [syncHead, hptr, hnode, hl.ext_list_eq List.mem_cons_self, firstPlace]

/-- At a block of the plan, its record is returned. -/
theorem syncCopy_eq (hl : Laid m gs) (hg : g ∈ gs) (he : e ∈ g.exts) (node : SyncNodeRec) :
    syncCopy m node (some g.node.1) (some e.1) = some (true,
      ⟨some g.node.1, some e.1, syncNodeOf g.slave e.2.data node.param⟩) := by
  obtain ⟨A, B, rfl⟩ := List.append_of_mem hg
  obtain ⟨C, D, hsplit⟩ := List.append_of_mem he
  have hslave : m.slaves g.node.1 = some g.node.2 := hl.slaves_split.node
  have hext : m.exts e.1 = some e.2 := (hl.exts_split hsplit).node
  simp only [syncCopy, hslave, hext, Option.bind_eq_bind, Option.bind_some]
  rfl

/-! ## One call -/

/-- Two pointers lead to a block of these groups where neither is null. -/
def LeadsTo (gs : List Group) (place : Option Ptr × Option Ptr) : Prop :=
  ∀ slave ext, place = (some slave, some ext) →
    ∃ g ∈ gs, g.node.1 = slave ∧ ∃ x ∈ g.exts, x.1 = ext

theorem leadsTo_first {gs' : List Group} (hsub : ∀ x ∈ gs', x ∈ gs) :
    LeadsTo gs (firstPlace gs') := by
  intro slave ext hplace
  cases gs' with
  | nil => cases hplace
  | cons g' B =>
    obtain ⟨hslave, hext⟩ := Prod.mk.inj hplace
    obtain ⟨x, hx, hptr⟩ := Option.map_eq_some_iff.mp hext
    exact ⟨g', hsub g' List.mem_cons_self, Option.some.inj hslave, x, List.mem_of_head? hx, hptr⟩

theorem leadsTo_behind (he : g.exts = C ++ e :: D) :
    LeadsTo (A ++ g :: B) (placeBehind g e D B) := by
  cases D with
  | cons e' D =>
    intro slave ext hplace
    obtain ⟨hslave, hext⟩ := Prod.mk.inj hplace
    exact ⟨g, by simp, Option.some.inj hslave, e', by simp [he], Option.some.inj hext⟩
  | nil =>
    cases B with
    | nil => exact fun slave ext hplace => absurd (Prod.mk.inj hplace).1 (by simp)
    | cons g' B =>
      have hsub : ∀ x ∈ g' :: B, x ∈ A ++ g :: g' :: B := fun x hx =>
        List.mem_append_right _ (List.mem_cons_of_mem g hx)
      exact leadsTo_first hsub

/-- Where a call goes to from a block of the plan. -/
theorem syncMove_of_split (hl : Laid m (A ++ g :: B)) (he : g.exts = C ++ e :: D)
    (hfuel : planSize ((A ++ g :: B).map Group.slave) < fuel) :
    syncMove fuel m (some g.node.1) (some e.1) = some (placeBehind g e D B) := by
  simp [syncMove, isexist_of_split hl he hfuel, syncNext_eq hl he]

/-- Whatever the pointers are, a call goes to a block of the plan, or to none. -/
theorem syncMove_leads (hl : Laid m gs) (hfuel : planSize (gs.map Group.slave) < fuel)
    (slave ext : Option Ptr) :
    ∃ place, syncMove fuel m slave ext = some place ∧ LeadsTo gs place := by
  have hhead : ∃ place, syncHead m = some place ∧ LeadsTo gs place :=
    ⟨_, syncHead_eq hl, leadsTo_first fun x hx => hx⟩
  cases slave with
  | none => exact hhead
  | some slave =>
    cases ext with
    | none => exact hhead
    | some ext =>
      obtain ⟨b, hb, hfound⟩ := isexist_sound hl hfuel slave ext
      cases b with
      | false => simpa [syncMove, hb] using hhead
      | true =>
        obtain ⟨g, hg, rfl, e, he, rfl⟩ := hfound rfl
        obtain ⟨A, B, rfl⟩ := List.append_of_mem hg
        obtain ⟨C, D, hsplit⟩ := List.append_of_mem he
        exact ⟨_, syncMove_of_split hl hsplit hfuel, leadsTo_behind hsplit⟩

/-- A call comes back, and a record it returns is the data of a block of the plan. -/
theorem getNext_returns {plan : List SyncSlave} (h : HasPlan m plan) (hfuel : planSize plan < fuel)
    (c : SyncCursor) :
    ∃ ret c', getNextSyncExtNode fuel m c = some (ret, c') ∧
      (ret = true → ∃ b ∈ syncBlocks plan, c'.node = syncNodeOf b.1 b.2 c.node.param) := by
  obtain ⟨gs, hl, rfl⟩ := h
  obtain ⟨place, hmove, hleads⟩ := syncMove_leads hl hfuel c.slave c.ext
  obtain ⟨slave, ext⟩ := place
  simp only [getNextSyncExtNode, hmove, Option.bind_eq_bind, Option.bind_some]
  cases slave with
  | none => exact ⟨false, _, rfl, by simp⟩
  | some slave =>
    cases ext with
    | none => exact ⟨false, _, rfl, by simp⟩
    | some ext =>
      obtain ⟨g, hg, rfl, e, he, rfl⟩ := hleads slave ext rfl
      refine ⟨true, _, syncCopy_eq hl hg he c.node, fun _ => ⟨(g.slave, e.2.data), ?_, rfl⟩⟩
      exact List.mem_flatMap.mpr ⟨g.slave, List.mem_map_of_mem hg,
        List.mem_map_of_mem (List.mem_map_of_mem he)⟩

/-! ## All calls -/

/-- The calls from a block on return what is behind it. -/
theorem enumerate_behind (hl : Laid m (A ++ g :: B)) (he : g.exts = C ++ e :: D)
    (hne : ∀ x ∈ B, x.exts ≠ [])
    (hfuel : planSize ((A ++ g :: B).map Group.slave) < fuel) (node : SyncNodeRec) {n : Nat}
    (hn : D.length + (syncBlocks (B.map Group.slave)).length < n) :
    enumerateSyncExt fuel m n ⟨some g.node.1, some e.1, node⟩ =
      some (syncNodesOf node.param ((D.map fun x => (g.slave, x.2.data)) ++
        syncBlocks (B.map Group.slave))) := by
  induction n generalizing A g B C e D node with
  | zero => exact absurd hn (Nat.not_lt_zero _)
  | succ n ih =>
    simp only [enumerateSyncExt, getNextSyncExtNode, syncMove_of_split hl he hfuel,
      Option.bind_eq_bind, Option.bind_some]
    cases D with
    | cons e' D =>
      have he' : g.exts = (C ++ [e]) ++ e' :: D := by simp [he]
      have hmem : e' ∈ g.exts := by simp [he]
      have hrest := ih hl he' hne hfuel (syncNodeOf g.slave e'.2.data node.param) (by
        simp only [List.length_cons] at hn
        omega)
      simp [placeBehind, syncCopy_eq hl (List.mem_append_right _ List.mem_cons_self) hmem, hrest,
        syncNodesOf]
    | nil =>
      cases B with
      | nil => simp [placeBehind, syncCopy, syncBlocks, syncNodesOf]
      | cons g' B =>
        obtain ⟨e', D', he'⟩ := List.exists_cons_of_ne_nil (hne g' List.mem_cons_self)
        have hmem : e' ∈ g'.exts := by simp [he']
        have hsplit : A ++ g :: g' :: B = (A ++ [g]) ++ g' :: B := by simp
        rw [hsplit] at hl hfuel
        have hrest := ih hl (C := []) he' (fun x hx => hne x (List.mem_cons_of_mem _ hx)) hfuel
          (syncNodeOf g'.slave e'.2.data node.param) (by
            simp only [syncBlocks_cons, he', List.length_append, List.length_map,
              List.length_cons, List.length_nil] at hn
            omega)
        rw [syncBlocks_cons, he']
        simp [placeBehind, firstPlace, he', syncCopy_eq hl (by simp : g' ∈ _) hmem, hrest,
          syncNodesOf]

/-- From the null pointers, the calls return the blocks of the plan in order. -/
theorem enumerate_plan {plan : List SyncSlave} (h : HasPlan m plan)
    (hne : ∀ g ∈ plan, g.ext_list ≠ []) (hfuel : planSize plan < fuel) (node : SyncNodeRec)
    {n : Nat} (hn : (syncBlocks plan).length < n) :
    enumerateSyncExt fuel m n ⟨none, none, node⟩ =
      some (syncNodesOf node.param (syncBlocks plan)) := by
  obtain ⟨gs, hl, rfl⟩ := h
  have hne' : ∀ g ∈ gs, g.exts ≠ [] := fun g hg hnil =>
    hne g.slave (List.mem_map_of_mem hg) (by simp [Group.slave, hnil])
  obtain _ | n := n
  · exact absurd hn (Nat.not_lt_zero _)
  have hmove : syncMove fuel m none none = some (firstPlace gs) := syncHead_eq hl
  simp only [enumerateSyncExt, getNextSyncExtNode, hmove, Option.bind_eq_bind, Option.bind_some]
  cases gs with
  | nil => simp [firstPlace, syncCopy, syncBlocks, syncNodesOf]
  | cons g B =>
    obtain ⟨e, D, he⟩ := List.exists_cons_of_ne_nil (hne' g List.mem_cons_self)
    have hmem : e ∈ g.exts := by simp [he]
    have hrest := enumerate_behind (A := []) hl (C := []) he
      (fun x hx => hne' x (List.mem_cons_of_mem _ hx)) hfuel
      (syncNodeOf g.slave e.2.data node.param) (n := n) (by
        simp only [syncBlocks_cons, he, List.length_append, List.length_map,
          List.length_cons] at hn
        omega)
    rw [syncBlocks_cons, he]
    simp [firstPlace, he, syncCopy_eq hl List.mem_cons_self hmem, hrest, syncNodesOf]

end Blocks

/-! ## Built plans -/

theorem trimSyncExt_ne_nil (e : SyncExt) (rest : List SyncExt) : trimSyncExt e rest ≠ [] := by
  fun_induction trimSyncExt e rest <;> simp_all

theorem SyncSlave.addExt_ne_nil (g : SyncSlave) (data : ExtData R) :
    (g.addExt data).ext_list ≠ [] := by
  unfold SyncSlave.addExt insertSyncExt
  dsimp only
  split_ifs
  · split <;> simp
  · simp

theorem addSyncExtNode_ne_nil {slaves : List SyncSlave} (h : ∀ g ∈ slaves, g.ext_list ≠ [])
    (data : ExtData R) : ∀ g ∈ addSyncExtNode slaves data, g.ext_list ≠ [] := by
  intro g hg
  unfold addSyncExtNode at hg
  split at hg
  · obtain ⟨i, hi, rfl⟩ := List.mem_iff_getElem.mp hg
    rw [List.getElem_modify]
    split_ifs
    · exact SyncSlave.addExt_ne_nil _ data
    · exact h _ (List.getElem_mem _)
  · rcases List.mem_append.mp hg with hg | hg
    · exact h g hg
    · rw [List.mem_singleton.mp hg]
      simp [newSyncSlave]

/-- Every group of a plan that is built has a block. -/
theorem creatSyncSlaveLink_ne_nil (vars : List (ExtData R)) :
    ∀ g ∈ creatSyncSlaveLink vars, g.ext_list ≠ [] := by
  have hadded : ∀ (l : List (ExtData R)) (slaves : List SyncSlave),
      (∀ g ∈ slaves, g.ext_list ≠ []) → ∀ g ∈ l.foldl addSyncExtNode slaves, g.ext_list ≠ [] := by
    intro l
    induction l with
    | nil => exact fun slaves h => h
    | cons data l ih => exact fun slaves h => ih _ (addSyncExtNode_ne_nil h data)
  intro g hg
  obtain ⟨g', hg', rfl⟩ := List.mem_map.mp hg
  have hne := hadded _ [] (by simp) g' hg'
  split_ifs
  · obtain ⟨e, rest, he⟩ := List.exists_cons_of_ne_nil hne
    simpa [he, trimChain] using trimSyncExt_ne_nil e rest
  · exact hne

theorem enumerate_creat {m : SyncMem} {vars : List (ExtData R)}
    (h : HasPlan m (creatSyncSlaveLink vars)) {fuel : Nat}
    (hfuel : planSize (creatSyncSlaveLink vars) < fuel) (node : SyncNodeRec) {n : Nat}
    (hn : (syncBlocks (creatSyncSlaveLink vars)).length < n) :
    enumerateSyncExt fuel m n ⟨none, none, node⟩ =
      some (syncNodesOf node.param (syncBlocks (creatSyncSlaveLink vars))) :=
  enumerate_plan h (creatSyncSlaveLink_ne_nil vars) hfuel node hn

/-! ## Runs -/

/-- The plan, and what the caller keeps. -/
structure SyncState where
  m : SyncMem
  cursor : SyncCursor

inductive SyncEvent where
  | call
  /-- the plan is freed and built again -/
  | rebuild

/-- A call leaves the plan, and a rebuild the pointers of the caller: the new nodes may lie
    anywhere. -/
def SyncStep (s : SyncState) : SyncEvent → SyncState → Prop
  | .call, t =>
      ∃ fuel ret, getNextSyncExtNode fuel s.m s.cursor = some (ret, t.cursor) ∧ t.m = s.m
  | .rebuild, t => (∃ plan, HasPlan t.m plan) ∧ t.cursor = s.cursor

theorem hasPlan_step {s t : SyncState} {e : SyncEvent} (h : ∃ plan, HasPlan s.m plan)
    (hstep : SyncStep s e t) : ∃ plan, HasPlan t.m plan := by
  cases e with
  | call =>
    obtain ⟨fuel, ret, -, hm⟩ := hstep
    exact hm ▸ h
  | rebuild => exact hstep.1

theorem getNext_blocks {m : SyncMem} {plan : List SyncSlave} (h : HasPlan m plan)
    (node : SyncNodeRec) :
    ((∀ g ∈ plan, g.ext_list ≠ []) → ∀ fuel n, planSize plan < fuel →
      (syncBlocks plan).length < n →
        enumerateSyncExt fuel m n ⟨none, none, node⟩ =
          some (syncNodesOf node.param (syncBlocks plan))) ∧
    ∀ events s, EventRun.Run SyncStep ⟨m, ⟨none, none, node⟩⟩ events s →
      (∃ now, HasPlan s.m now) ∧
      ∀ now, HasPlan s.m now → ∀ fuel, planSize now < fuel →
        ∃ ret c, getNextSyncExtNode fuel s.m s.cursor = some (ret, c) ∧
          (ret = true → ∃ b ∈ syncBlocks now,
            c.node = syncNodeOf b.1 b.2 s.cursor.node.param) := by
  refine ⟨fun hne fuel n hfuel hn => enumerate_plan h hne hfuel node hn, fun events s hrun => ?_⟩
  have hplan : ∃ now, HasPlan s.m now :=
    @EventRun.Run.invariant _ _ SyncStep _ (fun s => ∃ now, HasPlan s.m now) (fun _ => True)
      ⟨plan, h⟩ (fun t e u _ ht hstep => hasPlan_step ht hstep) events s hrun fun _ _ => trivial
  exact ⟨hplan, fun now hnow fuel hfuel => getNext_returns hnow hfuel s.cursor⟩

/-- A Modbus group of two blocks and an analog input. -/
def twoGroups : List Group :=
  [⟨(0x20, ⟨0, 0, 0, ⟨3, 7, 0, 0, 0, 0⟩, some 0x30, some 0x24⟩),
      [(0x30, ⟨⟨100, 0, 2, 0⟩, some 0x34⟩), (0x34, ⟨⟨200, 0, 1, 0⟩, none⟩)]⟩,
    ⟨(0x24, ⟨100, 1, 0, ⟨0, 0, 0, 0, 0, 0⟩, some 0x38, none⟩), [(0x38, ⟨⟨2050, 0, 0, 0⟩, none⟩)]⟩]

def twoMem : SyncMem where
  slaves p := ((twoGroups.map Group.node).find? fun x => x.1 == p).map Prod.snd
  exts p := ((twoGroups.flatMap Group.exts).find? fun x => x.1 == p).map Prod.snd
  s_psync_slave := some 0x20

theorem hasPlan_twoMem : HasPlan twoMem (twoGroups.map Group.slave) := by
  refine ⟨twoGroups, ⟨⟨rfl, rfl, rfl, rfl, rfl⟩, fun g hg => ?_⟩, rfl⟩
  obtain rfl | rfl : g = _ ∨ g = _ := by simpa [twoGroups] using hg
  · exact ⟨rfl, rfl, rfl, rfl, rfl⟩
  · exact ⟨rfl, rfl, rfl⟩

theorem getNext_blocks_twoMem :
    enumerateSyncExt 6 twoMem 4 ⟨none, none, ⟨0, 0, 0, .self 0⟩⟩ =
      some [⟨0, 0, 0, .modbus 3 7 100 0 2⟩, ⟨0, 0, 0, .modbus 3 7 200 0 1⟩,
        ⟨100, 1, 0, .self 2050⟩] ∧
    ∃ ret c, getNextSyncExtNode 6 twoMem ⟨none, none, ⟨0, 0, 0, .self 0⟩⟩ = some (ret, c) ∧
      (ret = true → ∃ b ∈ syncBlocks (twoGroups.map Group.slave),
        c.node = syncNodeOf b.1 b.2 (.self 0)) := by
  have h := getNext_blocks hasPlan_twoMem ⟨0, 0, 0, .self 0⟩
  have hsize : planSize (twoGroups.map Group.slave) < 6 := by decide
  exact ⟨(h.1 (by simp [twoGroups, Group.slave]) 6 4 hsize (by decide)).trans rfl,
    (h.2 [] _ .start).2 _ hasPlan_twoMem 6 hsize⟩

end K64Gateway.VarManage
