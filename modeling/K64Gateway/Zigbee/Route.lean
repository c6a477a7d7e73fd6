import K64Gateway.Backup.Restore
import K64Gateway.External.MbCrc
import K64Gateway.Zigbee.DstCache
import K64Gateway.Zigbee.RegistryRuns

/-
  Who gets a frame for a slave behind the Zigbee nodes: `zgb_set_dst_node` of `board/zgb_std.c` and
  `__xfer_rcv_frame` of `board/xfer_net.c`. Both take the first node that has the address and ask
  afterwards whether it is on line.

  Proved: for every registry exactly when an online node that has the address is selected, and
  nothing is sent where there is none (`request_routed_iff`).
-/

namespace K64Gateway.Zigbee

open LinkedHeap
open Backup (TcpipCfg nUartGetInstance boardUartMax)
open MbCrc (usMBCRC16)

/-! ## The search -/

/-- The test of `_snode_find_with_addr`. -/
def Snode.hasAddr (type : UInt8) (addr : Int) (d : Snode) : Bool :=
  d.type == type && (d.lst.take d.cnt.toNat).any fun addr_8 => (addr_8.toNat : Int) == addr

/-- The loop of `zgb_mnode_find_with_addr`; the inner loops run on `n`. -/
def findWithAddrLoop (n : Nat) (type : UInt8) (addr : Int) :
    Nat → Registry → Option Ptr → Option (Option Ptr)
  | 0, _, _ => none
  | _ + 1, _, none => some none
  | fuel + 1, s, some x => do
      let c ← s.mheap x
      match ← findCell (Snode.hasAddr type addr) n s.sheap c.data.snode with
      | some _ => some (some x)
      | none => findWithAddrLoop n type addr fuel s c.next

/-- `zgb_mnode_find_with_addr` -/
def zgbMnodeFindWithAddr (fuel : Nat) (s : Registry) (type : UInt8) (addr : Int) :
    Option (Option Ptr) :=
  findWithAddrLoop fuel type addr fuel s s.mnode

/-- `mnode != RT_NULL && mnode->online`, with the network address of the node. -/
def onlineNetid (s : Registry) : Option Ptr → Option (Option UInt16)
  | none => some none
  | some x => (s.mheap x).map fun c =>
      if c.data.info.online then some c.data.info.netid else none

/-! ## What is sent -/

/-- A call of `ucZigbeeSetDstAddr`, `vZigbee_SendBuffer`, `xfer_dst_serial_send` or
    `ucZigbeeMode`. -/
inductive Out where
  | setDstAddr (netid : UInt16)
  | sendBuffer (frame : List UInt8)
  | serialSend (port : Option (Fin boardUartMax)) (frame : List UInt8)
  | zigbeeMode (mode : UInt8)

/-- `zgb_set_dst_node`; `x` is what the module does about the command, `d` its destination. -/
def zgbSetDstNode (fuel : Nat) (s : Registry) (type : UInt8) (addr : Int) (x : Exchange) (d : Dst) :
    Option (Bool × List Out × Dst) := do
  let mnode ← zgbMnodeFindWithAddr fuel s type addr
  match ← onlineNetid s mnode with
  | some netid =>
      let (ret, d) := ucZigbeeSetDstAddr netid x d
      some (zigbeeOk == ret, [.setDstAddr netid], d)
  | none => some (false, [], d)

/-- `ASC_TO_INT` -/
def ascToInt (b : UInt8) : UInt8 :=
  if 48 ≤ b ∧ b ≤ 57 then b - 48 else if 65 ≤ b ∧ b ≤ 70 then b - 65 + 0x0A else 0

/-- Two characters. -/
def ascByte (pucFrame : List UInt8) (i : Nat) : UInt8 :=
  (ascToInt (pucFrame.getD i 0) <<< 4) ||| ascToInt (pucFrame.getD (i + 1) 0)

/-- `ucMBAsciiLRC`; the loop begins behind the colon and goes on up to `usLen-3`. -/
def ucMBAsciiLRC (pucFrame : List UInt8) (usLen : UInt16) : UInt8 :=
  0 - (List.range ((usLen.toNat - 2) / 2)).foldl
    (fun ucLRC k => ucLRC + ascByte pucFrame (2 * k + 1)) 0

/-- `ucMBAsciiAddr` -/
def ucMBAsciiAddr (pucFrame : List UInt8) : UInt8 := ascByte pucFrame 1

/-- `zgb_sn_type` and `slave_addr`, where `send_flag` is set. -/
def gwSlave (proto_type : UInt8) (frame : List UInt8) : Option (UInt8 × UInt8) :=
  if proto_type = 1 then
    if 4 ≤ frame.length ∧ usMBCRC16 frame (UInt16.ofNat frame.length) = 0 then
      some (0, frame.getD 0 0)
    else none
  else if proto_type = 2 then
    if 7 ≤ frame.length ∧ ucMBAsciiLRC frame (UInt16.ofNat frame.length) = 0 then
      some (1, ucMBAsciiAddr frame)
    else none
  else none

/-- `__xfer_rcv_frame` of the connection `g`. -/
def xferRcvFrame (fuel : Nat) (s : Registry) (g : TcpipCfg) (workMode : UInt8) (frame : List UInt8)
    (x : Exchange) (d : Dst) : Option (List Out × Dst) :=
  if g.u0 = 0 then
    if g.dstType ≤ 3 ∨ g.dstType = 5 then
      match gwSlave g.u4 frame with
      | some (zgb_sn_type, slave_addr) =>
          if g.dstType = 5 then
            if 1 ≤ slave_addr ∧ slave_addr ≤ 247 then do
              let mnode ← zgbMnodeFindWithAddr fuel s zgb_sn_type slave_addr.toNat
              match ← onlineNetid s mnode with
              | some netid =>
                  let (ret, d) := ucZigbeeSetDstAddr netid x d
                  some (.setDstAddr netid :: if zigbeeOk = ret then [.sendBuffer frame] else [], d)
              | none => some ([], d)
            else some ([], d)
          else some ([.serialSend (nUartGetInstance g.dstType.toInt8) frame], d)
      | none => some ([], d)
    else some ([], d)
  else if g.u0 = 1 then
    if g.dstType ≤ 3 then some ([.serialSend (nUartGetInstance g.dstType.toInt8) frame], d)
    else if g.dstType = 5 ∧ workMode = 2 then
      some ([.zigbeeMode 1, .sendBuffer frame, .zigbeeMode 0], d)
    else some ([], d)
  else some ([], d)

/-! ## What is to be selected -/

/-- The node has the address. -/
def Advertises (type : UInt8) (addr : Int) (node : Node) : Bool :=
  node.subs.any (Snode.hasAddr type addr)

/-- An online node that has the address. -/
def Serves (type : UInt8) (addr : Int) (node : Node) : Prop :=
  Advertises type addr node = true ∧ node.info.online = true

/-- A node that serves the address is selected if there is one, else nothing is sent. -/
structure Routing (nodes : List Node) (type : UInt8) (addr : Int) (outs : List Out) : Prop where
  selects : (∃ node ∈ nodes, Serves type addr node) →
    ∃ node ∈ nodes, Serves type addr node ∧ ∃ rest, outs = .setDstAddr node.info.netid :: rest
  silent : (∀ node ∈ nodes, ¬ Serves type addr node) → outs = []

/-- A registry with the nodes that it holds. -/
structure Held where
  s : Registry
  nodes : List Node
  represents : Represents s nodes

/-- A frame that the gateway takes for the Zigbee module, with its slave. -/
structure GwFrame where
  g : TcpipCfg
  workMode : UInt8
  frame : List UInt8
  type : UInt8
  slave : UInt8
  mode : g.u0 = 0
  dst : g.dstType = 5
  accepted : gwSlave g.u4 frame = some (type, slave)
  isSlave : 1 ≤ slave ∧ slave ≤ 247

inductive Request where
  | setDstNode (type : UInt8) (addr : Int)
  | rcvFrame (f : GwFrame)

def Request.type : Request → UInt8
  | setDstNode type _ => type
  | rcvFrame f => f.type

def Request.addr : Request → Int
  | setDstNode _ addr => addr
  | rcvFrame f => f.slave.toNat

/-- What is sent for a request. -/
def Request.outs (fuel : Nat) (s : Registry) (x : Exchange) (d : Dst) : Request → Option (List Out)
  | setDstNode type addr => (zgbSetDstNode fuel s type addr x d).map fun r => r.2.1
  | rcvFrame f => (xferRcvFrame fuel s f.g f.workMode f.frame x d).map Prod.fst

/-- The request comes back and is routed, whatever the module does. -/
def Request.Routed (r : Request) (h : Held) : Prop :=
  ∀ x d, ∃ n outs, (∀ fuel, n ≤ fuel → r.outs fuel h.s x d = some outs) ∧
    Routing h.nodes r.type r.addr outs

/-- If the first node that has the address is off line, all of them are. -/
def FirstUp (nodes : List Node) (type : UInt8) (addr : Int) : Prop :=
  ∀ node, nodes.find? (Advertises type addr) = some node → node.info.online = false →
    ∀ node' ∈ nodes, Advertises type addr node' = true → node'.info.online = false

/-! ## The search over a well-formed registry -/

/-- The first node that has the address, if it is on line. -/
def target (nodes : List Node) (type : UInt8) (addr : Int) : Option UInt16 :=
  (nodes.find? (Advertises type addr)).bind fun node =>
    if node.info.online then some node.info.netid else none

theorem Found.any {α : Type} {h : Heap α} {p : α → Bool} {L : List Ptr} {r : Option Ptr}
    (hfound : Found h p L r) : (payloads h L).any p = r.isSome := by
  cases hfound with
  | none hall =>
    refine List.any_eq_false.mpr fun d hd => ?_
    obtain ⟨x, hx, hxd⟩ := List.mem_filterMap.mp hd
    obtain ⟨c, hc, rfl⟩ := Option.map_eq_some_iff.mp hxd
    rw [hall x hx c hc]
    exact Bool.false_ne_true
  | some A x B c hL hc hp _ =>
    rw [hL, payloads_append, payloads_cons hc, List.any_append, List.any_cons, hp, Bool.true_or,
      Bool.or_true]
    rfl

theorem findWithAddrLoop_spec {s : Registry} {K : Ptr → List Ptr} (type : UInt8) (addr : Int)
    {prev q last : Option Ptr} {L : List Ptr} (hs : Seg s.mheap prev q L last none)
    (hsubs : ∀ p ∈ L, ∀ c, s.mheap p = some c → DList s.sheap c.data.snode (K p)) :
    ∃ n r, (∀ m fuel, n ≤ m → n ≤ fuel → findWithAddrLoop m type addr fuel s q = some r) ∧
      onlineNetid s r = some (target (nodesOf s K L) type addr) := by
  induction L generalizing prev q with
  | nil =>
    refine ⟨1, none, fun m fuel _ hfuel => ?_, rfl⟩
    obtain ⟨k, rfl⟩ := Nat.exists_eq_add_of_le' hfuel
    rw [show q = none from hs.2]
    rfl
  | cons x L ih =>
    obtain ⟨rfl, c, hc, -, ht⟩ := hs
    obtain ⟨r', hfound, hr'⟩ :=
      findCell_spec (hsubs x List.mem_cons_self c hc) (Snode.hasAddr type addr)
    obtain ⟨n, r, hr, hnetid⟩ := ih ht fun p hp => hsubs p (List.mem_cons_of_mem x hp)
    have hany : Advertises type addr ⟨c.data.info, payloads s.sheap (K x)⟩ = r'.isSome :=
      hfound.any
    unfold target
    rw [nodesOf_cons hc]
    cases r' with
    | some y =>
      refine ⟨(K x).length + 1, some x, fun m fuel hm hfuel => ?_, ?_⟩
      · obtain ⟨k, rfl⟩ := Nat.exists_eq_add_of_le' (show 1 ≤ fuel by omega)
        simp [findWithAddrLoop, hc, hr' m hm]
      · rw [List.find?_cons_of_pos hany]
        simp [onlineNetid, hc]
    | none =>
      refine ⟨n + (K x).length + 1, r, fun m fuel hm hfuel => ?_, ?_⟩
      · obtain ⟨k, rfl⟩ := Nat.exists_eq_add_of_le' (show 1 ≤ fuel by omega)
        have hrest := hr m k (by omega) (by omega)
        simp [findWithAddrLoop, hc, hr' m (by omega), hrest]
      · rw [List.find?_cons_of_neg (by rw [hany]; exact Bool.false_ne_true)]
        exact hnetid

theorem zgbMnodeFindWithAddr_spec {s : Registry} {nodes : List Node} (h : Represents s nodes)
    (type : UInt8) (addr : Int) :
    ∃ n r, (∀ fuel, n ≤ fuel → zgbMnodeFindWithAddr fuel s type addr = some r) ∧
      onlineNetid s r = some (target nodes type addr) := by
  obtain ⟨L, K, hlinked, rfl⟩ := h
  obtain ⟨last, hs⟩ := hlinked.list
  obtain ⟨n, r, hr, hnetid⟩ := findWithAddrLoop_spec type addr hs hlinked.subs
  exact ⟨n, r, fun fuel hfuel => hr fuel fuel hfuel hfuel, hnetid⟩

/-! ## The selection -/

/-- The destination is asked for first, or nothing is sent. -/
def Asked (outs : List Out) : Option UInt16 → Prop
  | some netid => ∃ rest, outs = .setDstAddr netid :: rest
  | none => outs = []

theorem zgbSetDstNode_asked {h : Held} (type : UInt8) (addr : Int) (x : Exchange) (d : Dst) :
    ∃ n r, (∀ fuel, n ≤ fuel → zgbSetDstNode fuel h.s type addr x d = some r) ∧
      Asked r.2.1 (target h.nodes type addr) := by
  obtain ⟨n, mnode, hfind, hnetid⟩ := zgbMnodeFindWithAddr_spec h.represents type addr
  cases htarget : target h.nodes type addr with
  | some netid =>
    refine ⟨n, (zigbeeOk == (ucZigbeeSetDstAddr netid x d).1, [.setDstAddr netid],
      (ucZigbeeSetDstAddr netid x d).2), fun fuel hfuel => ?_, [], rfl⟩
    simp [zgbSetDstNode, hfind fuel hfuel, hnetid, htarget]
  | none =>
    refine ⟨n, (false, [], d), fun fuel hfuel => ?_, rfl⟩
    simp [zgbSetDstNode, hfind fuel hfuel, hnetid, htarget]

/-- What is sent for a frame, by the node that is found. -/
theorem xferRcvFrame_found {s : Registry} (f : GwFrame) (x : Exchange) (d : Dst) {fuel : Nat}
    {mnode : Option Ptr} (hfind : zgbMnodeFindWithAddr fuel s f.type f.slave.toNat = some mnode)
    {found : Option UInt16} (hnetid : onlineNetid s mnode = some found) :
    xferRcvFrame fuel s f.g f.workMode f.frame x d = some (found.elim ([], d) fun netid =>
      (.setDstAddr netid :: if zigbeeOk = (ucZigbeeSetDstAddr netid x d).1 then
        [.sendBuffer f.frame] else [], (ucZigbeeSetDstAddr netid x d).2)) := by
  unfold xferRcvFrame
  rw [if_pos f.mode, if_pos (.inr f.dst), f.accepted]
  dsimp only
  rw [if_pos f.dst, if_pos f.isSlave, hfind, Option.bind_eq_bind, Option.bind_some, hnetid]
  cases found <;> rfl

theorem xferRcvFrame_asked {h : Held} (f : GwFrame) (x : Exchange) (d : Dst) :
    ∃ n r, (∀ fuel, n ≤ fuel →
        xferRcvFrame fuel h.s f.g f.workMode f.frame x d = some r) ∧
      Asked r.1 (target h.nodes f.type f.slave.toNat) := by
  obtain ⟨n, mnode, hfind, hnetid⟩ :=
    zgbMnodeFindWithAddr_spec h.represents f.type f.slave.toNat
  refine ⟨n, _, fun fuel hfuel => xferRcvFrame_found f x d (hfind fuel hfuel) hnetid, ?_⟩
  cases target h.nodes f.type f.slave.toNat with
  | some netid => exact ⟨_, rfl⟩
  | none => rfl

/-- Every request comes back and asks for the same node. -/
theorem Request.asked (r : Request) (h : Held) (x : Exchange) (d : Dst) :
    ∃ n outs, (∀ fuel, n ≤ fuel → r.outs fuel h.s x d = some outs) ∧
      Asked outs (target h.nodes r.type r.addr) := by
  cases r with
  | setDstNode type addr =>
    obtain ⟨n, r, hr, hasked⟩ := zgbSetDstNode_asked type addr x d
    exact ⟨n, r.2.1, fun fuel hfuel => by rw [outs, hr fuel hfuel]; rfl, hasked⟩
  | rcvFrame f =>
    obtain ⟨n, r, hr, hasked⟩ := xferRcvFrame_asked f x d
    exact ⟨n, r.1, fun fuel hfuel => by rw [outs, hr fuel hfuel]; rfl, hasked⟩

/-- What follows from the first node that has the address. -/
theorem routing_iff {nodes : List Node} {type : UInt8} {addr : Int} {outs : List Out}
    (hasked : Asked outs (target nodes type addr)) :
    Routing nodes type addr outs ↔ FirstUp nodes type addr := by
  unfold target at hasked
  cases hfind : nodes.find? (Advertises type addr) with
  | none =>
    have hnone : ∀ node ∈ nodes, ¬ Serves type addr node := fun node hnode hserves =>
      List.find?_eq_none.mp hfind node hnode hserves.1
    rw [hfind] at hasked
    refine iff_of_true ⟨fun ⟨node, hnode, hserves⟩ => absurd hserves (hnone node hnode),
      fun _ => hasked⟩ fun node hnode => ?_
    rw [hfind] at hnode
    exact nomatch hnode
  | some node =>
    have hmem := List.mem_of_find?_eq_some hfind
    have hadv := List.find?_some hfind
    rw [hfind, Option.bind_some] at hasked
    cases honline : node.info.online with
    | true =>
      rw [if_pos honline] at hasked
      have hserves : Serves type addr node := ⟨hadv, honline⟩
      refine iff_of_true ⟨fun _ => ⟨node, hmem, hserves, hasked⟩,
        fun hnone => absurd hserves (hnone node hmem)⟩ fun node' hnode' hoff => ?_
      rw [← Option.some.inj (hfind.symm.trans hnode'), honline] at hoff
      exact nomatch hoff
    | false =>
      rw [if_neg (by rw [honline]; exact Bool.false_ne_true)] at hasked
      constructor
      · intro hrouting _ _ _ node' hmem' hadv'
        refine Bool.eq_false_iff.mpr fun honline' => ?_
        obtain ⟨_, _, _, rest, houts⟩ := hrouting.selects ⟨node', hmem', hadv', honline'⟩
        exact nomatch houts.symm.trans hasked
      · intro hfirst
        have hnone : ∀ node' ∈ nodes, ¬ Serves type addr node' := fun node' hmem' hserves => by
          have hoff := hfirst node hfind honline node' hmem' hserves.1
          rw [hserves.2] at hoff
          exact nomatch hoff
        exact ⟨fun ⟨node', hmem', hserves⟩ => absurd hserves (hnone node' hmem'), fun _ => hasked⟩

/-- A request is routed if the first node that has the address is on line, or none is. -/
theorem request_routed_iff (h : Held) (r : Request) :
    r.Routed h ↔ FirstUp h.nodes r.type r.addr := by
  constructor
  · intro hrouted
    obtain ⟨n, outs, houts, hrouting⟩ := hrouted .ok ⟨0, 0⟩
    obtain ⟨m, outs', houts', hasked⟩ := r.asked h .ok ⟨0, 0⟩
    have heq := (houts (n + m) (Nat.le_add_right n m)).symm.trans
      (houts' (n + m) (Nat.le_add_left m n))
    rw [Option.some.inj heq] at hrouting
    exact (routing_iff hasked).mp hrouting
  · intro hfirst x d
    obtain ⟨n, outs, houts, hasked⟩ := r.asked h x d
    exact ⟨n, outs, houts, (routing_iff hasked).mpr hfirst⟩

/-- The response of a node with one slave, 7. -/
def slaveScan (netid : UInt16) : Scan := { oneAddress 0 with netid := netid }

/-- Nodes 5 and 6 have told of the slave, and node 5 is off line since. -/
def movedNodes : List Node :=
  [⟨{ (slaveScan 5).newInfo 100 with online := false, offtime := 110 }, [(slaveScan 5).snode]⟩,
    ⟨(slaveScan 6).newInfo 120, [(slaveScan 6).snode]⟩]

/-- They are in the cells 0 and 1 of their heap, and so are their addresses. -/
def movedRegistry : Registry where
  mheap
    | 0 => some ⟨⟨{ (slaveScan 5).newInfo 100 with online := false, offtime := 110 }, some 0⟩,
        some 1, none⟩
    | 1 => some ⟨⟨(slaveScan 6).newInfo 120, some 1⟩, none, some 0⟩
    | _ => none
  sheap
    | 0 => some ⟨(slaveScan 5).snode, none, none⟩
    | 1 => some ⟨(slaveScan 6).snode, none, none⟩
    | _ => none
  mnode := some 0

theorem movedRegistry_represents : Represents movedRegistry movedNodes := by
  have hsub : ∀ p ∈ [0, 1], ∀ c, movedRegistry.mheap p = some c →
      DList movedRegistry.sheap c.data.snode [p] := by
    intro p hp c hc
    simp only [List.mem_cons, List.not_mem_nil, or_false] at hp
    rcases hp with rfl | rfl
    · rw [← Option.some.inj hc]
      exact ⟨some 0, rfl, _, rfl, rfl, rfl, rfl⟩
    · rw [← Option.some.inj hc]
      exact ⟨some 1, rfl, _, rfl, rfl, rfl, rfl⟩
  refine ⟨[0, 1], fun p => [p], ⟨⟨some 1, rfl, _, rfl, rfl, rfl, _, rfl, rfl, rfl, rfl⟩, hsub, ?_⟩,
    rfl⟩
  intro p _ p' _ hne x hx hx'
  exact hne ((List.mem_singleton.mp hx).symm.trans (List.mem_singleton.mp hx'))

/-- A request for the slave is not sent to node 6. -/
theorem moved_not_routed : ¬ ∀ (h : Held) (r : Request), r.Routed h := by
  intro hall
  obtain ⟨n, outs, houts, hrouting⟩ :=
    hall ⟨movedRegistry, movedNodes, movedRegistry_represents⟩ (.setDstNode 0 7) .ok ⟨0, 0⟩
  obtain ⟨m, outs', houts', hasked⟩ := Request.asked (.setDstNode 0 7)
    ⟨movedRegistry, movedNodes, movedRegistry_represents⟩ .ok ⟨0, 0⟩
  have heq := (houts (n + m) (Nat.le_add_right n m)).symm.trans
    (houts' (n + m) (Nat.le_add_left m n))
  rw [Option.some.inj heq] at hrouting
  have hfirst := (routing_iff hasked).mp hrouting _ rfl rfl _
    (List.mem_cons_of_mem _ (List.mem_singleton_self _)) rfl
  exact nomatch hfirst

end K64Gateway.Zigbee
