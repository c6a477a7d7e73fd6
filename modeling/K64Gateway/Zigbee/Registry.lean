import K64Gateway.VarManage.ExtDataLink
import K64Gateway.Backup.ZigbeeCfg

/-
  The registry of the Zigbee nodes, `board/zgb_std.c`: a doubly linked list of nodes, and for every
  node a doubly linked list of the addresses behind it, one cell for each protocol.

  As in `VarManage.ExtDataLink` the routines are pointer programs on heaps, their loops run on fuel,
  and `some` means that a call came back.
-/

namespace K64Gateway.Zigbee

open LinkedHeap
open VarManage (walkLast)
open Backup (Mac)

/-! ## The cells -/

/-- `zgb_snode_t`; `lst` is what its queue holds. -/
structure Snode where
  type : UInt8
  cnt : UInt8
  lst : List UInt8
  deriving DecidableEq

/-- `zgb_mnode_t` but for its pointers. -/
structure MnodeInfo where
  workmode : UInt8
  mac : Mac
  netid : UInt16
  online : Bool
  rssi : UInt8
  uptime : UInt32
  lasttime : UInt32
  offtime : UInt32

structure Mnode where
  info : MnodeInfo
  snode : Option Ptr

/-- `zgb_std_scan_t`; `data` is the memory from its last field on. -/
structure Scan where
  workmode : UInt8
  netid : UInt16
  mac : Mac
  rssi : UInt8
  type : UInt8
  cnt : UInt8
  data : Nat → UInt8

/-- The heaps of both kinds of cells, and `s_zgb_mnode`. -/
structure Registry where
  mheap : Heap Mnode
  sheap : Heap Snode
  mnode : Option Ptr

/-- `zgb_std_init`, nothing allocated. -/
def zgbStdInit : Registry := ⟨fun _ => none, fun _ => none, none⟩

/-! ## Loops -/

/-- `while (node) { if (p(node)) break; node = node->next; }` -/
def findCell {α : Type} (p : α → Bool) : Nat → Heap α → Option Ptr → Option (Option Ptr)
  | 0, _, _ => none
  | _ + 1, _, none => some none
  | fuel + 1, h, some x => do
      let c ← h x
      if p c.data then some (some x) else findCell p fuel h c.next

/-- An assignment to fields of the cell at `x`. -/
def setData {α : Type} (h : Heap α) (x : Ptr) (f : α → α) : Option (Heap α) :=
  (h x).map fun c => write h x (some (c.mapData f))

/-! ## The addresses behind a node -/

/-- `_snode_rm_one` -/
def snodeRmOne (fuel : Nat) (h : Heap Snode) (snode : Option Ptr) (type : UInt8) :
    Option (Heap Snode × Option Ptr) := do
  match ← findCell (fun d => decide (d.type = type)) fuel h snode with
  | some x => unlink h snode x
  | none => some (h, snode)

/-- The loop of `_snode_rm_all`. -/
def snodeRmAll : Nat → Heap Snode → Option Ptr → Option (Heap Snode)
  | 0, _, _ => none
  | _ + 1, h, none => some h
  | fuel + 1, h, some x => do
      let c ← h x
      snodeRmAll fuel (write h x none) c.next

/-- The addresses of a response. -/
def Scan.addresses (info : Scan) : List UInt8 := (List.range info.cnt.toNat).map info.data

/-- What the queue gets: the addresses are copied for the two Modbus protocols only. -/
def Scan.lst (info : Scan) : List UInt8 :=
  if info.type = 0 ∨ info.type = 1 then info.addresses else List.replicate info.cnt.toNat 0

/-- The cell of a response. -/
def Scan.snode (info : Scan) : Snode := ⟨info.type, info.cnt, info.lst⟩

/-- `_snode_insert`; `q` is the cell that `rt_calloc` returns. -/
def snodeInsert (fuel : Nat) (h : Heap Snode) (snode : Option Ptr) (q : Ptr) (info : Scan) :
    Option (Heap Snode × Option Ptr) := do
  let h := write h q (some ⟨⟨0, 0, []⟩, none, none⟩)
  let (h, snode) ← snodeRmOne fuel h snode info.type
  let h := write h q (some ⟨info.snode, none, none⟩)
  let last ← walkLast h fuel snode
  link h snode last q

/-! ## Nodes -/

/-- A node of a first response. -/
def Scan.newInfo (info : Scan) (now : UInt32) : MnodeInfo where
  workmode := info.workmode
  mac := info.mac
  netid := info.netid
  online := true
  rssi := info.rssi
  uptime := now
  lasttime := now
  offtime := 0

/-- A node that is known when a response comes. -/
def Scan.refresh (info : Scan) (now : UInt32) (m : MnodeInfo) : MnodeInfo :=
  let m := { m with
    workmode := info.workmode
    netid := info.netid
    rssi := info.rssi
    lasttime := now }
  if m.online then m
  else { m with
    online := true
    uptime := now
    offtime := 0 }

/-- `_snode_insert` for the node at `x`. -/
def mnodeSnodeInsert (fuel : Nat) (s : Registry) (x q : Ptr) (info : Scan) : Option Registry := do
  let c ← s.mheap x
  let (sheap, snode) ← snodeInsert fuel s.sheap c.data.snode q info
  let mheap ← setData s.mheap x fun m => { m with snode := snode }
  some { s with mheap := mheap, sheap := sheap }

/-- `zgb_mnode_insert` at the time `now`; `p` and `q` are the cells that `rt_calloc` returns. -/
def zgbMnodeInsert (fuel : Nat) (s : Registry) (info : Scan) (now : UInt32) (p q : Ptr) :
    Option Registry := do
  match ← findCell (fun m => decide (m.info.netid = info.netid)) fuel s.mheap s.mnode with
  | none =>
      let h := write s.mheap p (some ⟨⟨info.newInfo now, none⟩, none, none⟩)
      let last ← walkLast h fuel s.mnode
      let (h, mnode) ← link h s.mnode last p
      mnodeSnodeInsert fuel { s with mheap := h, mnode := mnode } p q info
  | some x =>
      let h ← setData s.mheap x fun m => { m with info := info.refresh now m.info }
      mnodeSnodeInsert fuel { s with mheap := h } x q info

/-- Taking the node at `x` out of the list, with the addresses behind it. -/
def mnodeFree (fuel : Nat) (s : Registry) (x : Ptr) : Option Registry := do
  let c ← s.mheap x
  let (mheap, mnode) ← unlink s.mheap s.mnode x
  let sheap ← snodeRmAll fuel s.sheap c.data.snode
  some ⟨mheap, sheap, mnode⟩

/-- `zgb_mnode_rm_with_id` -/
def zgbMnodeRmWithId (fuel : Nat) (s : Registry) (netid : UInt16) : Option Registry := do
  match ← findCell (fun m => decide (m.info.netid = netid)) fuel s.mheap s.mnode with
  | some x => mnodeFree fuel s x
  | none => some s

/-- The loop of `zgb_mnode_rm_all`; the inner loops run on `n`. -/
def rmAllLoop (n : Nat) : Nat → Registry → Option Ptr → Option Registry
  | 0, _, _ => none
  | _ + 1, s, none => some s
  | fuel + 1, s, some x => do
      let c ← s.mheap x
      let sheap ← snodeRmAll n s.sheap c.data.snode
      rmAllLoop n fuel { s with mheap := write s.mheap x none, sheap := sheap } c.next

/-- `zgb_mnode_rm_all` -/
def zgbMnodeRmAll (fuel : Nat) (s : Registry) : Option Registry :=
  (rmAllLoop fuel fuel s s.mnode).map fun s => { s with mnode := none }

/-- What `zgb_check_online` makes of a node; `none` when it is removed. -/
def MnodeInfo.check (ulLearnStep now : UInt32) (m : MnodeInfo) : Option MnodeInfo :=
  if m.online then
    if now < m.lasttime ∨ ulLearnStep * 4 ≤ now - m.lasttime then
      some { m with
        online := false
        offtime := now - ulLearnStep * 3 }
    else some m
  else if ulLearnStep * 20 ≤ now - m.offtime then none
  else some m

/-- The loop of `zgb_check_online`; the inner loops run on `n`. -/
def checkLoop (n : Nat) (ulLearnStep now : UInt32) : Nat → Registry → Option Ptr → Option Registry
  | 0, _, _ => none
  | _ + 1, s, none => some s
  | fuel + 1, s, some x => do
      let c ← s.mheap x
      match c.data.info.check ulLearnStep now with
      | some info => do
          let h ← setData s.mheap x fun m => { m with info := info }
          checkLoop n ulLearnStep now fuel { s with mheap := h } c.next
      | none => do
          let s ← mnodeFree n s x
          checkLoop n ulLearnStep now fuel s c.next

/-- `zgb_check_online` at the time `now`. -/
def zgbCheckOnline (fuel : Nat) (s : Registry) (ulLearnStep now : UInt32) : Option Registry :=
  checkLoop fuel ulLearnStep now fuel s s.mnode

/-! ## Calls -/

/-- A call that changes the registry, with the time. -/
inductive Call where
  | insert (info : Scan) (now : UInt32)
  | rmWithId (netid : UInt16)
  | rmAll
  | checkOnline (ulLearnStep now : UInt32)

/-- A call on some fuel; `p` and `q` are the cells that its allocations return. -/
def exec (fuel : Nat) (s : Registry) (p q : Ptr) : Call → Option Registry
  | .insert info now => zgbMnodeInsert fuel s info now p q
  | .rmWithId netid => zgbMnodeRmWithId fuel s netid
  | .rmAll => zgbMnodeRmAll fuel s
  | .checkOnline ulLearnStep now => zgbCheckOnline fuel s ulLearnStep now

/-- A call that comes back, with cells that were free. -/
def Step (s : Registry) (call : Call) (s' : Registry) : Prop :=
  ∃ p q, s.mheap p = none ∧ s.sheap q = none ∧
    ∃ n, ∀ fuel, n ≤ fuel → exec fuel s p q call = some s'

/-! ## What the registry says -/

/-- A node with what is behind it. -/
structure Node where
  info : MnodeInfo
  subs : List Snode

/-- A response replaces the cell of its type. -/
def Scan.insertSub (info : Scan) (subs : List Snode) : List Snode :=
  subs.eraseP (fun d => decide (d.type = info.type)) ++ [info.snode]

def insertNode (info : Scan) (now : UInt32) : List Node → List Node
  | [] => [⟨info.newInfo now, info.insertSub []⟩]
  | node :: nodes =>
      if node.info.netid = info.netid then
        ⟨info.refresh now node.info, info.insertSub node.subs⟩ :: nodes
      else node :: insertNode info now nodes

/-- What a call makes of the nodes. -/
def Call.apply (nodes : List Node) : Call → List Node
  | .insert info now => insertNode info now nodes
  | .rmWithId netid => nodes.eraseP fun node => decide (node.info.netid = netid)
  | .rmAll => []
  | .checkOnline ulLearnStep now =>
      nodes.filterMap fun node =>
        (node.info.check ulLearnStep now).map fun info => { node with info := info }

/-- The nodes are linked through `L`, those behind the node at `p` through `K p`. -/
structure Linked (s : Registry) (L : List Ptr) (K : Ptr → List Ptr) : Prop where
  list : DList s.mheap s.mnode L
  subs : ∀ p ∈ L, ∀ c, s.mheap p = some c → DList s.sheap c.data.snode (K p)
  disjoint : ∀ p ∈ L, ∀ p' ∈ L, p ≠ p' → ∀ x ∈ K p, x ∉ K p'

/-- The node at a cell. -/
def nodeAt (s : Registry) (K : Ptr → List Ptr) (p : Ptr) : Option Node :=
  (s.mheap p).map fun c => ⟨c.data.info, payloads s.sheap (K p)⟩

def nodesOf (s : Registry) (K : Ptr → List Ptr) (L : List Ptr) : List Node :=
  L.filterMap (nodeAt s K)

/-- The registry is well formed and holds `nodes`. -/
def Represents (s : Registry) (nodes : List Node) : Prop :=
  ∃ L K, Linked s L K ∧ nodesOf s K L = nodes

end K64Gateway.Zigbee
