import K64Gateway.Lib.Updates
import K64Gateway.VarManage.Json

/-
  The poll plan of `varmanage.c`: `__creat_sync_slave_link` sorts the enabled variables into
  groups of one slave each and keeps a chain of register blocks in every group, which
  `__trim_sync_slave_link` then joins.

  The keys of a group are stored in one byte each, and a lookup compares them with the wider
  numbers of the variable. Proved: two Modbus variables share a group exactly when their keys
  agree, and the group has these keys, if and only if the device number and the sync address of
  every Modbus variable fit (`grouped_iff`). Memory is never short.
-/

namespace K64Gateway.VarManage

variable {R : Type}

/-! ## The plan -/

/-- `_SYNC_EXT_MAX_SIZE` -/
def syncExtMaxSize : Nat := 32

/-- `sync_ext_t`: `addr` of all three views, `ofs` and `size` of the Modbus one, `op` of the
    DLT645 one. A chain is a list of them. -/
structure SyncExt where
  addr : UInt16
  ofs : UInt16
  size : UInt8
  op : UInt32
deriving DecidableEq

/-- `sync_slave_t`; `param` is the union, as its six bytes. -/
structure SyncSlave where
  dev_type : UInt8
  dev_num : UInt8
  proto_type : UInt8
  param : Dlt645Addr
  ext_list : List SyncExt
deriving DecidableEq

def SyncSlave.op (g : SyncSlave) : UInt8 := g.param.a0
def SyncSlave.slave_addr (g : SyncSlave) : UInt8 := g.param.a1
def SyncSlave.fa_addr (g : SyncSlave) : Int8 := g.param.a2.toInt8

/-- The block of a variable, in a group of this device and protocol. -/
def newSyncExt (dev_type dev_num proto_type : UInt8) (data : ExtData R) : SyncExt :=
  if protoIsRtuSelf dev_type.toNat dev_num.toNat then ⟨data.xIo.usAddr, 0, 0, 0⟩
  else if protoIsModbus dev_type.toNat proto_type.toNat then
    ⟨data.xIo.param.modbus.usExtAddr, data.xIo.param.modbus.usAddrOfs, UInt8.ofNat data.xIo.nregs, 0⟩
  else if protoIsDlt645 dev_type.toNat proto_type.toNat then
    ⟨data.xIo.usAddr, 0, 0, data.xIo.param.dlt645.op⟩
  else ⟨0, 0, 0, 0⟩

/-- The union of a new group. -/
def newSyncParam (dev_type dev_num proto_type : UInt8) (data : ExtData R) : Dlt645Addr :=
  if protoIsRtuSelf dev_type.toNat dev_num.toNat then ⟨0, 0, 0, 0, 0, 0⟩
  else if protoIsModbus dev_type.toNat proto_type.toNat then
    ⟨data.xIo.param.modbus.btOpCode, data.xIo.param.modbus.btSlaveAddr,
      data.xIo.param.modbus.nSyncFAddr.toInt8.toUInt8, 0, 0, 0⟩
  else if protoIsDlt645 dev_type.toNat proto_type.toNat then data.xIo.param.dlt645.addr
  else ⟨0, 0, 0, 0, 0, 0⟩

/-- `__add_sync_slave_node`, but for the link to the new group: the device and the protocol are
    those that fit in a byte. -/
def newSyncSlave (data : ExtData R) : SyncSlave :=
  let dev_type := data.xIo.usDevType.toUInt8
  let dev_num := data.xIo.usDevNum.toUInt8
  let proto_type := data.xIo.usProtoType.toUInt8
  { dev_type := dev_type
    dev_num := dev_num
    proto_type := proto_type
    param := newSyncParam dev_type dev_num proto_type data
    ext_list := [newSyncExt dev_type dev_num proto_type data] }

/-- The device of a group, compared as `int`. -/
def sameDevice (data : ExtData R) (g : SyncSlave) : Bool :=
  decide (g.dev_type.toNat = data.xIo.usDevType.toNat) &&
    decide (g.dev_num.toNat = data.xIo.usDevNum.toNat)

/-- The test of the Modbus loop of `__find_sync_slave_node`. -/
def matchesModbus (data : ExtData R) (g : SyncSlave) : Bool :=
  decide (g.op = data.xIo.param.modbus.btOpCode) &&
    decide (g.fa_addr.toInt = data.xIo.param.modbus.nSyncFAddr.toInt) &&
      decide (g.slave_addr = data.xIo.param.modbus.btSlaveAddr) && sameDevice data g &&
        decide (g.proto_type.toNat = data.xIo.usProtoType.toNat)

/-- The test of the DLT645 loop. -/
def matchesDlt645 (data : ExtData R) (g : SyncSlave) : Bool :=
  decide (g.param = data.xIo.param.dlt645.addr) && sameDevice data g &&
    decide (g.proto_type.toNat = data.xIo.usProtoType.toNat)

/-- `__find_sync_slave_node` -/
def findSyncSlaveNode (slaves : List SyncSlave) (data : ExtData R) : Option Nat :=
  if protoIsRtuSelf data.xIo.usDevType.toNat data.xIo.usDevNum.toNat then
    slaves.findIdx? (sameDevice data)
  else if protoIsModbus data.xIo.usDevType.toNat data.xIo.usProtoType.toNat then
    slaves.findIdx? (matchesModbus data)
  else if protoIsDlt645 data.xIo.usDevType.toNat data.xIo.usProtoType.toNat then
    slaves.findIdx? (matchesDlt645 data)
  else none

/-- A block is put in front of the first one with a higher address, or at the end. -/
def insertSyncExt (node_new : SyncExt) (chain : List SyncExt) : List SyncExt :=
  match chain.findIdx? fun node_ext => decide (node_new.addr < node_ext.addr) with
  -- every prev link is still null here, so the new block becomes the head, and it goes on
  -- behind the block it was to be put in front of
  | some k => node_new :: chain.drop (k + 1)
  | none => chain ++ [node_new]

/-- The new chain of a group that a variable is added to. -/
def SyncSlave.addExt (g : SyncSlave) (data : ExtData R) : SyncSlave :=
  let node_new := newSyncExt g.dev_type g.dev_num g.proto_type data
  { g with
    ext_list :=
      if !protoIsRtuSelf g.dev_type.toNat g.dev_num.toNat &&
          protoIsModbus g.dev_type.toNat g.proto_type.toNat then
        insertSyncExt node_new g.ext_list
      else g.ext_list ++ [node_new] }

/-- `__add_sync_ext_node` -/
def addSyncExtNode (slaves : List SyncSlave) (data : ExtData R) : List SyncSlave :=
  match findSyncSlaveNode slaves data with
  | some i => slaves.modify i fun g => g.addExt data
  | none => slaves ++ [newSyncSlave data]

/-- The loop of `__trim_sync_slave_link` over a chain, at the block `node_ext`. -/
def trimSyncExt (node_ext : SyncExt) : List SyncExt → List SyncExt
  | [] => [node_ext]
  | next :: rest =>
      if next.addr.toNat ≤ node_ext.addr.toNat + node_ext.size.toNat then
        let addr_a := node_ext.addr + node_ext.size.toUInt16
        let addr_b := next.addr + next.size.toUInt16
        if addr_a < addr_b then
          if (addr_b.toNat : Int) - node_ext.addr.toNat ≤ syncExtMaxSize then
            trimSyncExt { node_ext with size := (addr_b - node_ext.addr).toUInt8 } rest
          else node_ext :: trimSyncExt next rest
        else trimSyncExt node_ext rest
      else node_ext :: trimSyncExt next rest

def trimChain : List SyncExt → List SyncExt
  | [] => []
  | node_ext :: rest => trimSyncExt node_ext rest

/-- `__trim_sync_slave_link` -/
def trimSyncSlaveLink (slaves : List SyncSlave) : List SyncSlave :=
  slaves.map fun g =>
    if protoIsModbus g.dev_type.toNat g.proto_type.toNat then
      { g with ext_list := trimChain g.ext_list }
    else g

/-- The groups after the loop over the list. -/
def addSyncExtNodes (vars : List (ExtData R)) : List SyncSlave :=
  (vars.filter ExtData.bEnable).foldl addSyncExtNode []

/-- `__creat_sync_slave_link` -/
def creatSyncSlaveLink (vars : List (ExtData R)) : List SyncSlave :=
  trimSyncSlaveLink (addSyncExtNodes vars)

/-! ## The group of a variable -/

/-- The place of the group that a variable is added to. -/
def groupIndex (slaves : List SyncSlave) (data : ExtData R) : Nat :=
  (findSyncSlaveNode slaves data).getD slaves.length

/-- The places for the variables of a list, one after the other. -/
def groupIndices (slaves : List SyncSlave) : List (ExtData R) → List Nat
  | [] => []
  | data :: rest => groupIndex slaves data :: groupIndices (addSyncExtNode slaves data) rest

/-- The keys of a group are those of a variable. -/
def SameKeys (g : SyncSlave) (data : ExtData R) : Prop :=
  g.dev_type.toNat = data.xIo.usDevType.toNat ∧ g.dev_num.toNat = data.xIo.usDevNum.toNat ∧
    g.proto_type.toNat = data.xIo.usProtoType.toNat ∧ g.op = data.xIo.param.modbus.btOpCode ∧
      g.slave_addr = data.xIo.param.modbus.btSlaveAddr ∧
        g.fa_addr.toInt = data.xIo.param.modbus.nSyncFAddr.toInt

/-- Two variables agree on the keys. -/
def KeysAgree (d e : ExtData R) : Prop :=
  d.xIo.usDevType = e.xIo.usDevType ∧ d.xIo.usDevNum = e.xIo.usDevNum ∧
    d.xIo.usProtoType = e.xIo.usProtoType ∧
      d.xIo.param.modbus.btOpCode = e.xIo.param.modbus.btOpCode ∧
        d.xIo.param.modbus.btSlaveAddr = e.xIo.param.modbus.btSlaveAddr ∧
          d.xIo.param.modbus.nSyncFAddr = e.xIo.param.modbus.nSyncFAddr

def IsModbus (data : ExtData R) : Prop :=
  protoIsModbus data.xIo.usDevType.toNat data.xIo.usProtoType.toNat = true

/-- The numbers that a group keeps in a byte fit. -/
def KeysFit (data : ExtData R) : Prop :=
  data.xIo.usDevNum.toNat < 256 ∧ -128 ≤ data.xIo.param.modbus.nSyncFAddr.toInt ∧
    data.xIo.param.modbus.nSyncFAddr.toInt ≤ 127

theorem matchesModbus_iff (data : ExtData R) (g : SyncSlave) :
    matchesModbus data g = true ↔ SameKeys g data := by
  simp only [matchesModbus, sameDevice, SameKeys, Bool.and_eq_true, decide_eq_true_eq]
  tauto

theorem findSyncSlaveNode_modbus {data : ExtData R} (h : IsModbus data)
    (slaves : List SyncSlave) :
    findSyncSlaveNode slaves data = slaves.findIdx? (matchesModbus data) := by
  rw [findSyncSlaveNode, if_neg (by rw [protoIsRtuSelf_of_modbus _ h]; simp),
    if_pos (show protoIsModbus _ _ = true from h)]

theorem protoIsModbus_protoType {dev_type proto_type : Nat}
    (h : protoIsModbus dev_type proto_type = true) : proto_type ≤ 2 := by
  revert h
  unfold protoIsModbus protoModbusAscii protoModbusTcp protoModbusRtuOverTcp
  split_ifs <;> simp <;> omega

/-- A new group has the keys of its variable if they fit, and never otherwise. -/
theorem sameKeys_new_iff {data : ExtData R} (h : IsModbus data) :
    SameKeys (newSyncSlave data) data ↔ KeysFit data := by
  have htype := protoIsModbus_devType h
  have hproto := protoIsModbus_protoType h
  have htype' : data.xIo.usDevType.toUInt8.toNat = data.xIo.usDevType.toNat := by
    rw [UInt16.toNat_toUInt8]
    omega
  have hproto' : data.xIo.usProtoType.toUInt8.toNat = data.xIo.usProtoType.toNat := by
    rw [UInt16.toNat_toUInt8]
    omega
  have hself : protoIsRtuSelf data.xIo.usDevType.toUInt8.toNat data.xIo.usDevNum.toUInt8.toNat =
      false := protoIsRtuSelf_of_modbus _ (by rw [htype']; exact h)
  have hmodbus : protoIsModbus data.xIo.usDevType.toUInt8.toNat
      data.xIo.usProtoType.toUInt8.toNat = true := by
    rw [htype', hproto']
    exact h
  have hparam : (newSyncSlave data).param = ⟨data.xIo.param.modbus.btOpCode,
      data.xIo.param.modbus.btSlaveAddr, data.xIo.param.modbus.nSyncFAddr.toInt8.toUInt8,
        0, 0, 0⟩ := by
    show newSyncParam _ _ _ data = _
    rw [newSyncParam, if_neg (by rw [hself]; simp), if_pos hmodbus]
  have hnum : data.xIo.usDevNum.toUInt8.toNat = data.xIo.usDevNum.toNat ↔
      data.xIo.usDevNum.toNat < 256 := by
    rw [UInt16.toNat_toUInt8]
    omega
  have hfa : data.xIo.param.modbus.nSyncFAddr.toInt8.toUInt8.toInt8.toInt =
      data.xIo.param.modbus.nSyncFAddr.toInt ↔
        -128 ≤ data.xIo.param.modbus.nSyncFAddr.toInt ∧
          data.xIo.param.modbus.nSyncFAddr.toInt ≤ 127 := by
    rw [Int8.toInt8_toUInt8, Int32.toInt_toInt8, Int.bmod_def]
    split <;> omega
  unfold SameKeys SyncSlave.op SyncSlave.slave_addr SyncSlave.fa_addr
  rw [hparam]
  show data.xIo.usDevType.toUInt8.toNat = _ ∧ data.xIo.usDevNum.toUInt8.toNat = _ ∧
    data.xIo.usProtoType.toUInt8.toNat = _ ∧ _ ∧ _ ∧ _ ↔ _
  rw [hnum, hfa]
  simp [htype', hproto', KeysFit]

/-- The keys of a group, without its chain. -/
def SyncSlave.key (g : SyncSlave) : SyncSlave := { g with ext_list := [] }

/-- Groups are added behind the others, and keep their keys. -/
theorem addSyncExtNode_keys (slaves : List SyncSlave) (data : ExtData R) :
    slaves.map SyncSlave.key <+: (addSyncExtNode slaves data).map SyncSlave.key := by
  unfold addSyncExtNode
  split
  · next i _ =>
    have hkeys : (slaves.modify i fun g => g.addExt data).map SyncSlave.key =
        (slaves.map SyncSlave.key).modify i id :=
      Updates.map_modify (f := fun g => g.addExt data) (g := SyncSlave.key) (fun _ => rfl) slaves i
    rw [List.modify_id] at hkeys
    rw [hkeys]
  · rw [List.map_append]
    exact List.prefix_append ..

theorem foldl_addSyncExtNode_keys (slaves : List SyncSlave) (vars : List (ExtData R)) :
    slaves.map SyncSlave.key <+: (vars.foldl addSyncExtNode slaves).map SyncSlave.key := by
  induction vars generalizing slaves with
  | nil => exact List.prefix_refl _
  | cons data rest ih => exact (addSyncExtNode_keys slaves data).trans (ih _)

theorem trimSyncSlaveLink_keys (slaves : List SyncSlave) :
    (trimSyncSlaveLink slaves).map SyncSlave.key = slaves.map SyncSlave.key := by
  unfold trimSyncSlaveLink
  rw [List.map_map]
  refine List.map_congr_left fun g _ => ?_
  rw [Function.comp_apply]
  split <;> rfl

/-- The first group of a variable is looked up by the keys. -/
theorem findIdx?_keys (data : ExtData R) (slaves : List SyncSlave) :
    (slaves.map SyncSlave.key).findIdx? (matchesModbus data) =
      slaves.findIdx? (matchesModbus data) := List.findIdx?_map ..

theorem findIdx?_of_keys {data : ExtData R} {slaves slaves' : List SyncSlave} {n : Nat}
    (hkeys : slaves.map SyncSlave.key <+: slaves'.map SyncSlave.key)
    (h : slaves.findIdx? (matchesModbus data) = some n) :
    slaves'.findIdx? (matchesModbus data) = some n := by
  rw [← findIdx?_keys] at h ⊢
  exact hkeys.findIdx?_eq_some h

/-- A variable whose keys fit finds the group it was added to. -/
theorem findIdx?_addSyncExtNode {data : ExtData R} (h : IsModbus data) (hfit : KeysFit data)
    (slaves : List SyncSlave) :
    (addSyncExtNode slaves data).findIdx? (matchesModbus data) =
      some (groupIndex slaves data) := by
  cases hfind : findSyncSlaveNode slaves data with
  | some n =>
    rw [groupIndex, hfind, Option.getD_some]
    rw [findSyncSlaveNode_modbus h] at hfind
    exact findIdx?_of_keys (addSyncExtNode_keys slaves data) hfind
  | none =>
    have hnew : matchesModbus data (newSyncSlave data) = true :=
      (matchesModbus_iff _ _).mpr ((sameKeys_new_iff h).mpr hfit)
    rw [groupIndex, addSyncExtNode, hfind]
    rw [findSyncSlaveNode_modbus h] at hfind
    simp [List.findIdx?_append, hfind, hnew]

/-- In the finished plan too. -/
theorem findIdx?_groupIndices {vars : List (ExtData R)} (slaves : List SyncSlave) {i n : Nat}
    {data : ExtData R} (hi : vars[i]? = some data) (hn : (groupIndices slaves vars)[i]? = some n)
    (h : IsModbus data) (hfit : KeysFit data) :
    (vars.foldl addSyncExtNode slaves).findIdx? (matchesModbus data) = some n := by
  induction vars generalizing slaves i with
  | nil => exact nomatch hi
  | cons first rest ih =>
    cases i with
    | zero =>
      obtain rfl : first = data := Option.some.inj hi
      obtain rfl : groupIndex slaves first = n := Option.some.inj hn
      exact findIdx?_of_keys (foldl_addSyncExtNode_keys _ rest)
        (findIdx?_addSyncExtNode h hfit slaves)
    | succ i => exact ih (addSyncExtNode slaves first) hi hn

/-- Only keys that fit are ever those of a group. -/
theorem keysFit_of_sameKeys {g : SyncSlave} {data : ExtData R} (h : SameKeys g data) :
    KeysFit data := by
  obtain ⟨-, hnum, -, -, -, hfa⟩ := h
  have hbyte := g.dev_num.toNat_lt
  have hlow := g.fa_addr.le_toInt
  have hhigh := g.fa_addr.toInt_lt
  exact ⟨by omega, by omega, by omega⟩

theorem groupIndices_length (slaves : List SyncSlave) (vars : List (ExtData R)) :
    (groupIndices slaves vars).length = vars.length := by
  induction vars generalizing slaves with
  | nil => rfl
  | cons data rest ih => exact congrArg Nat.succ (ih _)

/-- Two variables with the keys of one group agree on them. -/
theorem keysAgree_of_sameKeys {g : SyncSlave} {d e : ExtData R} (hd : SameKeys g d)
    (he : SameKeys g e) : KeysAgree d e := by
  obtain ⟨htype, hnum, hproto, hop, hslave, hfa⟩ := hd
  obtain ⟨htype', hnum', hproto', hop', hslave', hfa'⟩ := he
  exact ⟨UInt16.toNat_inj.mp (htype.symm.trans htype'), UInt16.toNat_inj.mp (hnum.symm.trans hnum'),
    UInt16.toNat_inj.mp (hproto.symm.trans hproto'), hop.symm.trans hop',
      hslave.symm.trans hslave', Int32.toInt_inj.mp (hfa.symm.trans hfa')⟩

theorem matchesModbus_congr {d e : ExtData R} (h : KeysAgree d e) :
    matchesModbus d = matchesModbus e := by
  obtain ⟨htype, hnum, hproto, hop, hslave, hfa⟩ := h
  funext g
  unfold matchesModbus sameDevice
  rw [htype, hnum, hproto, hop, hslave, hfa]

/-- Two Modbus variables share a group exactly when their keys agree, and the group has them. -/
structure Grouped (vars : List (ExtData R)) : Prop where
  share : ∀ (i j : Nat) (d e : ExtData R), (vars.filter ExtData.bEnable)[i]? = some d →
    (vars.filter ExtData.bEnable)[j]? = some e → IsModbus d → IsModbus e →
      ((groupIndices [] (vars.filter ExtData.bEnable))[i]? =
        (groupIndices [] (vars.filter ExtData.bEnable))[j]? ↔ KeysAgree d e)
  keys : ∀ (i : Nat) (d : ExtData R), (vars.filter ExtData.bEnable)[i]? = some d → IsModbus d →
    ∃ n g, (groupIndices [] (vars.filter ExtData.bEnable))[i]? = some n ∧
      (creatSyncSlaveLink vars)[n]? = some g ∧ SameKeys g d

/-- A variable is in the first group with its keys. -/
theorem groupIndices_first {vars : List (ExtData R)} (i : Nat) {d : ExtData R}
    (hi : (vars.filter ExtData.bEnable)[i]? = some d) (h : IsModbus d) (hfit : KeysFit d) :
    (groupIndices [] (vars.filter ExtData.bEnable))[i]? =
      (creatSyncSlaveLink vars).findIdx? (matchesModbus d) := by
  obtain ⟨hlt, -⟩ := List.getElem?_eq_some_iff.mp hi
  rw [← groupIndices_length []] at hlt
  have hn := List.getElem?_eq_getElem hlt
  have hfind := findIdx?_groupIndices [] hi hn h hfit
  have hplan : (creatSyncSlaveLink vars).findIdx? (matchesModbus d) =
      (addSyncExtNodes vars).findIdx? (matchesModbus d) := by
    rw [← findIdx?_keys, creatSyncSlaveLink, trimSyncSlaveLink_keys, findIdx?_keys]
  rw [hn, hplan]
  exact hfind.symm

/-- The plan groups the Modbus variables by their keys if and only if these fit. -/
theorem grouped_iff (vars : List (ExtData R)) :
    Grouped vars ↔ ∀ data ∈ vars, data.bEnable = true → IsModbus data → KeysFit data := by
  constructor
  · intro h data hdata hen hmodbus
    obtain ⟨i, hi⟩ := List.getElem?_of_mem (List.mem_filter.mpr ⟨hdata, hen⟩)
    obtain ⟨n, g, -, -, hsame⟩ := h.keys i data hi hmodbus
    exact keysFit_of_sameKeys hsame
  · intro h
    have hfits : ∀ (i : Nat) d, (vars.filter ExtData.bEnable)[i]? = some d → IsModbus d → KeysFit d := by
      intro i d hi hmodbus
      obtain ⟨hmem, hen⟩ := List.mem_filter.mp (List.mem_of_getElem? hi)
      exact h d hmem hen hmodbus
    have hkeys : ∀ (i : Nat) d, (vars.filter ExtData.bEnable)[i]? = some d → IsModbus d →
        ∃ n g, (groupIndices [] (vars.filter ExtData.bEnable))[i]? = some n ∧
          (creatSyncSlaveLink vars)[n]? = some g ∧ SameKeys g d := by
      intro i d hi hmodbus
      have hfirst := groupIndices_first i hi hmodbus (hfits i d hi hmodbus)
      obtain ⟨hlt, -⟩ := List.getElem?_eq_some_iff.mp hi
      rw [← groupIndices_length []] at hlt
      rw [List.getElem?_eq_getElem hlt] at hfirst
      obtain ⟨hlt', hmatch, -⟩ := List.findIdx?_eq_some_iff_getElem.mp hfirst.symm
      exact ⟨_, _, List.getElem?_eq_getElem hlt, List.getElem?_eq_getElem hlt',
        (matchesModbus_iff _ _).mp hmatch⟩
    refine ⟨fun i j d e hi hj hd he => ⟨fun hsame => ?_, fun hagree => ?_⟩, hkeys⟩
    · obtain ⟨n, g, hn, hg, hkd⟩ := hkeys i d hi hd
      obtain ⟨n', g', hn', hg', hke⟩ := hkeys j e hj he
      obtain rfl : n = n' := Option.some.inj (hn.symm.trans (hsame.trans hn'))
      obtain rfl : g = g' := Option.some.inj (hg.symm.trans hg')
      exact keysAgree_of_sameKeys hkd hke
    · rw [groupIndices_first i hi hd (hfits i d hi hd), groupIndices_first j hj he (hfits j e hj he),
        matchesModbus_congr hagree]

open Cjson

/-- A variable of the slave 1 with this sync address. -/
def syncDoc (sfa : Int) : Item Int :=
  .object [(keyEn, number 1), (keyIo, .object [(keyVt, number 4), (keyVs, number 2),
    (keyAd, number 1024), (keySa, number 1), (keySfa, number sfa)])]

/-- The sync address 128 is stored as -128. -/
theorem sync128_not_grouped :
    ¬ ∀ docs : List (Item Int), Grouped (docs.map fun doc => jsonParseExtDataInfo doc zeroed) := by
  intro h
  obtain ⟨n, g, -, -, hsame⟩ := (h [syncDoc 128]).keys 0 _ rfl (by unfold IsModbus; decide +kernel)
  have hfit := (keysFit_of_sameKeys hsame).2.2
  exact absurd hfit (by decide +kernel)

end K64Gateway.VarManage
