import K64Gateway.VarManage.Json
import K64Gateway.VarManage.Registers

/-
  The polling of `vVarManage_ExtDataRefreshTask`: one poll of a Modbus block, of an analog input
  of the gateway or of a DLT645 meter, and the replies to the writes that are passed on to the
  slaves.

  Proved: for which configurations every index that a run of polls uses on `g_xExtDataRegs` is
  one of its registers (`used_inArray`).
-/

namespace K64Gateway.VarManage

open Stores

variable {R : Type}

/-! ## Polls -/

/-- `nUartGetInstance`, as the byte of its result. -/
def nUartGetInstance (index : UInt8) : UInt8 :=
  if index = 0 then 1 else if index = 1 then 4 else if index = 2 then 5 else if index = 3 then 0
  else 255

/-- `_p`, where it is not negative; `ready` tells whether the device is connected. -/
def pollPort (ready : Bool) (dev_type dev_num : UInt8) : Option UInt8 :=
  let _p : UInt8 :=
    if dev_type.toNat ≤ protoDevRsMax then nUartGetInstance dev_type
    else if !ready then 255
    else if dev_type.toNat = protoDevZigbee then UInt8.ofNat boardZigbeeUart
    else if dev_type.toNat = protoDevNet then dev_num + UInt8.ofNat mbTcpIdOfs
    else if dev_type.toNat = protoDevGprs then
      dev_num + UInt8.ofNat (mbTcpIdOfs + boardEnetTcpipNum)
    else 255
  if 0 ≤ _p.toInt8 then some _p else none

/-- A Modbus node of the plan, `sync_node_t`. -/
structure SyncModbus where
  dev_type : UInt8
  dev_num : UInt8
  op : UInt8
  slave_addr : UInt8
  ext_addr : UInt16
  ext_size : UInt8

def SyncModbus.block (node : SyncModbus) : Block where
  usDevType := node.dev_type.toUInt16
  usDevNum := node.dev_num.toUInt16
  btSlaveAddr := node.slave_addr
  usAddress := node.ext_addr
  usNRegs := node.ext_size.toUInt16

inductive Poll where
  /-- a Modbus node of the plan, with the payload of the reply or none for a failure -/
  | modbus (node : SyncModbus) (ready : Bool) (reply : Option (Nat → UInt8))
  /-- an analog input, with its two registers -/
  | rtuSelf (addr reg0 reg1 : UInt16)
  /-- a DLT645 node, with the bytes of the value or none for a failure -/
  | dlt645 (dlt645_addr : Dlt645Addr) (addr : UInt16) (op : UInt32)
      (reply : Option (Nat → UInt8))
  /-- the reply to a write request -/
  | written (dev_type dev_num : UInt8) (ready : Bool) (btSlaveAddr : UInt8)
      (usAddress usNRegs : UInt16)

section Step

variable [VarReal R] (env : PollEnv R)

/-- The reply to a read request; it is for the block that was asked for. Where the callback has
    no device for the port, the request fails. -/
def modbusReply (s : Polled R) (node : SyncModbus) (_p : UInt8) : Option (Nat → UInt8) → Polled R
  | some buf =>
      match bVarManageRefreshExtDataWithModbusMaster env s _p node.slave_addr node.ext_addr
        node.ext_size.toUInt16 buf with
      | (s', true) => s'
      | (s', false) => vVarManageModbusMasterTryClearExtDataWithErr node.block s'
  | none => vVarManageModbusMasterTryClearExtDataWithErr node.block s

/-- One poll of `vVarManage_ExtDataRefreshTask`. -/
def pollStep (s : Polled R) : Poll → Polled R
  | .modbus node ready reply =>
      match pollPort ready node.dev_type node.dev_num with
      | some _p =>
          if node.op = mbFuncReadHoldingRegister ∨ node.op = mbFuncReadInputRegister then
            modbusReply env s node _p reply
          else s
      | none => s
  | .rtuSelf addr reg0 reg1 => refreshRtuSelf env s addr reg0 reg1
  | .dlt645 dlt645_addr addr op (some f_buf) =>
      bVarManageRefreshExtDataWithDlt645 env s dlt645_addr addr op f_buf
  | .dlt645 dlt645_addr addr op none =>
      vVarManageDlt645TryClearExtDataWithErr s dlt645_addr addr op
  | .written dev_type dev_num ready btSlaveAddr usAddress usNRegs =>
      match pollPort ready dev_type dev_num with
      | some _p => (bVarManageReadExtDataWithModbusMaster s _p btSlaveAddr usAddress usNRegs).1
      | none => s

def pollRun (s : Polled R) (polls : List Poll) : Polled R := polls.foldl (pollStep env) s

end Step

/-- The polls of analog inputs and meters are those of configured variables. -/
def Planned (vars : List (ExtData R)) : Poll → Prop
  | .rtuSelf addr _ _ => ∃ data ∈ vars, data.bEnable = true ∧
      protoIsRtuSelf data.xIo.usDevType.toNat data.xIo.usDevNum.toNat = true ∧
        data.xIo.usAddr = addr
  | .dlt645 dlt645_addr addr op _ => ∃ data ∈ vars,
      protoIsDlt645 data.xIo.usDevType.toNat data.xIo.usProtoType.toNat = true ∧
        dlt645Has dlt645_addr addr op data = true
  | _ => True

/-! ## The settings stay -/

section Key

variable [VarReal R] (env : PollEnv R)

theorem responseNode_key (b : Block) (buf : Nat → UInt8) (s : Polled R) (i : Nat) :
    (responseNode env b buf s i).vars.map ExtData.key = s.vars.map ExtData.key := by
  unfold responseNode
  split
  · split
    · exact refreshExtDataWithRegs_key env _ _
    · rfl
  · rfl

theorem foldl_key (b : Block) (buf : Nat → UInt8) (indices : List Nat) (s : Polled R) :
    (indices.foldl (responseNode env b buf) s).vars.map ExtData.key =
      s.vars.map ExtData.key := by
  induction indices generalizing s with
  | nil => rfl
  | cons i indices ih =>
    rw [List.foldl_cons, ih]
    exact responseNode_key env b buf s i

theorem responseBlock_key (b : Block) (buf : Nat → UInt8) (s : Polled R) :
    (responseBlock env b buf s).vars.map ExtData.key = s.vars.map ExtData.key :=
  foldl_key env b buf _ s

omit [VarReal R] in
theorem tryClear_key (b : Block) (s : Polled R) :
    (vVarManageModbusMasterTryClearExtDataWithErr b s).vars.map ExtData.key =
      s.vars.map ExtData.key := by
  unfold vVarManageModbusMasterTryClearExtDataWithErr
  dsimp only
  rw [List.map_map]
  refine List.map_congr_left fun node _ => ?_
  rw [Function.comp_apply]
  split
  · exact key_failNode node
  · rfl

omit [VarReal R] in
theorem dlt645TryClear_key (s : Polled R) (dlt645_addr : Dlt645Addr) (addr : UInt16)
    (op : UInt32) :
    (vVarManageDlt645TryClearExtDataWithErr s dlt645_addr addr op).vars.map ExtData.key =
      s.vars.map ExtData.key := by
  unfold vVarManageDlt645TryClearExtDataWithErr
  split
  · split
    · next i _ node hi => exact map_key_set hi (key_failNode node)
    · rfl
  · rfl

theorem modbusReply_key (s : Polled R) (node : SyncModbus) (_p : UInt8)
    (reply : Option (Nat → UInt8)) :
    (modbusReply env s node _p reply).vars.map ExtData.key = s.vars.map ExtData.key := by
  cases reply with
  | none => exact tryClear_key node.block s
  | some buf =>
    unfold modbusReply bVarManageRefreshExtDataWithModbusMaster
    cases portDevice _p with
    | some device => exact responseBlock_key env _ _ _
    | none => exact tryClear_key node.block s

/-- No poll changes a setting. -/
theorem pollStep_key (s : Polled R) (p : Poll) :
    (pollStep env s p).vars.map ExtData.key = s.vars.map ExtData.key := by
  cases p with
  | modbus node ready reply =>
    unfold pollStep
    dsimp only
    split
    · split
      · exact modbusReply_key env s node _ reply
      · rfl
    · rfl
  | rtuSelf addr reg0 reg1 => exact refreshExtDataWithRegs_key env _ _
  | dlt645 dlt645_addr addr op reply =>
    cases reply with
    | none => exact dlt645TryClear_key s dlt645_addr addr op
    | some f_buf =>
      unfold pollStep bVarManageRefreshExtDataWithDlt645
      dsimp only
      split
      · exact refreshExtDataWithRegs_key env _ _
      · rfl
  | written dev_type dev_num ready btSlaveAddr usAddress usNRegs =>
    unfold pollStep bVarManageReadExtDataWithModbusMaster
    dsimp only
    split
    · split <;> rfl
    · rfl

end Key

/-! ## The indices -/

/-- An index of `g_xExtDataRegs`. -/
def InArray (i : Int) : Prop := 0 ≤ i ∧ i < userRegExtDataSize

/-- The first `n` registers of a variable, if there are any, are mapped. -/
def Fits (data : ExtData R) (n : Nat) : Prop :=
  0 < n → userRegExtDataStart ≤ data.xIo.usAddr.toNat ∧
    data.xIo.usAddr.toNat + n ≤ userRegExtDataEnd + 1

theorem Fits.inArray {data : ExtData R} {n : Nat} (h : Fits data n) {β : Type} {f : Nat → β}
    {i : Int} (hi : i ∈ (block (regIndex data.xIo.usAddr) n f).map Prod.fst) : InArray i := by
  obtain ⟨hle, hlt⟩ := (mem_block_iff _ _ _ _).mp hi
  have hn : 0 < n := by omega
  obtain ⟨hstart, hend⟩ := h hn
  unfold regIndex userRegExtDataStart userRegExtDataEnd at *
  unfold InArray userRegExtDataSize userRegExtDataStart userRegExtDataEnd
  omega

theorem Fits.mono {data : ExtData R} {n m : Nat} (h : Fits data n) (hm : m ≤ n) :
    Fits data m := by
  intro hpos
  obtain ⟨hstart, hend⟩ := h (by omega)
  exact ⟨hstart, by omega⟩

theorem Fits.congr {d d' : ExtData R} {n : Nat} (h : Fits d n) (hkey : d.key = d'.key) :
    Fits d' n := by
  unfold Fits at h ⊢
  rwa [← usAddr_congr hkey]

/-- A variable of a device whose replies or failures the Modbus master passes on: a failure is
    for the device of the plan, a reply for the device of the port. -/
def MasterDevice (data : ExtData R) : Prop :=
  ∃ (dev_type dev_num _p : UInt8), pollPort true dev_type dev_num = some _p ∧
    (portDevice _p = some (data.xIo.usDevType, data.xIo.usDevNum) ∨
      data.xIo.usDevType = dev_type.toUInt16 ∧ data.xIo.usDevNum = dev_num.toUInt16 ∧
        data.xIo.btErrOp = eErrOpClear)

/-- How many registers the polling of a meter uses. -/
def dlt645Regs (data : ExtData R) : Nat :=
  if data.xIo.btErrOp = eErrOpClear then data.xIo.nregs else min data.xIo.nregs 4

/-- Where a poll reaches the registers of a variable, they are mapped. -/
structure PollFits (vars : List (ExtData R)) : Prop where
  rtuSelf : ∀ data ∈ vars, data.bEnable = true →
    protoIsRtuSelf data.xIo.usDevType.toNat data.xIo.usDevNum.toNat = true → Fits data 2
  modbus : ∀ data ∈ vars, data.bEnable = true → MasterDevice data → Fits data data.xIo.nregs
  dlt645 : ∀ data ∈ vars, protoIsDlt645 data.xIo.usDevType.toNat data.xIo.usProtoType.toNat = true →
    ∀ (dlt645_addr : Dlt645Addr) (op : UInt32),
      dlt645Has dlt645_addr data.xIo.usAddr op data = true →
        ∀ first, vars.find? (dlt645Has dlt645_addr data.xIo.usAddr op) = some first →
          Fits first (dlt645Regs first)

theorem exists_key {vars vars' : List (ExtData R)}
    (h : vars'.map ExtData.key = vars.map ExtData.key) {d : ExtData R} (hd : d ∈ vars') :
    ∃ d0 ∈ vars, d0.key = d.key := by
  have hmem : d.key ∈ vars.map ExtData.key := h ▸ List.mem_map_of_mem hd
  exact List.mem_map.mp hmem

theorem masterDevice_congr {d d' : ExtData R} (h : d.key = d'.key) :
    MasterDevice d = MasterDevice d' :=
  congrArg (fun k : Bool × ExtDataIO R =>
    ∃ (dev_type dev_num _p : UInt8), pollPort true dev_type dev_num = some _p ∧
      (portDevice _p = some (k.2.usDevType, k.2.usDevNum) ∨
        k.2.usDevType = dev_type.toUInt16 ∧ k.2.usDevNum = dev_num.toUInt16 ∧
          k.2.btErrOp = eErrOpClear)) h

theorem dlt645Regs_congr {d d' : ExtData R} (h : d.key = d'.key) :
    dlt645Regs d = dlt645Regs d' :=
  congrArg (fun k : Bool × ExtDataIO R =>
    if k.2.btErrOp = eErrOpClear then k.2.nregs else min k.2.nregs 4) h

/-- The first variable of a meter is at the same place whatever was polled. -/
theorem find_dlt645_key {vars vars' : List (ExtData R)}
    (h : vars'.map ExtData.key = vars.map ExtData.key) (dlt645_addr : Dlt645Addr)
    (addr : UInt16) (op : UInt32) :
    (vars'.find? (dlt645Has dlt645_addr addr op)).map ExtData.key =
      (vars.find? (dlt645Has dlt645_addr addr op)).map ExtData.key := by
  have hkey : ∀ l : List (ExtData R), (l.find? (dlt645Has dlt645_addr addr op)).map ExtData.key =
      (l.map ExtData.key).find? (fun k => k.1 && decide (k.2.param.dlt645.addr = dlt645_addr) &&
        decide (k.2.usAddr = addr) && decide (k.2.param.dlt645.op = op)) := by
    intro l
    rw [List.find?_map]
    rfl
  rw [hkey, hkey, h]

/-- A poll uses indices of the array only. -/
def UsesArray (s s' : Polled R) : Prop :=
  ∀ i ∈ s'.used, i ∈ s.used ∨ InArray i

theorem UsesArray.trans {s s' s'' : Polled R} (h : UsesArray s s') (h' : UsesArray s' s'') :
    UsesArray s s'' := by
  intro i hi
  rcases h' i hi with hi' | hi'
  · exact h i hi'
  · exact Or.inr hi'

theorem usesArray_store {s : Polled R} {ws : List (Int × UInt16)}
    (h : ∀ i ∈ ws.map Prod.fst, InArray i) : UsesArray s (s.store ws) := by
  intro i hi
  rcases List.mem_append.mp hi with hi | hi
  · exact Or.inl hi
  · exact Or.inr (h i hi)

section Uses

variable [VarReal R] (env : PollEnv R)

theorem usesArray_refresh (s s' : Polled R) (usAddress : UInt16) (h : UsesArray s s') :
    UsesArray s (refreshExtDataWithRegs env s' usAddress) := by
  intro i hi
  rw [refreshExtDataWithRegs_used] at hi
  exact h i hi

/-- Every variable that a block has lies in the map. -/
def BlockFits (b : Block) (vars : List (ExtData R)) : Prop :=
  ∀ d ∈ vars, b.has d = true → Fits d d.xIo.nregs

omit [VarReal R] in
theorem BlockFits.congr {b : Block} {vars vars' : List (ExtData R)} (h : BlockFits b vars)
    (hkey : vars'.map ExtData.key = vars.map ExtData.key) : BlockFits b vars' := by
  intro d hd hhas
  obtain ⟨d0, hd0, hk⟩ := exists_key hkey hd
  have hfit := h d0 hd0 (by rwa [has_congr b hk])
  rw [nregs_congr hk] at hfit
  exact hfit.congr hk

theorem responseBlock_usesArray (b : Block) (buf : Nat → UInt8) {s : Polled R}
    (hfit : BlockFits b s.vars) : UsesArray s (responseBlock env b buf s) := by
  unfold responseBlock
  generalize List.range s.vars.length = indices
  induction indices generalizing s with
  | nil => exact fun i hi => Or.inl hi
  | cons i indices ih =>
    rw [List.foldl_cons]
    have hstep : UsesArray s (responseNode env b buf s i) := by
      unfold responseNode
      split
      · next node hi =>
        split
        · next hhas =>
          refine usesArray_refresh env _ _ _ (usesArray_store fun k hk => ?_)
          exact (hfit node (List.mem_of_getElem? hi) hhas).inArray hk
        · exact fun i hi => Or.inl hi
      · exact fun i hi => Or.inl hi
    exact hstep.trans (ih (hfit.congr (responseNode_key env b buf s i)))

omit [VarReal R] in
theorem tryClear_usesArray {b : Block} {s : Polled R}
    (hfit : ∀ d ∈ s.vars, b.has d = true → clears d = true → Fits d d.xIo.nregs) :
    UsesArray s (vVarManageModbusMasterTryClearExtDataWithErr b s) := by
  intro i hi
  rcases List.mem_append.mp hi with hi | hi
  · exact Or.inl hi
  · right
    obtain ⟨w, hw, rfl⟩ := List.mem_map.mp hi
    obtain ⟨d, hd, hw⟩ := List.mem_flatMap.mp hw
    obtain ⟨hd, hhas⟩ := List.mem_filter.mp hd
    unfold failRegs at hw
    split at hw
    · next hclear => exact (hfit d hd hhas hclear).inArray (List.mem_map_of_mem hw)
    · exact absurd hw List.not_mem_nil

omit [VarReal R] in
theorem readRegs_usesArray {b : Block} {s : Polled R} (hfit : BlockFits b s.vars) :
    UsesArray s (s.read ((s.vars.filter b.has).flatMap fun node =>
      readRegs node.xIo.usAddr node.xIo.nregs)) := by
  intro i hi
  rcases List.mem_append.mp hi with hi | hi
  · exact Or.inl hi
  · right
    obtain ⟨d, hd, hi⟩ := List.mem_flatMap.mp hi
    obtain ⟨hd, hhas⟩ := List.mem_filter.mp hd
    exact (hfit d hd hhas).inArray hi

omit [VarReal R] in
theorem has_iff (b : Block) (d : ExtData R) : b.has d = true ↔
    d.bEnable = true ∧ d.xIo.usDevType = b.usDevType ∧ d.xIo.usDevNum = b.usDevNum ∧
      d.xIo.param.modbus.btSlaveAddr = b.btSlaveAddr ∧
        b.usAddress.toNat ≤ d.xIo.param.modbus.usExtAddr.toNat ∧
          d.xIo.nregs + d.xIo.param.modbus.usExtAddr.toNat ≤
            b.usAddress.toNat + b.usNRegs.toNat := by
  unfold Block.has
  simp only [Bool.and_eq_true, decide_eq_true_eq, and_assoc]

theorem pollPort_ready {ready : Bool} {dev_type dev_num _p : UInt8}
    (h : pollPort ready dev_type dev_num = some _p) :
    pollPort true dev_type dev_num = some _p := by
  cases ready with
  | true => exact h
  | false =>
    unfold pollPort at h ⊢
    by_cases hrs : dev_type.toNat ≤ protoDevRsMax
    · simp only [if_pos hrs] at h ⊢
      exact h
    · simp only [if_neg hrs, Bool.not_false, if_true] at h
      rw [if_neg (by decide)] at h
      exact nomatch h

omit [VarReal R] in
/-- The variables that a reply is for. -/
theorem blockFits_port {vars : List (ExtData R)} (hfit : PollFits vars) {ready : Bool}
    {dev_type dev_num _p : UInt8} (hport : pollPort ready dev_type dev_num = some _p)
    {usDevType usDevNum : UInt16} (hdev : portDevice _p = some (usDevType, usDevNum))
    (btSlaveAddr : UInt8) (usAddress usNRegs : UInt16) :
    BlockFits ⟨usDevType, usDevNum, btSlaveAddr, usAddress, usNRegs⟩ vars := by
  intro d hd hhas
  obtain ⟨hen, htype, hnum, -⟩ := (has_iff _ d).mp hhas
  refine hfit.modbus d hd hen ⟨dev_type, dev_num, _p, pollPort_ready hport, Or.inl ?_⟩
  rw [htype, hnum]
  exact hdev

omit [VarReal R] in
theorem failure_usesArray {vars : List (ExtData R)} (hfit : PollFits vars) {s : Polled R}
    (hkey : s.vars.map ExtData.key = vars.map ExtData.key) (node : SyncModbus) {ready : Bool}
    {_p : UInt8} (hport : pollPort ready node.dev_type node.dev_num = some _p) :
    UsesArray s (vVarManageModbusMasterTryClearExtDataWithErr node.block s) := by
  refine tryClear_usesArray fun d hd hhas hclear => ?_
  obtain ⟨d0, hd0, hk⟩ := exists_key hkey hd
  obtain ⟨hen, htype, hnum, -⟩ := (has_iff node.block d).mp hhas
  have hclear : d.xIo.btErrOp = eErrOpClear := by
    unfold clears at hclear
    rw [Bool.and_eq_true, decide_eq_true_eq] at hclear
    exact hclear.1
  have hmaster : MasterDevice d0 := by
    rw [masterDevice_congr hk]
    exact ⟨node.dev_type, node.dev_num, _p, pollPort_ready hport, Or.inr ⟨htype, hnum, hclear⟩⟩
  have hen0 : d0.bEnable = true := (congrArg Prod.fst hk).trans hen
  have hfit0 := hfit.modbus d0 hd0 hen0 hmaster
  rw [nregs_congr hk] at hfit0
  exact hfit0.congr hk

theorem modbusReply_usesArray {vars : List (ExtData R)} (hfit : PollFits vars) {s : Polled R}
    (hkey : s.vars.map ExtData.key = vars.map ExtData.key) (node : SyncModbus) {ready : Bool}
    {_p : UInt8} (hport : pollPort ready node.dev_type node.dev_num = some _p)
    (reply : Option (Nat → UInt8)) : UsesArray s (modbusReply env s node _p reply) := by
  cases reply with
  | some buf =>
    unfold modbusReply bVarManageRefreshExtDataWithModbusMaster
    cases hdev : portDevice _p with
    | some device =>
      exact responseBlock_usesArray env _ buf ((blockFits_port hfit hport hdev _ _ _).congr hkey)
    | none => exact failure_usesArray hfit hkey node hport
  | none => exact failure_usesArray hfit hkey node hport

theorem rtuSelf_usesArray {vars : List (ExtData R)} (hfit : PollFits vars) (s : Polled R)
    {addr : UInt16} (reg0 reg1 : UInt16) (hplan : Planned vars (.rtuSelf addr reg0 reg1)) :
    UsesArray s (refreshRtuSelf env s addr reg0 reg1) := by
  obtain ⟨data, hdata, hen, hself, rfl⟩ := hplan
  have hfits := hfit.rtuSelf data hdata hen hself
  refine usesArray_refresh env _ _ _ (usesArray_store fun i hi => ?_)
  refine hfits.inArray (f := fun _ => ()) ((mem_block_iff _ _ _ _).mpr ?_)
  have hcases : i = regIndex data.xIo.usAddr + 1 ∨ i = regIndex data.xIo.usAddr := by
    simpa using hi
  omega

theorem dlt645_usesArray {vars : List (ExtData R)} (hfit : PollFits vars) {s : Polled R}
    (hkey : s.vars.map ExtData.key = vars.map ExtData.key) {dlt645_addr : Dlt645Addr}
    {addr : UInt16} {op : UInt32} {reply : Option (Nat → UInt8)}
    (hplan : Planned vars (.dlt645 dlt645_addr addr op reply)) :
    UsesArray s (pollStep env s (.dlt645 dlt645_addr addr op reply)) := by
  obtain ⟨data, hdata, hproto, hhas⟩ := hplan
  have haddr : data.xIo.usAddr = addr := by
    unfold dlt645Has at hhas
    simp only [Bool.and_eq_true, decide_eq_true_eq] at hhas
    exact hhas.1.2
  -- the variable that the reply or the failure is for lies in the map
  have hfirst : ∀ first, s.vars.find? (dlt645Has dlt645_addr addr op) = some first →
      Fits first (dlt645Regs first) ∧ first.xIo.usAddr = addr := by
    intro first hfind
    have hfindKey := find_dlt645_key hkey dlt645_addr addr op
    rw [hfind, Option.map_some] at hfindKey
    obtain ⟨first0, hfind0, hk⟩ := Option.map_eq_some_iff.mp hfindKey.symm
    rw [← haddr] at hhas hfind0
    have hfit0 := hfit.dlt645 data hdata hproto dlt645_addr op hhas first0 hfind0
    have hhas0 := List.find?_some hfind
    unfold dlt645Has at hhas0
    simp only [Bool.and_eq_true, decide_eq_true_eq] at hhas0
    rw [dlt645Regs_congr hk] at hfit0
    exact ⟨hfit0.congr hk, hhas0.1.2⟩
  cases reply with
  | some f_buf =>
    show UsesArray s (bVarManageRefreshExtDataWithDlt645 env s dlt645_addr addr op f_buf)
    unfold bVarManageRefreshExtDataWithDlt645 getExtDataIoInfoWithDlt645Addr
    cases hfind : s.vars.find? (dlt645Has dlt645_addr addr op) with
    | none => exact fun i hi => Or.inl hi
    | some first =>
      obtain ⟨hfits, hfirstAddr⟩ := hfirst first hfind
      have hle : (if first.xIo.nregs > 4 then 4 else first.xIo.nregs) ≤ dlt645Regs first := by
        unfold dlt645Regs
        split_ifs <;> omega
      dsimp only
      by_cases hpos : first.xIo.nregs > 0
      · rw [if_pos hpos]
        refine usesArray_refresh env _ _ _ (usesArray_store fun i hi => ?_)
        rw [← hfirstAddr] at hi
        exact (hfits.mono hle).inArray hi
      · rw [if_neg hpos]
        exact fun i hi => Or.inl hi
  | none =>
    unfold pollStep vVarManageDlt645TryClearExtDataWithErr
    dsimp only
    split
    · next i hidx =>
      split
      · next node hnode =>
        have hfind : s.vars.find? (dlt645Has dlt645_addr addr op) = some node := by
          rw [List.find?_eq_bind_findIdx?_getElem?, hidx]
          exact hnode
        obtain ⟨hfits, -⟩ := hfirst node hfind
        refine usesArray_store (s := s) fun k hk => ?_
        obtain ⟨w, hw, rfl⟩ := List.mem_map.mp hk
        unfold failRegs at hw
        split at hw
        · next hclear =>
          unfold clears at hclear
          rw [Bool.and_eq_true, decide_eq_true_eq] at hclear
          unfold dlt645Regs at hfits
          rw [if_pos hclear.1] at hfits
          exact hfits.inArray (List.mem_map_of_mem hw)
        · exact absurd hw List.not_mem_nil
      · exact fun i hi => Or.inl hi
    · exact fun i hi => Or.inl hi

theorem pollStep_usesArray {vars : List (ExtData R)} (hfit : PollFits vars) {s : Polled R}
    (hkey : s.vars.map ExtData.key = vars.map ExtData.key) {p : Poll} (hplan : Planned vars p) :
    UsesArray s (pollStep env s p) := by
  cases p with
  | modbus node ready reply =>
    unfold pollStep
    dsimp only
    split
    · next hport =>
      split
      · exact modbusReply_usesArray env hfit hkey node hport reply
      · exact fun i hi => Or.inl hi
    · exact fun i hi => Or.inl hi
  | rtuSelf addr reg0 reg1 => exact rtuSelf_usesArray env hfit s reg0 reg1 hplan
  | dlt645 dlt645_addr addr op reply => exact dlt645_usesArray env hfit hkey hplan
  | written dev_type dev_num ready btSlaveAddr usAddress usNRegs =>
    unfold pollStep bVarManageReadExtDataWithModbusMaster
    dsimp only
    split
    · next hport =>
      split
      · next hdev =>
        exact readRegs_usesArray ((blockFits_port hfit hport hdev _ _ _).congr hkey)
      · exact fun i hi => Or.inl hi
    · exact fun i hi => Or.inl hi

/-- In every run of polls of a configuration whose variables lie in the map as far as a poll
    reaches them, all indices are those of the array. -/
theorem used_inArray {vars : List (ExtData R)} (hfit : PollFits vars) (regs : Regs)
    {polls : List Poll} (hplan : ∀ p ∈ polls, Planned vars p) :
    ∀ i ∈ (pollRun env ⟨vars, regs, []⟩ polls).used, InArray i := by
  have hrun : ∀ s : Polled R, s.vars.map ExtData.key = vars.map ExtData.key →
      UsesArray s (pollRun env s polls) := by
    unfold pollRun
    induction polls with
    | nil => exact fun s _ i hi => Or.inl hi
    | cons p polls ih =>
      intro s hkey
      have hstep := pollStep_usesArray env hfit hkey (hplan p List.mem_cons_self)
      rw [List.foldl_cons]
      exact hstep.trans (ih (fun q hq => hplan q (List.mem_cons_of_mem p hq)) _
        ((pollStep_key env s p).trans hkey))
  intro i hi
  rcases hrun ⟨vars, regs, []⟩ rfl i hi with hnone | hin
  · exact absurd hnone List.not_mem_nil
  · exact hin

end Uses

/-! ## One variable of a slave -/

open CString Cjson

/-- No expressions, and zero in the local variable. -/
def plainEnv : PollEnv Int where
  evaluate _ _ _ := none
  stack _ _ _ := 0

/-- The document of a variable with one register, the holding register 0 of slave 1 on the
    first serial line. -/
def slaveDoc (usAddr : Int) : Item Int :=
  .object [(keyEn, number 1), (keyIo, .object [(keyVs, number 2), (keySa, number 1),
    (keyAd, number usAddr)])]

/-- The poll of this register, and its reply. -/
def slavePoll : Poll :=
  .modbus ⟨0, 0, 3, 1, 0, 1⟩ true (some fun _ => 0)

theorem used_inArray_slave :
    (pollRun plainEnv ⟨[jsonParseExtDataInfo (slaveDoc 1024) zeroed], fun _ => 0, []⟩
      [slavePoll]).used = [0] ∧ InArray 0 := by
  have hused : (pollRun plainEnv ⟨[jsonParseExtDataInfo (slaveDoc 1024) zeroed], fun _ => 0, []⟩
      [slavePoll]).used = [0] := by
    decide +kernel
  refine ⟨hused, used_inArray plainEnv ⟨?_, ?_, ?_⟩ (fun _ => 0) (fun p hp => ?_) 0
    (by rw [hused]; exact List.mem_singleton_self 0)⟩
  · intro data hdata _ hself
    rw [List.mem_singleton.mp hdata] at hself
    exact absurd hself (by decide)
  · intro data hdata _ _ _
    rw [List.mem_singleton.mp hdata]
    exact ⟨by decide, by decide⟩
  · intro data hdata hproto
    rw [List.mem_singleton.mp hdata] at hproto
    exact absurd hproto (by decide)
  · rw [List.mem_singleton.mp hp]
    trivial

/-- A variable at the address 0 is written in front of the array. -/
theorem used_inArray_address_zero :
    ¬ ∀ (env : PollEnv Int) (docs : List (Item Int)) (regs : Regs) (polls : List Poll),
      (∀ p ∈ polls, Planned (docs.map fun doc => jsonParseExtDataInfo doc zeroed) p) →
        ∀ i ∈ (pollRun env ⟨docs.map fun doc => jsonParseExtDataInfo doc zeroed, regs, []⟩
          polls).used, InArray i := by
  intro h
  have hplan : ∀ p ∈ [slavePoll],
      Planned ([slaveDoc 0].map fun doc => jsonParseExtDataInfo doc zeroed) p := by
    intro p hp
    rw [List.mem_singleton.mp hp]
    trivial
  have hused : (pollRun plainEnv ⟨[slaveDoc 0].map fun doc => jsonParseExtDataInfo doc zeroed,
      fun _ => 0, []⟩ [slavePoll]).used = [-1024] := by decide +kernel
  have hin := h plainEnv [slaveDoc 0] (fun _ => 0) [slavePoll] hplan (-1024)
    (by rw [hused]; exact List.mem_singleton_self _)
  exact absurd hin.1 (by decide)

end K64Gateway.VarManage
