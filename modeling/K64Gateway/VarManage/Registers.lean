import Mathlib
import K64Gateway.Lib.Stores
import K64Gateway.Lib.Updates
import K64Gateway.VarManage.Types

/-
  The register array `g_xExtDataRegs` and the functions of `varmanage.c` that the polling fills
  it with: replies and failures of the Modbus master, the gateway's own analog inputs and
  DLT645 meters.

  The nodes of a list keep their order while they are polled, so the list is a list of
  variables here. The array is a memory that goes on before and behind its registers; a state
  keeps the indices that were used on it.
-/

namespace K64Gateway.VarManage

open Stores

variable {R : Type}

/-! ## Registers and values -/

/-- `g_xExtDataRegs`: index 0 is its first register. -/
abbrev Regs := Int → UInt16

/-- `usAddr-USER_REG_EXT_DATA_START` -/
def regIndex (usAddr : UInt16) : Int := (usAddr.toNat : Int) - userRegExtDataStart

/-- `(VarValue_v *)&g_xExtDataRegs[i]` -/
def valueAt (regs : Regs) (i : Int) : VarValue := fun k =>
  let reg := regs (i + (k.val / 2 : Nat))
  if k.val % 2 = 0 then reg.toUInt8 else (reg >>> 8).toUInt8

/-- `val_reg[k]` -/
def VarValue.reg (v : VarValue) : Nat → UInt16
  | 0 => (v 0).toUInt16 ||| ((v 1).toUInt16 <<< 8)
  | 1 => (v 2).toUInt16 ||| ((v 3).toUInt16 <<< 8)
  | 2 => (v 4).toUInt16 ||| ((v 5).toUInt16 <<< 8)
  | _ => (v 6).toUInt16 ||| ((v 7).toUInt16 <<< 8)

/-- The bytes in `val_ary` are swapped as the rule of a 32-bit type says. -/
def swapRule4 (btRule : UInt8) (i : Fin 8) : Fin 8 :=
  if btRule = 0 then ![3, 2, 1, 0, 4, 5, 6, 7] i
  else if btRule = 1 then ![1, 0, 3, 2, 4, 5, 6, 7] i
  else if btRule = 2 then ![2, 3, 0, 1, 4, 5, 6, 7] i
  else i

/-- The same for `E_VAR_DOUBLE`. -/
def swapRule8 (btRule : UInt8) (i : Fin 8) : Fin 8 :=
  if btRule = 0 then ![7, 6, 5, 4, 3, 2, 1, 0] i
  else if btRule = 1 then ![1, 0, 3, 2, 5, 4, 7, 6] i
  else if btRule = 2 then ![6, 7, 4, 5, 2, 3, 0, 1] i
  else i

/-- The bytes that `vBigEdianExtData` writes. -/
def edianSize (btType : UInt8) : Nat :=
  if btType = eVarInt16 ∨ btType = eVarUint16 then 2
  else if btType = eVarInt32 ∨ btType = eVarUint32 ∨ btType = eVarFloat then 4
  else 8

/-- `vBigEdianExtData` from `src` to another place; the bytes behind the value keep what is in
    `out`. -/
def vBigEdianExtData (btType btRule : UInt8) (src out : VarValue) : VarValue := fun i =>
  if i.val < edianSize btType then
    if btType = eVarInt16 ∨ btType = eVarUint16 then src (![1, 0, 2, 3, 4, 5, 6, 7] i)
    else if btType = eVarInt32 ∨ btType = eVarUint32 ∨ btType = eVarFloat then
      src (swapRule4 btRule i)
    else if btType = eVarDouble then src (swapRule8 btRule i)
    else src i
  else out i

/-- `vLittleEdianExtData` -/
def vLittleEdianExtData : UInt8 → UInt8 → VarValue → VarValue → VarValue := vBigEdianExtData

section Values

variable [VarReal R]

/-- `__GetExtValue` -/
def getExtValue (type : UInt8) (v : VarValue) : Option R :=
  if type = eVarBit then some (VarReal.ofInt (v 0).toNat)
  else if type = eVarInt8 then some (VarReal.ofInt (v 0).toInt8.toInt)
  else if type = eVarUint8 then some (VarReal.ofInt (v 0).toNat)
  else if type = eVarInt16 then some (VarReal.ofInt v.u16.toInt16.toInt)
  else if type = eVarUint16 then some (VarReal.ofInt v.u16.toNat)
  else if type = eVarInt32 then some (VarReal.ofInt v.u32.toInt32.toInt)
  else if type = eVarUint32 then some (VarReal.ofInt v.u32.toNat)
  else if type = eVarFloat then some (VarReal.ofFloatBits v.u32)
  else if type = eVarDouble then some (VarReal.ofDoubleBits v.u64)
  else none

/-- `bVarManage_CheckExtValue` -/
def bVarManageCheckExtValue (data : ExtData R) (v : VarValue) : Bool :=
  match getExtValue data.xIo.btVarType v with
  | some value =>
      !(data.xIo.bUseMax && VarReal.gt value data.xIo.fMax) &&
        !(data.xIo.bUseMin && VarReal.gt data.xIo.fMin value)
  | none => true

/-- A sample is added to an accumulator of the storage. -/
def VarAvg.update (avg : VarAvg R) (value : R) : VarAvg R :=
  { avg with
    val_cur := value
    val_avg := VarReal.add avg.val_avg value
    count := avg.count + 1 }

/-- `__update_value` -/
def updateValue (data : ExtData R) : ExtData R :=
  match getExtValue data.xIo.btVarType data.xIo.xValue with
  | some value =>
      { data with
        xStorage := { data.xStorage with
          xAvgReal := data.xStorage.xAvgReal.update value
          xAvgMin := data.xStorage.xAvgMin.update value
          xAvgHour := data.xStorage.xAvgHour.update value } }
  | none => data

/-- The first `n` bytes of the union are those of `bits`. -/
def VarValue.put (v : VarValue) (n : Nat) (bits : UInt64) : VarValue := fun i =>
  if i.val < n then (bits >>> UInt64.ofNat (8 * i.val)).toUInt8 else v i

/-- The value of an expression is stored with the type of the variable. -/
def expValue (type : UInt8) (exp_val : R) (v : VarValue) : Option VarValue :=
  if type = eVarBit then some (v.put 1 (if VarReal.ne exp_val (VarReal.ofInt 0) then 1 else 0))
  else if type = eVarInt8 then some (v.put 1 (VarReal.toInt8 exp_val).toUInt64)
  else if type = eVarUint8 then some (v.put 1 (VarReal.toUint8 exp_val).toUInt64)
  else if type = eVarInt16 then some (v.put 2 (VarReal.toInt16 exp_val).toUInt64)
  else if type = eVarUint16 then some (v.put 2 (VarReal.toUint16 exp_val).toUInt64)
  else if type = eVarInt32 then some (v.put 4 (VarReal.toInt32 exp_val).toUInt64)
  else if type = eVarUint32 then some (v.put 4 (VarReal.toUint32 exp_val).toUInt64)
  else if type = eVarFloat then some (v.put 4 (VarReal.toFloatBits exp_val).toUInt64)
  else if type = eVarDouble then some (v.put 8 (VarReal.toDoubleBits exp_val))
  else none

end Values

/-! ## The state of the polling -/

structure Polled (R : Type) where
  vars : List (ExtData R)
  regs : Regs
  /-- the indices that were used on `g_xExtDataRegs`, but for those of
      `__RefreshExtDataWithRegs` -/
  used : List Int

/-- What the polling takes from elsewhere. -/
structure PollEnv (R : Type) where
  /-- `evaluate` of an expression for the variable of a name; none is an error -/
  evaluate : List (ExtData R) → CStr → CStr → Option R
  /-- what is in the local `xValue` before it is written -/
  stack : Polled R → UInt16 → VarValue

def Polled.store (s : Polled R) (ws : List (Int × UInt16)) : Polled R :=
  { s with
    regs := stores s.regs ws
    used := s.used ++ ws.map Prod.fst }

def Polled.read (s : Polled R) (indices : List Int) : Polled R :=
  { s with used := s.used ++ indices }

/-- The record at `i` is changed. -/
def Polled.setNode (s : Polled R) (i : Nat) (node : ExtData R) : Polled R :=
  { s with vars := s.vars.set i node }

def ExtData.setValue (data : ExtData R) (v : VarValue) : ExtData R :=
  { data with xIo := { data.xIo with xValue := v } }

def ExtData.setErrNum (data : ExtData R) (n : UInt8) : ExtData R :=
  { data with xIo := { data.xIo with btErrNum := n } }

/-- The stores of the loop of `__refresh_regs`. -/
def refreshRegs (regbuf : Nat → UInt8) (usAddr : UInt16) (nregs : Nat) : List (Int × UInt16) :=
  block (regIndex usAddr) nregs fun i =>
    (regbuf (2 * i)).toUInt16 ||| ((regbuf (2 * i + 1)).toUInt16 <<< 8)

/-- The stores of `__clear_regs`. -/
def clearRegs (usAddr : UInt16) (nregs : Nat) : List (Int × UInt16) :=
  block (regIndex usAddr) nregs fun _ => 0

/-- The indices that `__read_regs` reads. -/
def readRegs (usAddr : UInt16) (nregs : Nat) : List Int :=
  (block (regIndex usAddr) nregs fun _ => ()).map Prod.fst

/-! ## A variable takes its value from its registers -/

section Refresh

variable [VarReal R] (env : PollEnv R)

/-- `node->bEnable && usAddress >= node->xIo.usAddr &&
    usAddress < (node->xIo.btVarSize+1)/2 + node->xIo.usAddr` -/
def coversAddr (usAddress : UInt16) (node : ExtData R) : Bool :=
  node.bEnable && decide (node.xIo.usAddr.toNat ≤ usAddress.toNat) &&
    decide (usAddress.toNat < node.xIo.nregs + node.xIo.usAddr.toNat)

/-- `__doexp_value`: the new value, if there is one. -/
def doexpValue (vars : List (ExtData R)) (data : ExtData R) : Option VarValue :=
  match data.xIo.szExp, getExtValue data.xIo.btVarType data.xIo.xValue with
  | some szExp, some value =>
      match env.evaluate vars szExp data.nameStr with
      | some exp_val =>
          if VarReal.ne exp_val value then expValue data.xIo.btVarType exp_val data.xIo.xValue
          else none
      | none => none
  | _, _ => none

/-- The variable at `i` takes the value `xValue`: its expression, and its sample. -/
def takeValue (s : Polled R) (i : Nat) (usAddress : UInt16) (node : ExtData R)
    (xValue : VarValue) : Polled R :=
  let node := node.setValue xValue
  match doexpValue env (s.vars.set i node) node with
  | some v =>
      let index := regIndex usAddress
      let out := vBigEdianExtData node.xIo.btVarType node.xIo.btVarRuleType v (valueAt s.regs index)
      { s with
        vars := s.vars.set i ((updateValue (node.setValue v)).setErrNum 0)
        regs := stores s.regs (block index 4 out.reg) }
  | none => s.setNode i ((updateValue node).setErrNum 0)

/-- The part of `__RefreshExtDataWithRegs` for the node that was found. -/
def refreshNode (s : Polled R) (i : Nat) (usAddress : UInt16) (node : ExtData R) : Polled R :=
  let xValue := vLittleEdianExtData node.xIo.btVarType node.xIo.btVarRuleType
    (valueAt s.regs (regIndex usAddress)) (env.stack s usAddress)
  if bVarManageCheckExtValue node xValue then takeValue env s i usAddress node xValue
  else s.setNode i (node.setErrNum 0)

/-- `__RefreshExtDataWithRegs`: the first node that has the register. -/
def refreshExtDataWithRegs (s : Polled R) (usAddress : UInt16) : Polled R :=
  match s.vars.findIdx? (coversAddr usAddress) with
  | some i =>
      match s.vars[i]? with
      | some node => refreshNode env s i usAddress node
      | none => s
  | none => s

/-! ## Modbus -/

/-- `nUartGetIndex`, converted to 16 bits. -/
def nUartGetIndex (instance_ : UInt8) : UInt16 :=
  if instance_ = 1 then 0 else if instance_ = 4 then 1 else if instance_ = 5 then 2
  else if instance_ = 0 then 3 else 65535

/-- `usDevType` and `usDevNum` of a port of the Modbus master. -/
def portDevice (port : UInt8) : Option (UInt16 × UInt16) :=
  if port.toNat = boardZigbeeUart then some (UInt16.ofNat protoDevZigbee, 0)
  else if port.toNat < mbTcpIdOfs then some (nUartGetIndex port, 0)
  else if port.toNat < mbTcpIdOfs + boardEnetTcpipNum then
    some (UInt16.ofNat protoDevNet, port.toUInt16 - UInt16.ofNat mbTcpIdOfs)
  else if port.toNat < mbTcpIdOfs + boardTcpipMax then
    some (UInt16.ofNat protoDevGprs, port.toUInt16 - UInt16.ofNat (mbTcpIdOfs + boardEnetTcpipNum))
  else none

/-- A block of registers of a slave. -/
structure Block where
  usDevType : UInt16
  usDevNum : UInt16
  btSlaveAddr : UInt8
  usAddress : UInt16
  usNRegs : UInt16

/-- The test of the three loops over the list: the function code is not in it. -/
def Block.has (b : Block) (node : ExtData R) : Bool :=
  node.bEnable && decide (node.xIo.usDevType = b.usDevType) &&
    decide (node.xIo.usDevNum = b.usDevNum) &&
      decide (node.xIo.param.modbus.btSlaveAddr = b.btSlaveAddr) &&
        decide (b.usAddress.toNat ≤ node.xIo.param.modbus.usExtAddr.toNat) &&
          decide (node.xIo.nregs + node.xIo.param.modbus.usExtAddr.toNat ≤
            b.usAddress.toNat + b.usNRegs.toNat)

/-- One pass of the loop of `bVarManage_RefreshExtDataWithModbusMaster`. -/
def responseNode (b : Block) (pucRegBuffer : Nat → UInt8) (s : Polled R) (i : Nat) : Polled R :=
  match s.vars[i]? with
  | some node =>
      if b.has node then
        let ofs := node.xIo.param.modbus.usExtAddr.toNat - b.usAddress.toNat
        refreshExtDataWithRegs env
          (s.store (refreshRegs (fun k => pucRegBuffer (2 * ofs + k)) node.xIo.usAddr
            node.xIo.nregs)) node.xIo.usAddr
      else s
  | none => s

def responseBlock (b : Block) (pucRegBuffer : Nat → UInt8) (s : Polled R) : Polled R :=
  (List.range s.vars.length).foldl (responseNode env b pucRegBuffer) s

/-- `bVarManage_RefreshExtDataWithModbusMaster` -/
def bVarManageRefreshExtDataWithModbusMaster (s : Polled R) (port btSlaveAddr : UInt8)
    (usAddress usNRegs : UInt16) (pucRegBuffer : Nat → UInt8) : Polled R × Bool :=
  match portDevice port with
  | some (usDevType, usDevNum) =>
      (responseBlock env ⟨usDevType, usDevNum, btSlaveAddr, usAddress, usNRegs⟩ pucRegBuffer s,
        true)
  | none => (s, false)

/-- `bVarManage_ReadExtDataWithModbusMaster`, but for the buffer it fills. -/
def bVarManageReadExtDataWithModbusMaster (s : Polled R) (port btSlaveAddr : UInt8)
    (usAddress usNRegs : UInt16) : Polled R × Bool :=
  match portDevice port with
  | some (usDevType, usDevNum) =>
      let b : Block := ⟨usDevType, usDevNum, btSlaveAddr, usAddress, usNRegs⟩
      (s.read ((s.vars.filter b.has).flatMap fun node =>
        readRegs node.xIo.usAddr node.xIo.nregs), true)
  | none => (s, false)

end Refresh

/-! ## Failed polls -/

def eErrOpClear : UInt8 := 1

/-- The variable is cleared by the failure that comes now. -/
def clears (node : ExtData R) : Bool :=
  decide (node.xIo.btErrOp = eErrOpClear) && decide (node.xIo.btErrCnt ≤ node.xIo.btErrNum)

/-- The record of a node after a failure. -/
def failNode (node : ExtData R) : ExtData R :=
  if node.xIo.btErrOp = eErrOpClear then
    if node.xIo.btErrCnt ≤ node.xIo.btErrNum then (node.setValue fun _ => 0).setErrNum 1
    else node.setErrNum (node.xIo.btErrNum + 1)
  else node

/-- What a failure stores in the registers of a node. -/
def failRegs (node : ExtData R) : List (Int × UInt16) :=
  if clears node then clearRegs node.xIo.usAddr node.xIo.nregs else []

/-- `vVarManage_ModbusMasterTryClearExtDataWithErr` -/
def vVarManageModbusMasterTryClearExtDataWithErr (b : Block) (s : Polled R) : Polled R :=
  { s.store ((s.vars.filter b.has).flatMap failRegs) with
    vars := s.vars.map fun node => if b.has node then failNode node else node }

/-! ## DLT645 and the analog inputs -/

/-- The test of the loops over the list for a DLT645 reply. -/
def dlt645Has (dlt645_addr : Dlt645Addr) (addr : UInt16) (op : UInt32) (node : ExtData R) :
    Bool :=
  node.bEnable && decide (node.xIo.param.dlt645.addr = dlt645_addr) &&
    decide (node.xIo.usAddr = addr) && decide (node.xIo.param.dlt645.op = op)

/-- `__GetExtDataIoInfoWithDlt645Addr` -/
def getExtDataIoInfoWithDlt645Addr (vars : List (ExtData R)) (dlt645_addr : Dlt645Addr)
    (addr : UInt16) (op : UInt32) : Nat :=
  match vars.find? (dlt645Has dlt645_addr addr op) with
  | some node => node.xIo.nregs
  | none => 0

/-- `bVarManage_RefreshExtDataWithDlt645`; `f_buf` is the value in the order of the type. -/
def bVarManageRefreshExtDataWithDlt645 [VarReal R] (env : PollEnv R) (s : Polled R)
    (dlt645_addr : Dlt645Addr) (addr : UInt16) (op : UInt32) (f_buf : Nat → UInt8) : Polled R :=
  let nregs := getExtDataIoInfoWithDlt645Addr s.vars dlt645_addr addr op
  if nregs > 0 then
    refreshExtDataWithRegs env (s.store (refreshRegs f_buf addr (if nregs > 4 then 4 else nregs)))
      addr
  else s

/-- `vVarManage_Dlt645TryClearExtDataWithErr` -/
def vVarManageDlt645TryClearExtDataWithErr (s : Polled R) (dlt645_addr : Dlt645Addr)
    (addr : UInt16) (op : UInt32) : Polled R :=
  match s.vars.findIdx? (dlt645Has dlt645_addr addr op) with
  | some i =>
      match s.vars[i]? with
      | some node => (s.store (failRegs node)).setNode i (failNode node)
      | none => s
  | none => s

def htons (n : UInt16) : UInt16 := (n <<< 8) ||| (n >>> 8)

/-- An analog input in `vVarManage_ExtDataRefreshTask`: its two registers change places. -/
def refreshRtuSelf [VarReal R] (env : PollEnv R) (s : Polled R) (addr reg0 reg1 : UInt16) :
    Polled R :=
  refreshExtDataWithRegs env
    (s.store [(regIndex addr + 1, htons reg0), (regIndex addr, htons reg1)]) addr

/-! ## What the polling never changes -/

/-- The settings of a variable that the polling reads. -/
def ExtData.key (data : ExtData R) : Bool × ExtDataIO R :=
  (data.bEnable, { data.xIo with
    xValue := fun _ => 0
    btErrNum := 0 })

theorem key_setValue (data : ExtData R) (v : VarValue) : (data.setValue v).key = data.key := rfl

theorem key_setErrNum (data : ExtData R) (n : UInt8) : (data.setErrNum n).key = data.key := rfl

theorem key_updateValue [VarReal R] (data : ExtData R) : (updateValue data).key = data.key := by
  unfold updateValue
  split <;> rfl

theorem key_failNode (data : ExtData R) : (failNode data).key = data.key := by
  unfold failNode
  split
  · split <;> rfl
  · rfl

theorem has_congr (b : Block) {d d' : ExtData R} (h : d.key = d'.key) : b.has d = b.has d' :=
  congrArg (fun k : Bool × ExtDataIO R =>
    k.1 && decide (k.2.usDevType = b.usDevType) && decide (k.2.usDevNum = b.usDevNum) &&
      decide (k.2.param.modbus.btSlaveAddr = b.btSlaveAddr) &&
        decide (b.usAddress.toNat ≤ k.2.param.modbus.usExtAddr.toNat) &&
          decide (k.2.nregs + k.2.param.modbus.usExtAddr.toNat ≤
            b.usAddress.toNat + b.usNRegs.toNat)) h

theorem coversAddr_congr (a : UInt16) {d d' : ExtData R} (h : d.key = d'.key) :
    coversAddr a d = coversAddr a d' :=
  congrArg (fun k : Bool × ExtDataIO R =>
    k.1 && decide (k.2.usAddr.toNat ≤ a.toNat) &&
      decide (a.toNat < k.2.nregs + k.2.usAddr.toNat)) h

theorem nregs_congr {d d' : ExtData R} (h : d.key = d'.key) : d.xIo.nregs = d'.xIo.nregs :=
  congrArg (fun k : Bool × ExtDataIO R => k.2.nregs) h

theorem usAddr_congr {d d' : ExtData R} (h : d.key = d'.key) : d.xIo.usAddr = d'.xIo.usAddr :=
  congrArg (fun k : Bool × ExtDataIO R => k.2.usAddr) h

/-- A node of the same settings takes the place of the one at `i`. -/
theorem map_key_set {vars : List (ExtData R)} {i : Nat} {node node' : ExtData R}
    (hi : vars[i]? = some node) (hkey : node'.key = node.key) :
    (vars.set i node').map ExtData.key = vars.map ExtData.key :=
  Updates.map_set_self hi hkey

/-! ## One refresh -/

section Refresh

variable [VarReal R] (env : PollEnv R)

/-- How many registers an expression of the variable writes. -/
def expRegs (node : ExtData R) : Nat :=
  if node.xIo.szExp.isSome then (edianSize node.xIo.btVarType + 1) / 2 else 0

/-- What happens to the record of a node that is refreshed. -/
structure Refreshed (s s' : Polled R) (i : Nat) (usAddress : UInt16) (node : ExtData R) :
    Prop where
  record : ∃ node', s'.vars = s.vars.set i node' ∧ node'.key = node.key ∧ node'.xIo.btErrNum = 0
  regs : ∀ k : Int, ¬ (regIndex usAddress ≤ k ∧ k < regIndex usAddress + expRegs node) →
    s'.regs k = s.regs k
  used : s'.used = s.used

theorem reg_valueAt (regs : Regs) (i : Int) {k : Nat} (hk : k < 4) :
    (valueAt regs i).reg k = regs (i + k) := by
  have hjoin : ∀ n : UInt16, n.toUInt8.toUInt16 ||| ((n >>> 8).toUInt8.toUInt16 <<< 8) = n := by
    intro n
    apply UInt16.toBitVec_inj.mp
    ext j hj
    simp only [UInt16.toBitVec_or, UInt8.toBitVec_toUInt16, UInt16.toBitVec_toUInt8,
      UInt16.toBitVec_shiftLeft, UInt16.toBitVec_shiftRight]
    interval_cases j <;> simp
  interval_cases k
  all_goals exact hjoin _

omit [VarReal R] in
theorem vBigEdianExtData_out {btType : UInt8} (btRule : UInt8) (src out : VarValue) {i : Fin 8}
    (hi : edianSize btType ≤ i.val) : vBigEdianExtData btType btRule src out i = out i := by
  unfold vBigEdianExtData
  rw [if_neg (Nat.not_lt.mpr hi)]

omit [VarReal R] in
/-- A register is two bytes. -/
theorem reg_congr {v w : VarValue} {k : Nat} (hk : k < 4)
    (h : ∀ i : Fin 8, 2 * k ≤ i.val → i.val ≤ 2 * k + 1 → v i = w i) : v.reg k = w.reg k := by
  match k, hk with
  | 0, _ => rw [VarValue.reg, VarValue.reg, h 0 (by decide) (by decide), h 1 (by decide) (by decide)]
  | 1, _ => rw [VarValue.reg, VarValue.reg, h 2 (by decide) (by decide), h 3 (by decide) (by decide)]
  | 2, _ => rw [VarValue.reg, VarValue.reg, h 4 (by decide) (by decide), h 5 (by decide) (by decide)]
  | 3, _ =>
    show (v 6).toUInt16 ||| ((v 7).toUInt16 <<< 8) = (w 6).toUInt16 ||| ((w 7).toUInt16 <<< 8)
    rw [h 6 (by decide) (by decide), h 7 (by decide) (by decide)]

omit [VarReal R] in
/-- The registers behind the bytes of the type stay. -/
theorem reg_vBigEdianExtData_out {btType : UInt8} (btRule : UInt8) (src out : VarValue) {k : Nat}
    (hk : k < 4) (hsize : edianSize btType ≤ 2 * k) :
    (vBigEdianExtData btType btRule src out).reg k = out.reg k :=
  reg_congr hk fun _ hle _ => vBigEdianExtData_out btRule src out (Nat.le_trans hsize hle)

omit [VarReal R] in
theorem edianSize_le (btType : UInt8) : edianSize btType ≤ 8 := by
  unfold edianSize
  split_ifs <;> decide

/-- What an expression leaves of the registers. -/
theorem takeValue_refreshed (s : Polled R) {i : Nat} (usAddress : UInt16) (node : ExtData R)
    (xValue : VarValue) :
    Refreshed s (takeValue env s i usAddress node xValue) i usAddress node := by
  unfold takeValue
  dsimp only
  split
  · next v hexp =>
    have hsome : node.xIo.szExp.isSome = true := by
      unfold doexpValue at hexp
      split at hexp
      · next szExp _ hsz _ =>
        have hszExp : node.xIo.szExp = some szExp := hsz
        rw [hszExp]
        rfl
      · exact nomatch hexp
    refine ⟨⟨_, rfl, ?_, rfl⟩, fun k hk => ?_, rfl⟩
    · rw [key_setErrNum, key_updateValue, key_setValue, key_setValue]
    · dsimp only
      by_cases hblock : regIndex usAddress ≤ k ∧ k < regIndex usAddress + 4
      · -- behind the bytes of the type the same is written back
        have hsize := edianSize_le node.xIo.btVarType
        rw [expRegs, if_pos hsome] at hk
        obtain ⟨j, rfl⟩ : ∃ j : Nat, k = regIndex usAddress + j :=
          ⟨(k - regIndex usAddress).toNat, by omega⟩
        rw [stores_block _ _ _ (by omega : j < 4)]
        exact (reg_vBigEdianExtData_out _ _ _ (by omega) (by
          show edianSize node.xIo.btVarType ≤ 2 * j
          omega)).trans (reg_valueAt s.regs _ (by omega))
      · refine stores_of_not_mem _ (fun hmem => hblock ?_)
        exact (mem_block_iff _ _ _ _).mp hmem
  · refine ⟨⟨_, rfl, ?_, rfl⟩, fun k _ => rfl, rfl⟩
    rw [key_setErrNum, key_updateValue, key_setValue]

theorem refreshNode_refreshed (s : Polled R) {i : Nat} (usAddress : UInt16) (node : ExtData R) :
    Refreshed s (refreshNode env s i usAddress node) i usAddress node := by
  unfold refreshNode
  dsimp only
  split
  · exact takeValue_refreshed env s usAddress node _
  · exact ⟨⟨_, rfl, key_setErrNum node 0, rfl⟩, fun k _ => rfl, rfl⟩

theorem refreshExtDataWithRegs_eq {s : Polled R} {usAddress : UInt16} {i : Nat}
    {node : ExtData R} (hfind : s.vars.findIdx? (coversAddr usAddress) = some i)
    (hi : s.vars[i]? = some node) :
    refreshExtDataWithRegs env s usAddress = refreshNode env s i usAddress node := by
  unfold refreshExtDataWithRegs
  rw [hfind]
  dsimp only
  rw [hi]

/-- Either no node has the register, or the first one that has it is refreshed. -/
theorem refreshExtDataWithRegs_cases (s : Polled R) (usAddress : UInt16) :
    refreshExtDataWithRegs env s usAddress = s ∨
      ∃ i node, s.vars.findIdx? (coversAddr usAddress) = some i ∧ s.vars[i]? = some node ∧
        Refreshed s (refreshExtDataWithRegs env s usAddress) i usAddress node := by
  cases hfind : s.vars.findIdx? (coversAddr usAddress) with
  | none =>
    left
    unfold refreshExtDataWithRegs
    rw [hfind]
  | some i =>
    right
    obtain ⟨hlt, -⟩ := List.findIdx?_eq_some_iff_getElem.mp hfind
    have hi : s.vars[i]? = some s.vars[i] := List.getElem?_eq_getElem hlt
    refine ⟨i, s.vars[i], rfl, hi, ?_⟩
    rw [refreshExtDataWithRegs_eq env hfind hi]
    exact refreshNode_refreshed env s usAddress _

theorem refreshExtDataWithRegs_used (s : Polled R) (usAddress : UInt16) :
    (refreshExtDataWithRegs env s usAddress).used = s.used := by
  rcases refreshExtDataWithRegs_cases env s usAddress with h | ⟨_, _, _, _, h⟩
  · rw [h]
  · exact h.used

theorem refreshExtDataWithRegs_key (s : Polled R) (usAddress : UInt16) :
    (refreshExtDataWithRegs env s usAddress).vars.map ExtData.key = s.vars.map ExtData.key := by
  rcases refreshExtDataWithRegs_cases env s usAddress with h | ⟨i, node, _, hi, h⟩
  · rw [h]
  · obtain ⟨node', hvars, hkey, -⟩ := h.record
    rw [hvars, map_key_set hi hkey]

end Refresh

end K64Gateway.VarManage
