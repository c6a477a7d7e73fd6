import K64Gateway.VarManage.Config
import K64Gateway.VarManage.Routing

/-
  The writes of a Modbus master to the mapped registers of the gateway:
  `eMBRegHoldingCB` stores them, and `bVarManage_RefreshExtDataWithModbusSlave` passes them on
  to the slaves whose variables have these registers.

  Proved: the configurations and writes for which each slave gets exactly what was written to its
  variables (`passed_on`).
-/

namespace K64Gateway.VarManage

open Stores

variable {R : Type}

/-! ## The ports of the Modbus master -/

/-- What the ports are like while a write is passed on. -/
structure MasterPorts where
  /-- `g_zigbee_init` -/
  zigbeeInit : Bool
  /-- `zgb_set_dst_node` for a node of the type `ZGB_SN_T_MODBUS_RTU` -/
  zgbSetDstNode : UInt8 → Bool
  /-- `tcp_fd` of the helpers in `s_net_list` -/
  tcpFd : Nat → Int
  /-- `xMasterRunRes[ucPort] != RT_NULL` -/
  runRes : UInt8 → Bool

/-- `xMBTCPIsPortConnected` -/
def xMBTCPIsPortConnected (ports : MasterPorts) (ucPort : UInt8) : Bool :=
  decide (mbTcpIdOfs ≤ ucPort.toNat) && decide (ucPort.toNat < mbTcpIdOfs + boardTcpipMax) &&
    decide (0 ≤ ports.tcpFd (ucPort.toNat - mbTcpIdOfs))

/-- `_p`, as its byte. -/
def slavePort (ports : MasterPorts) (usDevType usDevNum : UInt16) (btSlaveAddr : UInt8) : UInt8 :=
  if usDevType.toNat ≤ protoDevRsMax then nUartGetInstance usDevType.toUInt8
  else if usDevType.toNat = protoDevZigbee then
    if ports.zigbeeInit && ports.zgbSetDstNode btSlaveAddr then UInt8.ofNat boardZigbeeUart
    else 255
  else if usDevType.toNat = protoDevNet then
    let _p := usDevNum.toUInt8 + UInt8.ofNat mbTcpIdOfs
    if xMBTCPIsPortConnected ports _p then _p else 255
  else if usDevType.toNat = protoDevGprs then
    let _p := usDevNum.toUInt8 + UInt8.ofNat (mbTcpIdOfs + boardEnetTcpipNum)
    if xMBTCPIsPortConnected ports _p then _p else 255
  else 255

def mbMasterTotalSlaveNum : Nat := 255
def mbFuncWriteMultipleRegisters : UInt8 := 16

/-- A request to write registers: where it goes, the first register and the values. -/
structure WriteRequest where
  ucPort : UInt8
  ucSndAddr : UInt8
  usRegAddr : UInt16
  values : List UInt16
deriving DecidableEq

/-- The two bytes of a value, as they stand in the frame. -/
def valueBytes (value : UInt16) : List UInt8 := [value.toUInt8, (value >>> 8).toUInt8]

/-- `ucMBFrame` of a request. -/
def WriteRequest.ucMBFrame (r : WriteRequest) : List UInt8 :=
  let usNRegs := UInt16.ofNat r.values.length
  [mbFuncWriteMultipleRegisters, (r.usRegAddr >>> 8).toUInt8, r.usRegAddr.toUInt8,
    (usNRegs >>> 8).toUInt8, usNRegs.toUInt8, (usNRegs * 2).toUInt8] ++
      r.values.flatMap valueBytes

/-- `eMBMasterReqWriteMultipleHoldingRegister`, with the registers that it reads from
    `pusDataBuffer`; it waits for `xMasterRunRes` as long as it takes. -/
def eMBMasterReqWriteMultipleHoldingRegister (ports : MasterPorts) (ucPort ucSndAddr : UInt8)
    (usRegAddr usNRegs : UInt16) (pusDataBuffer : Nat → UInt16) : Option WriteRequest :=
  if mbMasterTotalSlaveNum < ucSndAddr.toNat then none
  else if !ports.runRes ucPort then none
  else some ⟨ucPort, ucSndAddr, usRegAddr, (List.range usNRegs.toNat).map pusDataBuffer⟩

/-! ## The walk over the written registers -/

/-- What `__GetExtDataIoInfoWithAddr` returns. -/
structure IoInfo where
  usDevType : UInt16
  usDevNum : UInt16
  btSlaveAddr : UInt8
  usExtAddr : UInt16
  btOpCode : UInt8
  nregs : Nat

/-- The part of `__GetExtDataIoInfoWithAddr` for the node that was found. -/
def ioInfo (usAddress : UInt16) (node : ExtData R) : IoInfo where
  usDevType := node.xIo.usDevType
  usDevNum := node.xIo.usDevNum
  btSlaveAddr := node.xIo.param.modbus.btSlaveAddr
  usExtAddr := node.xIo.param.modbus.usExtAddr + (usAddress - node.xIo.usAddr)
  btOpCode := node.xIo.param.modbus.btOpCode
  nregs := node.xIo.nregs - (usAddress.toNat - node.xIo.usAddr.toNat)

/-- `__GetExtDataIoInfoWithAddr`, with the place of the node in the list. -/
def getExtDataIoInfoWithAddr (vars : List (ExtData R)) (usAddress : UInt16) :
    Option (Nat × IoInfo) :=
  match vars.findIdx? (coversAddr usAddress) with
  | some i => vars[i]?.map fun node => (i, ioInfo usAddress node)
  | none => none

/-- The request of one pass of the loop, with the registers from `usAddress` on. -/
def walkRequest (ports : MasterPorts) (regs : Regs) (usAddress usNRegs : UInt16)
    (info : IoInfo) : Option WriteRequest :=
  let _p := slavePort ports info.usDevType info.usDevNum info.btSlaveAddr
  if 0 ≤ _p.toInt8 then
    if info.btOpCode = mbFuncReadHoldingRegister then
      eMBMasterReqWriteMultipleHoldingRegister ports _p info.btSlaveAddr info.usExtAddr usNRegs
        fun k => regs (regIndex usAddress + k)
    else none
  else none

/-- The loop of `bVarManage_RefreshExtDataWithModbusSlave`. -/
structure SlaveWalk (R : Type) where
  s : Polled R
  usAddress : UInt16
  usNRegs : UInt16
  /-- the requests, each with the place of the variable it was made for -/
  sent : List (Nat × WriteRequest)
  ret : Bool

section Walk

variable [VarReal R] (env : PollEnv R) (ports : MasterPorts)

/-- One pass of the loop. -/
def slaveWalkStep (w : SlaveWalk R) : SlaveWalk R :=
  match getExtDataIoInfoWithAddr w.s.vars w.usAddress with
  | some (i, info) =>
      if 0 < info.nregs then
        { s := refreshExtDataWithRegs env w.s w.usAddress
          usAddress := w.usAddress + UInt16.ofNat info.nregs
          usNRegs := if info.nregs < w.usNRegs.toNat then w.usNRegs - UInt16.ofNat info.nregs
            else 0
          sent := w.sent ++
            ((walkRequest ports w.s.regs w.usAddress w.usNRegs info).map fun r => (i, r)).toList
          ret := true }
      else { w with usAddress := w.usAddress + 1, usNRegs := w.usNRegs - 1 }
  | none => { w with usAddress := w.usAddress + 1, usNRegs := w.usNRegs - 1 }

def slaveWalk : Nat → SlaveWalk R → SlaveWalk R
  | 0, w => w
  | fuel + 1, w => if w.usNRegs = 0 then w else slaveWalk fuel (slaveWalkStep env ports w)

/-- `bVarManage_RefreshExtDataWithModbusSlave`; each pass takes a register at least. -/
def bVarManageRefreshExtDataWithModbusSlave (s : Polled R) (usAddress usNRegs : UInt16) :
    SlaveWalk R :=
  slaveWalk env ports usNRegs.toNat ⟨s, usAddress, usNRegs, [], false⟩

/-- `MB_IN_USER_REG(EXT_DATA, usAddress, usNRegs)` -/
def inExtData (usAddress usNRegs : UInt16) : Bool :=
  extDataRegCheck usAddress.toNat &&
    decide (usAddress.toNat + usNRegs.toNat ≤ userRegExtDataStart + userRegExtDataSize)

/-- The write of `eMBRegHoldingCB` to the mapped registers; none is `MB_ENOREG`. -/
def eMBRegHoldingCB (flags : Nat → Bool) (s : Polled R) (pucRegBuffer : Nat → UInt8)
    (usAddress usNRegs : UInt16) : Option (SlaveWalk R) :=
  let usAddress := usAddress - 1
  if inExtData usAddress usNRegs && checkContAddr flags usNRegs.toNat usAddress then
    some (bVarManageRefreshExtDataWithModbusSlave env ports
      (s.store (refreshRegs pucRegBuffer usAddress usNRegs.toNat)) usAddress usNRegs)
  else none

end Walk

/-! ## A write and its frame -/

/-- A value is in its two bytes. -/
theorem valueBytes_inj {a b : UInt16} (h : valueBytes a = valueBytes b) : a = b := by
  unfold valueBytes at h
  rw [List.cons.injEq, List.cons.injEq] at h
  have hlow := congrArg UInt8.toNat h.1
  have hhigh := congrArg UInt8.toNat h.2.1
  rw [UInt16.toNat_toUInt8, UInt16.toNat_toUInt8] at hlow hhigh
  have hshift : ∀ n : UInt16, (n >>> 8).toNat = n.toNat / 256 := fun n => by
    rw [UInt16.toNat_shiftRight, UInt16.toNat_ofNat, Nat.shiftRight_eq_div_pow]
  rw [hshift, hshift] at hhigh
  have hlta := a.toNat_lt
  have hltb := b.toNat_lt
  exact UInt16.toNat_inj.mp (by omega)

theorem flatMap_valueBytes_inj {l l' : List UInt16}
    (h : l.flatMap valueBytes = l'.flatMap valueBytes) : l = l' := by
  induction l generalizing l' with
  | nil =>
    cases l' with
    | nil => rfl
    | cons b l' => exact nomatch h
  | cons a l ih =>
    cases l' with
    | nil => exact nomatch h
    | cons b l' =>
      rw [List.flatMap_cons, List.flatMap_cons] at h
      obtain ⟨hhead, htail⟩ := List.append_inj h rfl
      rw [valueBytes_inj hhead, ih htail]

/-- The frame tells which registers are written and with what. -/
theorem ucMBFrame_inj {r r' : WriteRequest} (h : r.ucMBFrame = r'.ucMBFrame) :
    r.usRegAddr = r'.usRegAddr ∧ r.values = r'.values := by
  unfold WriteRequest.ucMBFrame at h
  obtain ⟨hhead, htail⟩ := List.append_inj h rfl
  have haddr : valueBytes r.usRegAddr = valueBytes r'.usRegAddr := by
    rw [List.cons.injEq, List.cons.injEq, List.cons.injEq] at hhead
    unfold valueBytes
    rw [hhead.2.1, hhead.2.2.1]
  exact ⟨valueBytes_inj haddr, flatMap_valueBytes_inj htail⟩

section Walk

variable [VarReal R] (env : PollEnv R) (ports : MasterPorts)

/-- The registers of a write have its values when it is passed on. -/
theorem eMBRegHoldingCB_some {flags : Nat → Bool} {s : Polled R} {pucRegBuffer : Nat → UInt8}
    {usAddress usNRegs : UInt16} {w : SlaveWalk R}
    (h : eMBRegHoldingCB env ports flags s pucRegBuffer usAddress usNRegs = some w) :
    inExtData (usAddress - 1) usNRegs = true ∧ ∃ s', s'.vars = s.vars ∧
      (∀ k < usNRegs.toNat, s'.regs (regIndex (usAddress - 1) + k) =
        (pucRegBuffer (2 * k)).toUInt16 ||| ((pucRegBuffer (2 * k + 1)).toUInt16 <<< 8)) ∧
          w = bVarManageRefreshExtDataWithModbusSlave env ports s' (usAddress - 1) usNRegs := by
  unfold eMBRegHoldingCB at h
  dsimp only at h
  split at h
  · next hrange =>
    rw [Bool.and_eq_true] at hrange
    exact ⟨hrange.1, s.store (refreshRegs pucRegBuffer (usAddress - 1) usNRegs.toNat), rfl,
      fun k hk => stores_block _ _ _ hk, (Option.some.inj h).symm⟩
  · exact nomatch h

/-- A pass takes a register at least. -/
theorem slaveWalkStep_lt (w : SlaveWalk R) (h : w.usNRegs ≠ 0) :
    (slaveWalkStep env ports w).usNRegs.toNat < w.usNRegs.toNat := by
  have hne : w.usNRegs.toNat ≠ 0 := fun heq => h (UInt16.toNat_inj.mp heq)
  have hskip : (w.usNRegs - 1).toNat < w.usNRegs.toNat := by
    rw [UInt16.toNat_sub_of_le _ _ (UInt16.le_iff_toNat_le.mpr (by
      rw [UInt16.toNat_one]; omega)), UInt16.toNat_one]
    omega
  unfold slaveWalkStep
  split
  · next i info hget =>
    split
    · next hpos =>
      dsimp only
      split
      · next hlt =>
        have hsize : info.nregs < UInt16.size := Nat.lt_trans hlt w.usNRegs.toNat_lt
        have hof := UInt16.toNat_ofNat_of_lt' hsize
        rw [UInt16.toNat_sub_of_le _ _ (UInt16.le_iff_toNat_le.mpr (by omega)), hof]
        omega
      · rw [UInt16.toNat_zero]
        omega
    · exact hskip
  · exact hskip

/-- The loop ends. -/
theorem slaveWalk_ends (fuel : Nat) (w : SlaveWalk R) (h : w.usNRegs.toNat ≤ fuel) :
    (slaveWalk env ports fuel w).usNRegs = 0 := by
  induction fuel generalizing w with
  | zero => exact UInt16.toNat_inj.mp (Nat.le_zero.mp h)
  | succ fuel ih =>
    unfold slaveWalk
    by_cases hzero : w.usNRegs = 0
    · rw [if_pos hzero, hzero]
    · rw [if_neg hzero]
      have hlt := slaveWalkStep_lt env ports w hzero
      exact ih _ (by omega)

end Walk

/-! ## What the slaves should get -/

/-- The first written register of a variable, and the one behind the last. -/
def firstWritten (v : ExtData R) (usAddress : Nat) : Nat := max usAddress v.xIo.usAddr.toNat

def endWritten (v : ExtData R) (usAddress usNRegs : Nat) : Nat :=
  min (usAddress + usNRegs) (v.xIo.usAddr.toNat + v.xIo.nregs)

/-- The port that a request to the slave of the variable goes to. -/
def availablePort (ports : MasterPorts) (v : ExtData R) : Option UInt8 :=
  let _p := slavePort ports v.xIo.usDevType v.xIo.usDevNum v.xIo.param.modbus.btSlaveAddr
  if 0 ≤ _p.toInt8 ∧ ports.runRes _p = true then some _p else none

/-- A variable of a Modbus device. -/
def isModbus (v : ExtData R) : Bool :=
  protoIsModbus v.xIo.usDevType.toNat v.xIo.usProtoType.toNat

/-- An enabled holding register variable that has a written register. -/
def isWritten (v : ExtData R) (usAddress usNRegs : Nat) : Bool :=
  v.bEnable && isModbus v && decide (v.xIo.param.modbus.btOpCode = mbFuncReadHoldingRegister) &&
    decide (firstWritten v usAddress < endWritten v usAddress usNRegs)

/-- The request for the written registers of a variable. -/
def imageRequest (ports : MasterPorts) (regs : Regs) (v : ExtData R) (usAddress usNRegs : Nat) :
    Option WriteRequest :=
  match availablePort ports v with
  | some _p =>
      if isWritten v usAddress usNRegs then
        let first := firstWritten v usAddress
        some
          { ucPort := _p
            ucSndAddr := v.xIo.param.modbus.btSlaveAddr
            usRegAddr := v.xIo.param.modbus.usExtAddr + UInt16.ofNat (first - v.xIo.usAddr.toNat)
            values := (List.range (endWritten v usAddress usNRegs - first)).map fun k =>
              regAt regs (first + k) }
      else none
  | none => none

/-- The requests that were made for the variable at `i`. -/
def requestsFor (i : Nat) (sent : List (Nat × WriteRequest)) : List WriteRequest :=
  (sent.filter fun e => e.1 == i).map Prod.snd

/-- Each variable gets the request for its written registers, and there are no others. -/
def PassedOn (ports : MasterPorts) (s : Polled R) (usAddress usNRegs : Nat)
    (sent : List (Nat × WriteRequest)) : Prop :=
  (∀ i v, s.vars[i]? = some v →
    requestsFor i sent = (imageRequest ports s.regs v usAddress usNRegs).toList) ∧
      ∀ e ∈ sent, e.1 < s.vars.length

/-! ## The variables that the walk reaches -/

/-- The variables of the walk, each with the register at which it is reached. -/
def reached (vars : List (ExtData R)) : Nat → UInt16 → Nat → List (Nat × UInt16)
  | 0, _, _ => []
  | _ + 1, _, 0 => []
  | fuel + 1, usAddress, n + 1 =>
      match getExtDataIoInfoWithAddr vars usAddress with
      | some (i, info) =>
          (i, usAddress) :: reached vars fuel (usAddress + UInt16.ofNat info.nregs)
            (n + 1 - info.nregs)
      | none => reached vars fuel (usAddress + 1) n

theorem nregs_le (io : ExtDataIO R) : io.nregs ≤ 128 := by
  have hlt := io.btVarSize.toNat_lt
  unfold ExtDataIO.nregs
  omega

theorem ioInfo_congr (usAddress : UInt16) {v v' : ExtData R} (h : v.key = v'.key) :
    ioInfo usAddress v = ioInfo usAddress v' :=
  congrArg (fun k : Bool × ExtDataIO R =>
    ({ usDevType := k.2.usDevType
       usDevNum := k.2.usDevNum
       btSlaveAddr := k.2.param.modbus.btSlaveAddr
       usExtAddr := k.2.param.modbus.usExtAddr + (usAddress - k.2.usAddr)
       btOpCode := k.2.param.modbus.btOpCode
       nregs := k.2.nregs - (usAddress.toNat - k.2.usAddr.toNat) } : IoInfo)) h

/-- The node that was found has the register. -/
theorem getIo_some {vars : List (ExtData R)} {usAddress : UInt16} {i : Nat} {info : IoInfo}
    (h : getExtDataIoInfoWithAddr vars usAddress = some (i, info)) :
    ∃ v, vars[i]? = some v ∧ coversAddr usAddress v = true ∧ info = ioInfo usAddress v := by
  unfold getExtDataIoInfoWithAddr at h
  split at h
  · next j hfind =>
    obtain ⟨hlt, hcov, -⟩ := List.findIdx?_eq_some_iff_getElem.mp hfind
    rw [List.getElem?_eq_getElem hlt, Option.map_some, Option.some.injEq, Prod.mk.injEq] at h
    obtain ⟨rfl, rfl⟩ := h
    exact ⟨vars[j], List.getElem?_eq_getElem hlt, hcov, rfl⟩
  · exact nomatch h

theorem findIdx_congr {vars vars' : List (ExtData R)} (usAddress : UInt16)
    (h : vars'.map ExtData.key = vars.map ExtData.key) :
    vars'.findIdx? (coversAddr usAddress) = vars.findIdx? (coversAddr usAddress) :=
  findIdx?_key (coversAddr_congr usAddress) h

/-- The lookup reads no more than the settings. -/
theorem getIo_congr {vars vars' : List (ExtData R)} (usAddress : UInt16)
    (h : vars'.map ExtData.key = vars.map ExtData.key) :
    getExtDataIoInfoWithAddr vars' usAddress = getExtDataIoInfoWithAddr vars usAddress := by
  unfold getExtDataIoInfoWithAddr
  rw [findIdx_congr usAddress h]
  cases hfind : vars.findIdx? (coversAddr usAddress) with
  | none => rfl
  | some i =>
    obtain ⟨hlt, -⟩ := List.findIdx?_eq_some_iff_getElem.mp hfind
    have hlen : vars'.length = vars.length := by
      rw [← List.length_map (f := ExtData.key), h, List.length_map]
    have hi' : vars'[i]? = some vars'[i] := List.getElem?_eq_getElem (by omega)
    obtain ⟨v0, hi, hkey⟩ := getElem?_key h hi'
    dsimp only
    rw [hi', hi, Option.map_some, Option.map_some, ioInfo_congr usAddress hkey]

theorem reached_zero (vars : List (ExtData R)) (fuel : Nat) (usAddress : UInt16) :
    reached vars fuel usAddress 0 = [] := by
  cases fuel <;> rfl

/-- The walk goes on behind the variable. -/
structure NextReg (v : ExtData R) (usAddress : UInt16) (n : Nat) (info : IoInfo) : Prop where
  info_eq : info = ioInfo usAddress v
  pos : 0 < info.nregs
  le : info.nregs ≤ 128
  stop : usAddress.toNat + info.nregs = v.xIo.usAddr.toNat + v.xIo.nregs
  next : info.nregs < n →
    (usAddress + UInt16.ofNat info.nregs).toNat = v.xIo.usAddr.toNat + v.xIo.nregs

theorem nextReg {v : ExtData R} {usAddress : UInt16} {n : Nat}
    (hr : usAddress.toNat + n ≤ 2048) (hcov : coversAddr usAddress v = true) :
    NextReg v usAddress n (ioInfo usAddress v) := by
  obtain ⟨hle, hlt⟩ := hasReg_of_covers hcov
  have hsize := nregs_le v.xIo
  have hn : (ioInfo usAddress v).nregs = v.xIo.nregs - (usAddress.toNat - v.xIo.usAddr.toNat) := rfl
  refine ⟨rfl, by omega, by omega, by omega, fun hlt' => ?_⟩
  have hsmall : (ioInfo usAddress v).nregs < UInt16.size := by
    show _ < 65536
    omega
  rw [UInt16.toNat_add, UInt16.toNat_ofNat_of_lt' hsmall, Nat.mod_eq_of_lt (by omega)]
  omega

/-- What is reached lies in the written range and has its register. -/
theorem reached_mem {vars : List (ExtData R)} {fuel : Nat} {usAddress : UInt16} {n : Nat}
    (hr : usAddress.toNat + n ≤ 2048) {e : Nat × UInt16}
    (he : e ∈ reached vars fuel usAddress n) :
    usAddress.toNat ≤ e.2.toNat ∧ e.2.toNat < usAddress.toNat + n ∧
      ∃ v, vars[e.1]? = some v ∧ coversAddr e.2 v = true := by
  induction fuel generalizing usAddress n with
  | zero => exact absurd he List.not_mem_nil
  | succ fuel ih =>
    cases n with
    | zero => exact absurd he List.not_mem_nil
    | succ n =>
      unfold reached at he
      split at he
      · next i info hget =>
        obtain ⟨v, hi, hcov, rfl⟩ := getIo_some hget
        have hnext := nextReg hr hcov
        rcases List.mem_cons.mp he with rfl | he
        · exact ⟨Nat.le_refl _, Nat.lt_add_of_pos_right (Nat.succ_pos n), v, hi, hcov⟩
        · by_cases hlt : (ioInfo usAddress v).nregs < n + 1
          · have haddr := hnext.next hlt
            have hstop := hnext.stop
            obtain ⟨hle, hend, hv⟩ := ih (by omega) he
            exact ⟨by omega, by omega, hv⟩
          · rw [Nat.sub_eq_zero_of_le (by omega), reached_zero] at he
            exact absurd he List.not_mem_nil
      · have haddr : (usAddress + 1).toNat = usAddress.toNat + 1 := by
          rw [UInt16.toNat_add, UInt16.toNat_one, Nat.mod_eq_of_lt (by omega)]
        obtain ⟨hle, hend, hv⟩ := ih (by omega) he
        exact ⟨by omega, by omega, hv⟩

/-- No variable is reached twice. -/
theorem reached_once {vars : List (ExtData R)} {fuel : Nat} {usAddress : UInt16} {n : Nat}
    (hr : usAddress.toNat + n ≤ 2048) :
    (reached vars fuel usAddress n).Pairwise fun e e' => e.1 ≠ e'.1 := by
  induction fuel generalizing usAddress n with
  | zero => exact List.Pairwise.nil
  | succ fuel ih =>
    cases n with
    | zero => exact List.Pairwise.nil
    | succ n =>
      unfold reached
      split
      · next i info hget =>
        obtain ⟨v, hi, hcov, rfl⟩ := getIo_some hget
        have hnext := nextReg hr hcov
        by_cases hlt : (ioInfo usAddress v).nregs < n + 1
        · have haddr := hnext.next hlt
          have hstop := hnext.stop
          refine List.Pairwise.cons (fun e he heq => ?_) (ih (by omega))
          -- the walk is behind the variable
          obtain ⟨hle, -, v', hi', hcov'⟩ := reached_mem (by omega) he
          rw [← heq, hi, Option.some.injEq] at hi'
          subst hi'
          obtain ⟨-, hbefore⟩ := hasReg_of_covers hcov'
          omega
        · rw [Nat.sub_eq_zero_of_le (by omega), reached_zero]
          exact List.pairwise_singleton _ _
      · have haddr : (usAddress + 1).toNat = usAddress.toNat + 1 := by
          rw [UInt16.toNat_add, UInt16.toNat_one, Nat.mod_eq_of_lt (by omega)]
        exact ih (by omega)

/-! ## The requests of a walk -/

section Requests

variable [VarReal R] (env : PollEnv R) (ports : MasterPorts)

/-- The refreshes of the variables that were reached. -/
def refreshed (s : Polled R) (es : List (Nat × UInt16)) : Polled R :=
  es.foldl (fun s e => refreshExtDataWithRegs env s e.2) s

/-- The request for a variable that is reached, with all registers up to `endAddr`. -/
def requestAt (vars : List (ExtData R)) (regs : Regs) (endAddr : Nat) (e : Nat × UInt16) :
    Option WriteRequest :=
  vars[e.1]?.bind fun v =>
    walkRequest ports regs e.2 (UInt16.ofNat (endAddr - e.2.toNat)) (ioInfo e.2 v)

def requestsAlong (vars : List (ExtData R)) (endAddr : Nat) :
    Polled R → List (Nat × UInt16) → List (Nat × WriteRequest)
  | _, [] => []
  | s, e :: es =>
      ((requestAt ports vars s.regs endAddr e).map fun r => (e.1, r)).toList ++
        requestsAlong vars endAddr (refreshExtDataWithRegs env s e.2) es

theorem requestsAlong_append (vars : List (ExtData R)) (endAddr : Nat) (s : Polled R)
    (es es' : List (Nat × UInt16)) :
    requestsAlong env ports vars endAddr s (es ++ es') =
      requestsAlong env ports vars endAddr s es ++
        requestsAlong env ports vars endAddr (refreshed env s es) es' := by
  induction es generalizing s with
  | nil => rfl
  | cons e es ih =>
    rw [List.cons_append, requestsAlong, requestsAlong, ih, List.append_assoc]
    rfl

theorem refreshed_key (s : Polled R) (es : List (Nat × UInt16)) :
    (refreshed env s es).vars.map ExtData.key = s.vars.map ExtData.key := by
  induction es generalizing s with
  | nil => rfl
  | cons e es ih => exact (ih _).trans (refreshExtDataWithRegs_key env s e.2)

/-- A pass of the loop refreshes `es`, and the rest of the walk is reached behind them. -/
structure WalkPass (vars : List (ExtData R)) (endAddr fuel : Nat) (w w' : SlaveWalk R)
    (es : List (Nat × UInt16)) : Prop where
  reached_eq : reached vars (fuel + 1) w.usAddress w.usNRegs.toNat =
    es ++ reached vars fuel w'.usAddress w'.usNRegs.toNat
  state : w'.s = refreshed env w.s es
  sent : w'.sent = w.sent ++ requestsAlong env ports vars endAddr w.s es
  stop : w'.usNRegs.toNat ≠ 0 → w'.usAddress.toNat + w'.usNRegs.toNat = endAddr

theorem slaveWalkStep_pass {vars : List (ExtData R)} {endAddr : Nat} (hend : endAddr ≤ 2048)
    (fuel : Nat) {w : SlaveWalk R} (hkey : w.s.vars.map ExtData.key = vars.map ExtData.key)
    (hne : w.usNRegs ≠ 0) (hsum : w.usAddress.toNat + w.usNRegs.toNat = endAddr) :
    ∃ es, WalkPass env ports vars endAddr fuel w (slaveWalkStep env ports w) es := by
  obtain ⟨n, hn⟩ : ∃ n, w.usNRegs.toNat = n + 1 :=
    ⟨w.usNRegs.toNat - 1, by
      have hpos : w.usNRegs.toNat ≠ 0 := fun h => hne (UInt16.toNat_inj.mp h)
      omega⟩
  unfold slaveWalkStep
  rw [getIo_congr w.usAddress hkey]
  cases hget : getExtDataIoInfoWithAddr vars w.usAddress with
  | none =>
    have haddr : (w.usAddress + 1).toNat = w.usAddress.toNat + 1 := by
      rw [UInt16.toNat_add, UInt16.toNat_one, Nat.mod_eq_of_lt (by omega)]
    have hleft : (w.usNRegs - 1).toNat = n := by
      rw [UInt16.toNat_sub_of_le _ _ (UInt16.le_iff_toNat_le.mpr (by
        rw [UInt16.toNat_one]; omega)), UInt16.toNat_one]
      omega
    refine ⟨[], ?_, rfl, (List.append_nil _).symm, fun _ => ?_⟩
    · rw [hn, reached, hget, List.nil_append, hleft]
    · dsimp only
      omega
  | some found =>
    obtain ⟨i, info⟩ := found
    obtain ⟨v, hi, hcov, hinfo⟩ := getIo_some hget
    have hnext := nextReg (n := n + 1) (by omega) hcov
    rw [← hinfo] at hnext
    have hle := hnext.le
    have hstop := hnext.stop
    have hof : (UInt16.ofNat info.nregs).toNat = info.nregs :=
      UInt16.toNat_ofNat_of_lt' (by
        show _ < 65536
        omega)
    dsimp only
    rw [if_pos hnext.pos]
    have hleft : (if info.nregs < w.usNRegs.toNat then w.usNRegs - UInt16.ofNat info.nregs
        else 0).toNat = n + 1 - info.nregs := by
      split
      · rw [UInt16.toNat_sub_of_le _ _ (UInt16.le_iff_toNat_le.mpr (by omega)), hof, hn]
      · rw [UInt16.toNat_zero]
        omega
    have hrequest : requestAt ports vars w.s.regs endAddr (i, w.usAddress) =
        walkRequest ports w.s.regs w.usAddress w.usNRegs info := by
      have hcount : UInt16.ofNat (endAddr - w.usAddress.toNat) = w.usNRegs := by
        rw [← hsum, Nat.add_sub_cancel_left, UInt16.ofNat_toNat]
      unfold requestAt
      dsimp only
      rw [hi, Option.bind_some, hcount, ← hinfo]
    refine ⟨[(i, w.usAddress)], ?_, rfl, ?_, fun hrest => ?_⟩
    · dsimp only
      rw [hleft, hn, reached, hget, List.singleton_append]
    · rw [requestsAlong, requestsAlong, hrequest, List.append_nil]
    · dsimp only at hrest ⊢
      rw [hleft] at hrest ⊢
      have haddr := hnext.next (by omega)
      omega

/-- The walk refreshes the variables that it reaches, and sends what is sent for them. -/
theorem slaveWalk_reached {vars : List (ExtData R)} {endAddr : Nat} (hend : endAddr ≤ 2048)
    (fuel : Nat) (w : SlaveWalk R) (hkey : w.s.vars.map ExtData.key = vars.map ExtData.key)
    (hr : w.usNRegs.toNat ≠ 0 → w.usAddress.toNat + w.usNRegs.toNat = endAddr) :
    (slaveWalk env ports fuel w).s =
        refreshed env w.s (reached vars fuel w.usAddress w.usNRegs.toNat) ∧
      (slaveWalk env ports fuel w).sent = w.sent ++
        requestsAlong env ports vars endAddr w.s
          (reached vars fuel w.usAddress w.usNRegs.toNat) := by
  induction fuel generalizing w with
  | zero => exact ⟨rfl, (List.append_nil _).symm⟩
  | succ fuel ih =>
    unfold slaveWalk
    by_cases hzero : w.usNRegs = 0
    · rw [if_pos hzero, hzero]
      exact ⟨rfl, (List.append_nil _).symm⟩
    · have hne : w.usNRegs.toNat ≠ 0 := fun h => hzero (UInt16.toNat_inj.mp h)
      obtain ⟨es, hpass⟩ := slaveWalkStep_pass env ports hend fuel hkey hzero (hr hne)
      obtain ⟨hstate, hsent⟩ := ih (slaveWalkStep env ports w)
        (by rw [hpass.state, refreshed_key, hkey]) hpass.stop
      rw [if_neg hzero, hpass.reached_eq, requestsAlong_append, ← hpass.state,
        ← List.append_assoc, ← hpass.sent]
      refine ⟨hstate.trans ?_, hsent⟩
      rw [hpass.state]
      exact List.foldl_append.symm

omit [VarReal R] in
theorem requestsFor_append (i : Nat) (sent sent' : List (Nat × WriteRequest)) :
    requestsFor i (sent ++ sent') = requestsFor i sent ++ requestsFor i sent' := by
  unfold requestsFor
  rw [List.filter_append, List.map_append]

omit [VarReal R] in
theorem requestsFor_own (i : Nat) (r : Option WriteRequest) :
    requestsFor i (r.map fun r => (i, r)).toList = r.toList := by
  cases r with
  | none => rfl
  | some r =>
    unfold requestsFor
    rw [Option.map_some, Option.toList_some, List.filter_cons_of_pos (by exact beq_self_eq_true i)]
    rfl

omit [VarReal R] in
theorem requestsFor_other {i j : Nat} (h : j ≠ i) (r : Option WriteRequest) :
    requestsFor i (r.map fun r => (j, r)).toList = [] := by
  cases r with
  | none => rfl
  | some r =>
    unfold requestsFor
    rw [Option.map_some, Option.toList_some, List.filter_cons_of_neg (by rwa [beq_iff_eq])]
    rfl

/-- Nothing is sent for a variable that is not reached. -/
theorem requestsFor_unreached (vars : List (ExtData R)) (endAddr : Nat) {i : Nat}
    {es : List (Nat × UInt16)} (h : ∀ e ∈ es, e.1 ≠ i) (s : Polled R) :
    requestsFor i (requestsAlong env ports vars endAddr s es) = [] := by
  induction es generalizing s with
  | nil => rfl
  | cons e es ih =>
    rw [requestsAlong, requestsFor_append, requestsFor_other (h e List.mem_cons_self),
      ih (fun e' he' => h e' (List.mem_cons_of_mem e he'))]
    rfl

/-- What is sent for a variable is sent where it is reached. -/
theorem requestsFor_reached (vars : List (ExtData R)) (endAddr : Nat)
    {es : List (Nat × UInt16)} (honce : es.Pairwise fun e e' => e.1 ≠ e'.1) {k : Nat}
    {e : Nat × UInt16} (hk : es[k]? = some e) (s : Polled R) :
    requestsFor e.1 (requestsAlong env ports vars endAddr s es) =
      (requestAt ports vars (refreshed env s (es.take k)).regs endAddr e).toList := by
  induction es generalizing k s with
  | nil => exact nomatch hk
  | cons e' es ih =>
    obtain ⟨hfirst, honce⟩ := List.pairwise_cons.mp honce
    rw [requestsAlong, requestsFor_append]
    cases k with
    | zero =>
      rw [List.getElem?_cons_zero, Option.some.injEq] at hk
      subst hk
      rw [requestsFor_own,
        requestsFor_unreached env ports vars endAddr (fun e he => (hfirst e he).symm),
        List.append_nil]
      rfl
    | succ k =>
      rw [List.getElem?_cons_succ] at hk
      rw [requestsFor_other (hfirst e (List.mem_of_getElem? hk)), ih honce hk]
      rfl

theorem mem_requestsAlong {vars : List (ExtData R)} {endAddr : Nat}
    {es : List (Nat × UInt16)} {s : Polled R} {e : Nat × WriteRequest}
    (h : e ∈ requestsAlong env ports vars endAddr s es) : ∃ a, (e.1, a) ∈ es := by
  induction es generalizing s with
  | nil => exact absurd h List.not_mem_nil
  | cons e' es ih =>
    rw [requestsAlong, List.mem_append] at h
    rcases h with h | h
    · rw [Option.mem_toList, Option.map_eq_some_iff] at h
      obtain ⟨r, -, rfl⟩ := h
      exact ⟨e'.2, List.mem_cons_self⟩
    · obtain ⟨a, ha⟩ := ih h
      exact ⟨a, List.mem_cons_of_mem e' ha⟩

/-! ## The request for one variable -/

omit [VarReal R] in
theorem regs_regIndex (regs : Regs) (usAddress : UInt16) (k : Nat) :
    regs (regIndex usAddress + k) = regAt regs (usAddress.toNat + k) := by
  unfold regAt regIndex
  congr 1
  omega

omit [VarReal R] in
theorem requestAt_eq {vars : List (ExtData R)} {i : Nat} {v : ExtData R} (hi : vars[i]? = some v)
    (regs : Regs) {endAddr : Nat} (hend : endAddr ≤ 2048) (usAddress : UInt16) :
    requestAt ports vars regs endAddr (i, usAddress) =
      if v.xIo.param.modbus.btOpCode = mbFuncReadHoldingRegister then
        (availablePort ports v).map fun _p =>
          { ucPort := _p
            ucSndAddr := v.xIo.param.modbus.btSlaveAddr
            usRegAddr := v.xIo.param.modbus.usExtAddr + (usAddress - v.xIo.usAddr)
            values := (List.range (endAddr - usAddress.toNat)).map fun k =>
              regAt regs (usAddress.toNat + k) }
      else none := by
  have hcount : (UInt16.ofNat (endAddr - usAddress.toNat)).toNat = endAddr - usAddress.toNat :=
    UInt16.toNat_ofNat_of_lt' (by
      show _ < 65536
      omega)
  have hslave : ¬ mbMasterTotalSlaveNum < v.xIo.param.modbus.btSlaveAddr.toNat := by
    have hlt := v.xIo.param.modbus.btSlaveAddr.toNat_lt
    unfold mbMasterTotalSlaveNum
    omega
  unfold requestAt
  rw [hi, Option.bind_some]
  unfold walkRequest availablePort eMBMasterReqWriteMultipleHoldingRegister
  simp only [hcount, regs_regIndex, ioInfo, if_neg hslave]
  by_cases hop : v.xIo.param.modbus.btOpCode = mbFuncReadHoldingRegister
  · rw [if_pos hop]
    split
    · next hport =>
      split
      · next hrun =>
        rw [if_neg (by
          rw [Bool.not_eq_true'] at hrun
          rw [hrun]
          exact fun h => Bool.false_ne_true h.2)]
        rfl
      · next hrun =>
        rw [Bool.not_eq_true', Bool.not_eq_false] at hrun
        rw [if_pos ⟨hport, hrun⟩]
        rfl
    · next hport =>
      rw [if_neg (fun h => hport h.1)]
      rfl
  · rw [if_neg hop, if_neg hop, ite_self]

omit [VarReal R] in
theorem range_map_eq_iff {β : Type} (n m : Nat) (f g : Nat → β) :
    (List.range n).map f = (List.range m).map g ↔ n = m ∧ ∀ k < n, f k = g k := by
  constructor
  · intro h
    have hlen := congrArg List.length h
    rw [List.length_map, List.length_map, List.length_range, List.length_range] at hlen
    subst hlen
    exact ⟨rfl, fun k hk => List.map_inj_left.mp h k (List.mem_range.mpr hk)⟩
  · rintro ⟨rfl, h⟩
    exact List.map_congr_left fun k hk => h k (List.mem_range.mp hk)

omit [VarReal R] in
/-- The first external register is that of the first written register only where the walk starts
    there. -/
theorem usRegAddr_eq_iff (usExtAddr : UInt16) {usAddress usAddr : UInt16} {first : Nat}
    (hle : usAddr.toNat ≤ usAddress.toNat) (hfirst : usAddr.toNat ≤ first) (hlt : first < 65536) :
    usExtAddr + (usAddress - usAddr) = usExtAddr + UInt16.ofNat (first - usAddr.toNat) ↔
      usAddress.toNat = first := by
  rw [UInt16.add_right_inj, ← UInt16.toNat_inj,
    UInt16.toNat_sub_of_le _ _ (UInt16.le_iff_toNat_le.mpr hle),
    UInt16.toNat_ofNat_of_lt' (by
      show _ < 65536
      omega)]
  omega

/-- The registers up to the end of the write are those of the variable, and they have still the
    values that were written. -/
structure RestFits (s : Polled R) (regs : Regs) (v : ExtData R) (start : UInt16)
    (usAddress usNRegs : Nat) : Prop where
  modbus : isModbus v = true
  first : start.toNat = firstWritten v usAddress
  last : usAddress + usNRegs ≤ v.xIo.usAddr.toNat + v.xIo.nregs
  values : ∀ a, start.toNat ≤ a → a < usAddress + usNRegs → regAt regs a = regAt s.regs a

omit [VarReal R] in
/-- A request is the right one where the rest of the write fits the variable. -/
theorem requestAt_eq_image {s : Polled R} {i : Nat} {v : ExtData R} (hi : s.vars[i]? = some v)
    (regs : Regs) {usAddress usNRegs : Nat} (hend : usAddress + usNRegs ≤ 2048) {start : UInt16}
    (hcov : coversAddr start v = true) (hle : usAddress ≤ start.toNat)
    (hlt : start.toNat < usAddress + usNRegs) :
    requestAt ports s.vars regs (usAddress + usNRegs) (i, start) =
        imageRequest ports s.regs v usAddress usNRegs ↔
      (v.xIo.param.modbus.btOpCode = mbFuncReadHoldingRegister →
        (availablePort ports v).isSome = true → RestFits s regs v start usAddress usNRegs) := by
  obtain ⟨hlow, hhigh⟩ := hasReg_of_covers hcov
  have hen : v.bEnable = true := by
    unfold coversAddr at hcov
    rw [Bool.and_eq_true, Bool.and_eq_true] at hcov
    exact hcov.1.1
  have hwritten : isWritten v usAddress usNRegs = (isModbus v &&
      decide (v.xIo.param.modbus.btOpCode = mbFuncReadHoldingRegister)) := by
    have hoverlap : firstWritten v usAddress < endWritten v usAddress usNRegs := by
      unfold firstWritten endWritten
      omega
    unfold isWritten
    rw [hen, decide_eq_true hoverlap, Bool.and_true, Bool.true_and]
  rw [requestAt_eq ports hi regs hend start]
  unfold imageRequest
  rw [hwritten]
  by_cases hop : v.xIo.param.modbus.btOpCode = mbFuncReadHoldingRegister
  · rw [if_pos hop, decide_eq_true hop, Bool.and_true]
    cases hport : availablePort ports v with
    | none => exact iff_of_true rfl fun _ h => nomatch h
    | some _p =>
      dsimp only
      rw [Option.map_some]
      cases hmodbus : isModbus v with
      | false =>
        refine iff_of_false (fun h => nomatch h) fun h => ?_
        have hfits := (h hop rfl).modbus
        rw [hmodbus] at hfits
        exact nomatch hfits
      | true =>
        have hfirst : v.xIo.usAddr.toNat ≤ firstWritten v usAddress := Nat.le_max_right _ _
        have hend' : endWritten v usAddress usNRegs ≤ usAddress + usNRegs := Nat.min_le_left _ _
        have hstop : endWritten v usAddress usNRegs ≤ v.xIo.usAddr.toNat + v.xIo.nregs :=
          Nat.min_le_right _ _
        have hstart : firstWritten v usAddress ≤ start.toNat := Nat.max_le.mpr ⟨hle, hlow⟩
        rw [if_pos rfl, Option.some.injEq, WriteRequest.mk.injEq, range_map_eq_iff,
          usRegAddr_eq_iff _ hlow hfirst (by omega)]
        constructor
        · rintro ⟨-, -, heq, hcount, hvalues⟩ - -
          refine ⟨hmodbus, heq, by omega, fun a ha ha' => ?_⟩
          have hval := hvalues (a - start.toNat) (by omega)
          rwa [← heq, Nat.add_sub_cancel' ha] at hval
        · intro h
          obtain ⟨-, heq, hlast, hvalues⟩ := h hop rfl
          have hcount : endWritten v usAddress usNRegs = usAddress + usNRegs :=
            Nat.min_eq_left hlast
          refine ⟨rfl, rfl, heq, by omega, fun k hk => ?_⟩
          rw [← heq]
          exact hvalues _ (by omega) (by omega)
  · rw [if_neg hop, decide_eq_false hop, Bool.and_false]
    refine iff_of_true ?_ fun h => absurd h hop
    cases availablePort ports v <;> rfl

/-! ## Which writes are passed on -/

/-- The variables that the walk of a write reaches. -/
def walked (s : Polled R) (usAddress usNRegs : UInt16) : List (Nat × UInt16) :=
  reached s.vars usNRegs.toNat usAddress usNRegs.toNat

/-- Every variable that has written registers is reached, and where a holding register variable
    with an available port is reached, the rest of the write fits it. -/
structure WalkFits (s : Polled R) (usAddress usNRegs : UInt16) : Prop where
  fits : ∀ k i start v, (walked s usAddress usNRegs)[k]? = some (i, start) →
    s.vars[i]? = some v → v.xIo.param.modbus.btOpCode = mbFuncReadHoldingRegister →
      (availablePort ports v).isSome = true →
        RestFits s (refreshed env s ((walked s usAddress usNRegs).take k)).regs v start
          usAddress.toNat usNRegs.toNat
  reaches : ∀ i v, s.vars[i]? = some v → isWritten v usAddress.toNat usNRegs.toNat = true →
    (availablePort ports v).isSome = true → ∃ start, (i, start) ∈ walked s usAddress usNRegs

/-- The requests of a write are the right ones if and only if no variable but the last one that
    the walk reaches has a slave to send to, and that one is written from its first written
    register to the end of the write. -/
theorem passed_on (s : Polled R) (usAddress usNRegs : UInt16)
    (hrange : inExtData usAddress usNRegs = true) :
    PassedOn ports s usAddress.toNat usNRegs.toNat
        (bVarManageRefreshExtDataWithModbusSlave env ports s usAddress usNRegs).sent ↔
      WalkFits env ports s usAddress usNRegs := by
  have hend : usAddress.toNat + usNRegs.toNat ≤ 2048 := by
    unfold inExtData at hrange
    rw [Bool.and_eq_true, decide_eq_true_eq] at hrange
    exact hrange.2
  have hsent : (bVarManageRefreshExtDataWithModbusSlave env ports s usAddress usNRegs).sent =
      requestsAlong env ports s.vars (usAddress.toNat + usNRegs.toNat) s
        (walked s usAddress usNRegs) :=
    (slaveWalk_reached env ports hend usNRegs.toNat ⟨s, usAddress, usNRegs, [], false⟩ rfl
      fun _ => rfl).2
  have honce : (walked s usAddress usNRegs).Pairwise fun e e' => e.1 ≠ e'.1 := reached_once hend
  rw [hsent]
  constructor
  · rintro ⟨hall, -⟩
    refine ⟨fun k i start v hk hi => ?_, fun i v hi hwritten hport => ?_⟩
    · obtain ⟨hle, hlt, v', hi', hcov⟩ := reached_mem hend (List.mem_of_getElem? hk)
      dsimp only at hle hlt hi' hcov
      rw [hi, Option.some.injEq] at hi'
      subst hi'
      have hreq := hall i v hi
      rw [requestsFor_reached env ports s.vars _ honce hk s] at hreq
      have hhead := congrArg List.head? hreq
      rw [Option.head?_toList, Option.head?_toList] at hhead
      exact (requestAt_eq_image ports hi _ hend hcov hle hlt).mp hhead
    · by_contra hnot
      have hreq := hall i v hi
      rw [requestsFor_unreached env ports s.vars _ fun e he heq =>
        hnot ⟨e.2, by rw [← heq]; exact he⟩] at hreq
      obtain ⟨_p, hp⟩ := Option.isSome_iff_exists.mp hport
      unfold imageRequest at hreq
      rw [hp] at hreq
      dsimp only at hreq
      rw [if_pos hwritten] at hreq
      exact nomatch hreq
  · intro h
    refine ⟨fun i v hi => ?_, fun e he => ?_⟩
    · by_cases hreach : ∃ start, (i, start) ∈ walked s usAddress usNRegs
      · obtain ⟨start, hmem⟩ := hreach
        obtain ⟨k, hk⟩ := List.mem_iff_getElem?.mp hmem
        obtain ⟨hle, hlt, v', hi', hcov⟩ := reached_mem hend hmem
        dsimp only at hle hlt hi' hcov
        rw [hi, Option.some.injEq] at hi'
        subst hi'
        rw [requestsFor_reached env ports s.vars _ honce hk s]
        exact congrArg Option.toList ((requestAt_eq_image ports hi _ hend hcov hle hlt).mpr
          (h.fits k i start v hk hi))
      · rw [requestsFor_unreached env ports s.vars _ fun e he heq =>
          hreach ⟨e.2, by rw [← heq]; exact he⟩]
        unfold imageRequest
        cases hport : availablePort ports v with
        | none => rfl
        | some _p =>
          dsimp only
          rw [if_neg fun hwritten => hreach (h.reaches i v hi hwritten (by rw [hport]; rfl))]
          rfl
    · obtain ⟨start, hmem⟩ := mem_requestsAlong env ports he
      obtain ⟨-, -, v, hi, -⟩ := reached_mem hend hmem
      exact (List.getElem?_eq_some_iff.mp hi).1

end Requests

/-! ## Two variables side by side -/

open CString Cjson

/-- The document of a holding register variable of slave 1 on the first serial line. -/
def holdingDoc (usAddr btVarSize usExtAddr : Int) : Item Int :=
  .object [(keyEn, number 1), (keyIo, .object [(keyVs, number btVarSize), (keySa, number 1),
    (keyAd, number usAddr), (keyMbop, number 3), (keyEa, number usExtAddr)])]

/-- The serial lines have their masters, and nothing else is connected. -/
def serialPorts : MasterPorts where
  zigbeeInit := false
  zgbSetDstNode := fun _ => false
  tcpFd := fun _ => -1
  runRes := fun _ => true

/-- The variables of the documents, where each register was written its own index. -/
def writtenState (docs : List (Item Int)) : Polled Int where
  vars := configured docs
  regs := fun i => UInt16.ofNat i.toNat
  used := []

theorem walkFits_one : WalkFits plainEnv serialPorts (writtenState [holdingDoc 1024 4 10]) 1025 1 := by
  have hwalk : walked (writtenState [holdingDoc 1024 4 10]) 1025 1 = [(0, 1025)] := rfl
  refine ⟨fun k i start v hk hi _ _ => ?_, fun i v hi _ _ => ?_⟩
  · rw [hwalk] at hk ⊢
    cases k with
    | zero =>
      rw [List.getElem?_cons_zero, Option.some.injEq, Prod.mk.injEq] at hk
      obtain ⟨rfl, rfl⟩ := hk
      obtain rfl := Option.some.inj hi
      exact ⟨rfl, rfl, by decide, fun a _ _ => rfl⟩
    | succ k => exact nomatch hk
  · cases i with
    | zero => exact ⟨1025, by rw [hwalk]; exact List.mem_singleton_self _⟩
    | succ i => exact nomatch hi

/-- The second register of a variable of two. -/
theorem one_passed_on :
    PassedOn serialPorts (writtenState [holdingDoc 1024 4 10]) 1025 1
      (bVarManageRefreshExtDataWithModbusSlave plainEnv serialPorts
        (writtenState [holdingDoc 1024 4 10]) 1025 1).sent :=
  (passed_on plainEnv serialPorts (writtenState [holdingDoc 1024 4 10]) 1025 1 rfl).mpr
    walkFits_one

/-- Two registers are written, of two variables: the first request writes register 1 of the
    slave as well, which is no variable's. -/
theorem neighbour_overwritten :
    ¬ PassedOn serialPorts (writtenState [holdingDoc 1024 2 0, holdingDoc 1025 2 10]) 1024 2
      (bVarManageRefreshExtDataWithModbusSlave plainEnv serialPorts
        (writtenState [holdingDoc 1024 2 0, holdingDoc 1025 2 10]) 1024 2).sent := by
  rintro ⟨hall, -⟩
  have hsent : requestsFor 0 (bVarManageRefreshExtDataWithModbusSlave plainEnv serialPorts
      (writtenState [holdingDoc 1024 2 0, holdingDoc 1025 2 10]) 1024 2).sent =
        [⟨1, 1, 0, [0, 1]⟩] := rfl
  have hfirst := hall 0 _ rfl
  rw [hsent] at hfirst
  exact absurd hfirst (by decide)

end K64Gateway.VarManage
