import Mathlib

/-
  The data model of `drivers/varmanage/varmanage.h`, as far as the modelled functions read it,
  with the board constants they use (`protomanage.h`, `rtconfig.h`, `user_mb_app.h`).

  Integers are the fixed-width types of the header. The numbers of type `float` and `double`
  are an abstract type `R`; what the code does with them is the class `VarReal`, so no
  statement depends on how they are rounded. A C string is its bytes without the NUL.
-/

namespace K64Gateway.VarManage

/-- The bytes of a C string, without the terminating NUL. -/
abbrev CStr := List UInt8

/-! ## Board constants -/

def protoDevRs4 : Nat := 3
def protoDevRsMax : Nat := protoDevRs4
def protoDevNet : Nat := 4
def protoDevZigbee : Nat := 5
def protoDevGprs : Nat := 6
def protoDevRtuSelf : Nat := 100

/-- `PROTO_MODBUS_RTU = 0, PROTO_MODBUS_ASCII, PROTO_DLT645` (`uart_cfg.h`). -/
def protoModbusAscii : Nat := 1
def protoDlt645 : Nat := 2

/-- `PROTO_MODBUS_TCP = 0 .. PROTO_HJT212 = 3` (`tcpip_cfg.h`). -/
def protoModbusTcp : Nat := 0
def protoCcBjdc : Nat := 1
def protoModbusRtuOverTcp : Nat := 2
def protoHjt212 : Nat := 3

def boardUartMax : Nat := 6
def boardEnetTcpipNum : Nat := 4
def boardGprsTcpipNum : Nat := 4
def boardTcpipMax : Nat := boardEnetTcpipNum + boardGprsTcpipNum
def mbTcpIdOfs : Nat := boardUartMax
def boardZigbeeUart : Nat := 3

/-- `PROTO_DEV_NET_TYPE` -/
def protoDevNetType (index : UInt8) : Nat :=
  if index.toNat < boardEnetTcpipNum then protoDevNet else protoDevGprs

/-- `rt_tick_from_millisecond`, with 1000 ticks for each second. -/
def rtTickFromMillisecond (ms : UInt32) : UInt32 := (1000 * ms + 999) / 1000

def userRegExtDataStart : Nat := 1024
def userRegExtDataEnd : Nat := 2047
def userRegExtDataSize : Nat := userRegExtDataEnd - userRegExtDataStart + 1

/-- `EXT_DATA_REG_CHECK`. -/
def extDataRegCheck (addr : Nat) : Bool :=
  decide (userRegExtDataStart ≤ addr) && decide (addr ≤ userRegExtDataEnd)

def mbFuncReadHoldingRegister : UInt8 := 3
def mbFuncReadInputRegister : UInt8 := 4

/-! ## Values -/

/-- The 8-byte union `VarValue_v`, as its bytes (`val_ary`). -/
abbrev VarValue := Fin 8 → UInt8

/-- For the numbers of its bytes. -/
scoped instance neZeroEight : NeZero 8 := ⟨by decide⟩

/-- `eVarType`, the codes of `btVarType`. -/
def eVarBit : UInt8 := 0
def eVarInt8 : UInt8 := 1
def eVarUint8 : UInt8 := 2
def eVarInt16 : UInt8 := 3
def eVarUint16 : UInt8 := 4
def eVarInt32 : UInt8 := 5
def eVarUint32 : UInt8 := 6
def eVarFloat : UInt8 := 7
def eVarDouble : UInt8 := 8
def eVarArray : UInt8 := 9

/-- `val_u16`, `val_u32` and the 64 bits of `val_db`; the low byte comes first. -/
def VarValue.u16 (v : VarValue) : UInt16 := (v 0).toUInt16 ||| ((v 1).toUInt16 <<< 8)

def VarValue.u32 (v : VarValue) : UInt32 :=
  (v 0).toUInt32 ||| ((v 1).toUInt32 <<< 8) ||| ((v 2).toUInt32 <<< 16) ||| ((v 3).toUInt32 <<< 24)

def VarValue.u64 (v : VarValue) : UInt64 :=
  (v 0).toUInt64 ||| ((v 1).toUInt64 <<< 8) ||| ((v 2).toUInt64 <<< 16) |||
    ((v 3).toUInt64 <<< 24) ||| ((v 4).toUInt64 <<< 32) ||| ((v 5).toUInt64 <<< 40) |||
      ((v 6).toUInt64 <<< 48) ||| ((v 7).toUInt64 <<< 56)

/-- What the code asks of `var_float_t` and `var_double_t`. -/
class VarReal (R : Type) where
  /-- conversion of an integer -/
  ofInt : Int → R
  /-- the single and double precision numbers with these bits -/
  ofFloatBits : UInt32 → R
  ofDoubleBits : UInt64 → R
  /-- `a > b` -/
  gt : R → R → Bool
  /-- `a != b` -/
  ne : R → R → Bool
  add : R → R → R
  div : R → R → R
  /-- the conversions of `__doexp_value`: to an integer of 8, 16 and 32 bits, to the bits of
      a `float` and of a `double` -/
  toInt8 : R → UInt8
  toUint8 : R → UInt8
  toInt16 : R → UInt16
  toUint16 : R → UInt16
  toInt32 : R → UInt32
  toUint32 : R → UInt32
  toFloatBits : R → UInt32
  toDoubleBits : R → UInt64

/-- Whole numbers, for closed examples; none of them has the bits of a fraction. -/
instance : VarReal Int where
  ofInt := id
  ofFloatBits _ := 0
  ofDoubleBits _ := 0
  gt a b := decide (b < a)
  ne a b := decide (a ≠ b)
  add a b := a + b
  div a b := a / b
  toInt8 a := UInt8.ofNat (a % 256).toNat
  toUint8 a := UInt8.ofNat (a % 256).toNat
  toInt16 a := UInt16.ofNat (a % 65536).toNat
  toUint16 a := UInt16.ofNat (a % 65536).toNat
  toInt32 a := UInt32.ofNat (a % 4294967296).toNat
  toUint32 a := UInt32.ofNat (a % 4294967296).toNat
  toFloatBits _ := 0
  toDoubleBits _ := 0

/-- `VarAvg_t`. -/
structure VarAvg (R : Type) where
  time : UInt32
  count : UInt32
  val_avg : R
  val_cur : R
  val_min : R
  val_max : R

/-! ## Variables -/

/-- `dlt645_addr_t`, `addr[0]` first. -/
structure Dlt645Addr where
  a0 : UInt8
  a1 : UInt8
  a2 : UInt8
  a3 : UInt8
  a4 : UInt8
  a5 : UInt8
deriving DecidableEq

/-- `ExtData_IO_modbus_t`. -/
structure ExtDataIOModbus where
  btOpCode : UInt8
  nSyncFAddr : Int32
  btSlaveAddr : UInt8
  usExtAddr : UInt16
  usAddrOfs : UInt16
deriving DecidableEq

/-- `ExtData_IO_dlt645_t`. -/
structure ExtDataIODlt645 where
  addr : Dlt645Addr
  op : UInt32
deriving DecidableEq

/-- The union `ExtData_IO_Param_t`, as its four little endian words. -/
structure ExtDataIOParam where
  w0 : UInt32
  w1 : UInt32
  w2 : UInt32
  w3 : UInt32
deriving DecidableEq

/-- The union read as `modbus`: `btOpCode` at byte 0, `nSyncFAddr` at 4, `btSlaveAddr` at 8,
    `usExtAddr` at 10, `usAddrOfs` at 12. -/
def ExtDataIOParam.modbus (p : ExtDataIOParam) : ExtDataIOModbus where
  btOpCode := p.w0.toUInt8
  nSyncFAddr := p.w1.toInt32
  btSlaveAddr := p.w2.toUInt8
  usExtAddr := (p.w2 >>> 16).toUInt16
  usAddrOfs := p.w3.toUInt16

/-- The union read as `dlt645`: `addr` in the bytes 0..5, `op` at 8. -/
def ExtDataIOParam.dlt645 (p : ExtDataIOParam) : ExtDataIODlt645 where
  addr := ⟨p.w0.toUInt8, (p.w0 >>> 8).toUInt8, (p.w0 >>> 16).toUInt8, (p.w0 >>> 24).toUInt8,
    p.w1.toUInt8, (p.w1 >>> 8).toUInt8⟩
  op := p.w2

/-- `ExtData_IO_t`. -/
structure ExtDataIO (R : Type) where
  btRWType : UInt8
  btVarType : UInt8
  btVarSize : UInt8
  btVarRuleType : UInt8
  xValue : VarValue
  fMax : R
  fMin : R
  fInit : R
  fRatio : R
  bUseMax : Bool
  bUseMin : Bool
  bUseInit : Bool
  bUseRatio : Bool
  usDevType : UInt16
  usDevNum : UInt16
  usProtoType : UInt16
  szProtoName : Option CStr
  usAddr : UInt16
  btErrOp : UInt8
  btErrCnt : UInt8
  btErrNum : UInt8
  param : ExtDataIOParam
  szExp : Option CStr

/-- `ExtData_Alarm_t`. -/
structure ExtDataAlarm where
  bEnable : Bool
deriving DecidableEq

/-- `ExtData_Storage_t`. -/
structure ExtDataStorage (R : Type) where
  bEnable : Bool
  btType : UInt8
  ulStep : UInt32
  xAvgReal : VarAvg R
  xAvgMin : VarAvg R
  xAvgHour : VarAvg R
  bCheck : Bool
  fMax : R
  fMin : R

/-- `ExtData_Up_t`. -/
structure ExtDataUp (R : Type) where
  bEnable : Bool
  xAvgUp : VarAvg R
  xAvgMin : VarAvg R
  xAvgHour : VarAvg R
  szNid : Option CStr
  szFid : Option CStr
  szUnit : Option CStr
  usDevType : UInt16
  usDevNum : UInt16
  usProtoType : UInt16
  szProtoName : Option CStr
  szDesc : Option CStr

/-- `ExtData_t` without its links (they are the links of a heap cell). -/
structure ExtData (R : Type) where
  bEnable : Bool
  szName : CStr
  szAlias : CStr
  xIo : ExtDataIO R
  xAlarm : ExtDataAlarm
  xStorage : ExtDataStorage R
  xUp : ExtDataUp R

/-- A zeroed `VarAvg_t`. -/
def VarAvg.zero {R : Type} (z : R) : VarAvg R where
  time := 0
  count := 0
  val_avg := z
  val_cur := z
  val_min := z
  val_max := z

/-- `VAR_MANAGE_CALLOC` of an `ExtData_t`; `z` is the number with all bits zero. -/
def ExtData.zero {R : Type} (z : R) : ExtData R where
  bEnable := false
  szName := []
  szAlias := []
  xIo :=
    { btRWType := 0
      btVarType := 0
      btVarSize := 0
      btVarRuleType := 0
      xValue := fun _ => 0
      fMax := z
      fMin := z
      fInit := z
      fRatio := z
      bUseMax := false
      bUseMin := false
      bUseInit := false
      bUseRatio := false
      usDevType := 0
      usDevNum := 0
      usProtoType := 0
      szProtoName := none
      usAddr := 0
      btErrOp := 0
      btErrCnt := 0
      btErrNum := 0
      param := ⟨0, 0, 0, 0⟩
      szExp := none }
  xAlarm := { bEnable := false }
  xStorage :=
    { bEnable := false
      btType := 0
      ulStep := 0
      xAvgReal := VarAvg.zero z
      xAvgMin := VarAvg.zero z
      xAvgHour := VarAvg.zero z
      bCheck := false
      fMax := z
      fMin := z }
  xUp :=
    { bEnable := false
      xAvgUp := VarAvg.zero z
      xAvgMin := VarAvg.zero z
      xAvgHour := VarAvg.zero z
      szNid := none
      szFid := none
      szUnit := none
      usDevType := 0
      usDevNum := 0
      usProtoType := 0
      szProtoName := none
      szDesc := none }

/-- `sizeof(VarName_t)` and `sizeof(VarAlias_t)` -/
def nameSize : Nat := 9
def aliasSize : Nat := 7

/-- The string at `xAlias.szAlias`. Behind the array is the padding in front of `xIo`, which is
    zero. -/
def ExtData.aliasStr {R : Type} (data : ExtData R) : CStr := data.szAlias

/-- The string at `xName.szName`: a name that fills its array goes on in `xAlias`. -/
def ExtData.nameStr {R : Type} (data : ExtData R) : CStr :=
  if data.szName.length < nameSize then data.szName else data.szName ++ data.aliasStr

/-- The number of 16-bit registers of a variable, `(btVarSize+1)/2`. -/
def ExtDataIO.nregs {R : Type} (io : ExtDataIO R) : Nat := (io.btVarSize.toNat + 1) / 2

/-- An enabled variable that has the register `a`. -/
def Covers {R : Type} (data : ExtData R) (a : Nat) : Prop :=
  data.bEnable = true ∧ data.xIo.usAddr.toNat ≤ a ∧ a < data.xIo.usAddr.toNat + data.xIo.nregs

/-! ## The protocol of a variable -/

/-- `__proto_is_rtu_self`. -/
def protoIsRtuSelf (dev_type dev_num : Nat) : Bool :=
  decide (dev_type = protoDevRtuSelf) && decide (dev_num < 8)

/-- `__proto_is_modbus`. -/
def protoIsModbus (dev_type proto_type : Nat) : Bool :=
  if dev_type ≤ protoDevRsMax then decide (proto_type ≤ protoModbusAscii)
  else if dev_type ≤ protoDevNet then
    decide (proto_type ≤ protoModbusTcp) || decide (proto_type = protoModbusRtuOverTcp)
  else if dev_type ≤ protoDevZigbee then decide (proto_type ≤ protoModbusAscii)
  else if dev_type ≤ protoDevGprs then
    decide (proto_type ≤ protoModbusTcp) || decide (proto_type = protoModbusRtuOverTcp)
  else false

/-- `__proto_is_dlt645`. -/
def protoIsDlt645 (dev_type proto_type : Nat) : Bool :=
  decide (dev_type ≤ protoDevRsMax) && decide (proto_type = protoDlt645)

theorem protoIsModbus_devType {dev_type proto_type : Nat}
    (h : protoIsModbus dev_type proto_type = true) : dev_type ≤ 6 := by
  unfold protoIsModbus at h
  split_ifs at h with h3 h4 h5 h6
  · exact Nat.le_trans h3 (by decide)
  · exact Nat.le_trans h4 (by decide)
  · exact Nat.le_trans h5 (by decide)
  · exact h6

/-- A Modbus variable is on none of the gateway's own analog channels. -/
theorem protoIsRtuSelf_of_modbus {dev_type proto_type : Nat} (dev_num : Nat)
    (h : protoIsModbus dev_type proto_type = true) : protoIsRtuSelf dev_type dev_num = false := by
  have hle := protoIsModbus_devType h
  have hne : ¬ dev_type = protoDevRtuSelf := by unfold protoDevRtuSelf; omega
  simp [protoIsRtuSelf, hne]

/-- What `pVarManage_GetExtDataWithUpProto` looks for. -/
def isUpProto {R : Type} (usDevType usDevNum usProtoType : Nat) (node : ExtData R) : Bool :=
  node.bEnable && node.xUp.bEnable && decide (usDevType = node.xUp.usDevType.toNat) &&
    decide (usDevNum = node.xUp.usDevNum.toNat) && decide (usProtoType = node.xUp.usProtoType.toNat)

end K64Gateway.VarManage
