import Mathlib
import K64Gateway.External.Cjson
import K64Gateway.VarManage.Types

/-
  The configuration of a variable as JSON: `jsonParseExtDataInfo` reads a tree into a record,
  `jsonFillExtDataInfo` writes a record into an empty object.

  Proved: exactly which documents come back from a record that was parsed from them
  (`extDataInfo_roundTrip`).
-/

namespace K64Gateway.VarManage

open CString Cjson

/-! ## Keys -/

def keyEn : CStr := chars ['e', 'n']
def keyNa : CStr := chars ['n', 'a']
def keyAl : CStr := chars ['a', 'l']
def keyIo : CStr := chars ['i', 'o']
def keyAlarm : CStr := chars ['a', 'l', 'a', 'r', 'm']
def keyStorage : CStr := chars ['s', 't', 'o', 'r', 'a', 'g', 'e']
def keyUp : CStr := chars ['u', 'p']
def keyEop : CStr := chars ['e', 'o', 'p']
def keyEcnt : CStr := chars ['e', 'c', 'n', 't']
def keyRw : CStr := chars ['r', 'w']
def keyVt : CStr := chars ['v', 't']
def keyVs : CStr := chars ['v', 's']
def keyVrl : CStr := chars ['v', 'r', 'l']
def keyVa : CStr := chars ['v', 'a']
def keyVma : CStr := chars ['v', 'm', 'a']
def keyVmi : CStr := chars ['v', 'm', 'i']
def keyVii : CStr := chars ['v', 'i', 'i']
def keyVrt : CStr := chars ['v', 'r', 't']
def keyDt : CStr := chars ['d', 't']
def keyDtn : CStr := chars ['d', 't', 'n']
def keyPt : CStr := chars ['p', 't']
def keyPnm : CStr := chars ['p', 'n', 'm']
def keyAd : CStr := chars ['a', 'd']
def keyMbop : CStr := chars ['m', 'b', 'o', 'p']
def keySa : CStr := chars ['s', 'a']
def keySfa : CStr := chars ['s', 'f', 'a']
def keyEa : CStr := chars ['e', 'a']
def keyAo : CStr := chars ['a', 'o']
def keyDltad : CStr := chars ['d', 'l', 't', 'a', 'd']
def keyDltop : CStr := chars ['d', 'l', 't', 'o', 'p']
def keyExp : CStr := chars ['e', 'x', 'p']
def keySe : CStr := chars ['s', 'e']
def keySs : CStr := chars ['s', 's']
def keySt : CStr := chars ['s', 't']
def keySc : CStr := chars ['s', 'c']
def keySma : CStr := chars ['s', 'm', 'a']
def keySmi : CStr := chars ['s', 'm', 'i']
def keyNid : CStr := chars ['n', 'i', 'd']
def keyFid : CStr := chars ['f', 'i', 'd']
def keyUnit : CStr := chars ['u', 'n', 'i', 't']
def keyDesc : CStr := chars ['d', 'e', 's', 'c']

/-! ## The union of a record -/

/-- The union after its `modbus` fields were stored. -/
def ExtDataIOParam.setModbus (p : ExtDataIOParam) (m : ExtDataIOModbus) : ExtDataIOParam where
  w0 := (p.w0 &&& (0xffffff00 : UInt32)) ||| m.btOpCode.toUInt32
  w1 := m.nSyncFAddr.toUInt32
  w2 := (p.w2 &&& (0x0000ff00 : UInt32)) ||| m.btSlaveAddr.toUInt32 ||| (m.usExtAddr.toUInt32 <<< 16)
  w3 := (p.w3 &&& (0xffff0000 : UInt32)) ||| m.usAddrOfs.toUInt32

/-- The union after its `dlt645` fields were stored. -/
def ExtDataIOParam.setDlt645 (p : ExtDataIOParam) (m : ExtDataIODlt645) : ExtDataIOParam where
  w0 := m.addr.a0.toUInt32 ||| (m.addr.a1.toUInt32 <<< 8) ||| (m.addr.a2.toUInt32 <<< 16) |||
    (m.addr.a3.toUInt32 <<< 24)
  w1 := (p.w1 &&& (0xffff0000 : UInt32)) ||| m.addr.a4.toUInt32 ||| (m.addr.a5.toUInt32 <<< 8)
  w2 := m.op
  w3 := p.w3

/-- `HEX_CH_TO_NUM` in 8 bits. -/
def hexChToNum (c : UInt8) : UInt8 := if c ≤ 57 then c - 48 else c - 65 + 10

/-- A digit of `%X`. -/
def hexDigitX (n : UInt8) : UInt8 := if n < 10 then 48 + n else 55 + n

/-! ## Parsing -/

section Parse

variable {R : Type} [CNumber R]

/-- `field = cJSON_GetInt(item, key, field)` for the unsigned fields of 8, 16 and 32 bits. -/
def getU8 (item : Item R) (key : CStr) (field : UInt8) : UInt8 :=
  (getInt item key field.toUInt32.toInt32).toUInt32.toUInt8

def getU16 (item : Item R) (key : CStr) (field : UInt16) : UInt16 :=
  (getInt item key field.toUInt32.toInt32).toUInt32.toUInt16

def getU32 (item : Item R) (key : CStr) (field : UInt32) : UInt32 :=
  (getInt item key field.toInt32).toUInt32

/-- `itmp = cJSON_GetInt(item, key, -1); if (itmp >= 0) field = (itmp != 0);` -/
def getFlag (item : Item R) (key : CStr) (field : Bool) : Bool :=
  let itmp := getInt item key (-1)
  if 0 ≤ itmp then decide (itmp ≠ 0) else field

/-- `memset(field, 0, n); strncpy(field, str, n);` for the string at `key`, if there is one. -/
def getArray (item : Item R) (key : CStr) (n : Nat) (field : CStr) : CStr :=
  match getString item key with
  | some str => str.take n
  | none => field

/-- The string at `key`, if there is one, duplicated; an empty one is a null pointer. -/
def getStrdup (item : Item R) (key : CStr) (field : Option CStr) : Option CStr :=
  match getString item key with
  | some str => if str.length > 0 then some str else none
  | none => field

/-- `bUse = cJSON_GetObjectItem(item, key) ? RT_TRUE : RT_FALSE;` -/
def hasItem (item : Item R) (key : CStr) : Bool := (getObjectItem item key).isSome

/-- `if (bUse) field = (var_float_t)cJSON_GetDouble(item, key, field);` -/
def getFloatIf (item : Item R) (key : CStr) (field : R) : R :=
  if hasItem item key then CNumber.toFloat (getDouble item key field) else field

/-- `field = cJSON_GetDouble(item, key, field);` -/
def getFloat (item : Item R) (key : CStr) (field : R) : R :=
  CNumber.toFloat (getDouble item key field)

def parseModbus (pIo : Item R) (m : ExtDataIOModbus) : ExtDataIOModbus :=
  let btOpCode := getU8 pIo keyMbop m.btOpCode
  { btOpCode := if btOpCode = 0 then 3 else btOpCode
    nSyncFAddr := getInt pIo keySfa m.nSyncFAddr
    btSlaveAddr := getU8 pIo keySa m.btSlaveAddr
    usExtAddr := getU16 pIo keyEa m.usExtAddr
    usAddrOfs := getU16 pIo keyAo m.usAddrOfs }

/-- The byte of the two characters `2*i` and `2*i+1`. -/
def hexByte (addr_str : CStr) (i : Nat) : UInt8 :=
  (hexChToNum (addr_str.getD (2 * i) 0) <<< 4) + hexChToNum (addr_str.getD (2 * i + 1) 0)

def parseDltAddr (pIo : Item R) (addr : Dlt645Addr) : Dlt645Addr :=
  match getString pIo keyDltad with
  | some addr_str =>
      if addr_str.length = 12 then
        { a5 := hexByte addr_str 0
          a4 := hexByte addr_str 1
          a3 := hexByte addr_str 2
          a2 := hexByte addr_str 3
          a1 := hexByte addr_str 4
          a0 := hexByte addr_str 5 }
      else addr
  | none => addr

def parseDlt645 (pIo : Item R) (m : ExtDataIODlt645) : ExtDataIODlt645 where
  addr := parseDltAddr pIo m.addr
  op := getU32 pIo keyDltop m.op

def parseParam (pIo : Item R) (usDevType usProtoType : UInt16) (p : ExtDataIOParam) :
    ExtDataIOParam :=
  if protoIsModbus usDevType.toNat usProtoType.toNat then p.setModbus (parseModbus pIo p.modbus)
  else if protoIsDlt645 usDevType.toNat usProtoType.toNat then
    p.setDlt645 (parseDlt645 pIo p.dlt645)
  else p

def parseIo (pIo : Item R) (x : ExtDataIO R) : ExtDataIO R :=
  let usDevType := getU16 pIo keyDt x.usDevType
  let usProtoType := getU16 pIo keyPt x.usProtoType
  let btVarRuleType := getU8 pIo keyVrl x.btVarRuleType
  { x with
    btErrOp := getU8 pIo keyEop x.btErrOp
    btErrCnt := getU8 pIo keyEcnt x.btErrCnt
    btRWType := getU8 pIo keyRw x.btRWType
    btVarType := getU8 pIo keyVt x.btVarType
    btVarSize := getU8 pIo keyVs x.btVarSize
    btVarRuleType := if btVarRuleType ≥ 4 then 0 else btVarRuleType
    bUseMax := hasItem pIo keyVma
    bUseMin := hasItem pIo keyVmi
    bUseInit := hasItem pIo keyVii
    bUseRatio := hasItem pIo keyVrt
    fMax := getFloatIf pIo keyVma x.fMax
    fMin := getFloatIf pIo keyVmi x.fMin
    fInit := getFloatIf pIo keyVii x.fInit
    fRatio := getFloatIf pIo keyVrt x.fRatio
    usDevType := usDevType
    usDevNum := getU16 pIo keyDtn x.usDevNum
    usProtoType := usProtoType
    szProtoName := getStrdup pIo keyPnm x.szProtoName
    usAddr := getU16 pIo keyAd x.usAddr
    param := parseParam pIo usDevType usProtoType x.param
    szExp := getStrdup pIo keyExp x.szExp }

def parseStorage (pStorage : Item R) (x : ExtDataStorage R) : ExtDataStorage R :=
  { x with
    bEnable := getFlag pStorage keySe x.bEnable
    ulStep := getU32 pStorage keySs x.ulStep
    btType := getU8 pStorage keySt x.btType
    bCheck := getFlag pStorage keySc x.bCheck
    fMax := getFloat pStorage keySma x.fMax
    fMin := getFloat pStorage keySmi x.fMin }

def parseAlarm (pAlarm : Item R) (x : ExtDataAlarm) : ExtDataAlarm where
  bEnable := getFlag pAlarm keyEn x.bEnable

def parseUp (pUp : Item R) (x : ExtDataUp R) : ExtDataUp R :=
  { x with
    bEnable := getFlag pUp keyEn x.bEnable
    szNid := getStrdup pUp keyNid x.szNid
    szFid := getStrdup pUp keyFid x.szFid
    szUnit := getStrdup pUp keyUnit x.szUnit
    usDevType := getU16 pUp keyDt x.usDevType
    usDevNum := getU16 pUp keyDtn x.usDevNum
    usProtoType := getU16 pUp keyPt x.usProtoType
    szProtoName := getStrdup pUp keyPnm x.szProtoName
    szDesc := getStrdup pUp keyDesc x.szDesc }

/-- A section of the document, if it is there. -/
def parseSection {α : Type} (pItem : Item R) (key : CStr) (parse : Item R → α → α) (x : α) : α :=
  match getObjectItem pItem key with
  | some item => parse item x
  | none => x

/-- `jsonParseExtDataInfo` -/
def jsonParseExtDataInfo (pItem : Item R) (data : ExtData R) : ExtData R where
  bEnable := getFlag pItem keyEn data.bEnable
  szName := getArray pItem keyNa nameSize data.szName
  szAlias := getArray pItem keyAl aliasSize data.szAlias
  xIo := parseSection pItem keyIo parseIo data.xIo
  xStorage := parseSection pItem keyStorage parseStorage data.xStorage
  xAlarm := parseSection pItem keyAlarm parseAlarm data.xAlarm
  xUp := parseSection pItem keyUp parseUp data.xUp

/-- `VAR_MANAGE_CALLOC` of a record. -/
def zeroed : ExtData R := ExtData.zero (CNumber.ofInt 0)

/-! ## Filling -/

/-- The formats of `snprintf` for a value: `%d` or `%u` of a number, `%.4f` of a `float` and of
    a `double`. -/
structure Snprintf where
  int : Int → CStr
  float : UInt32 → CStr
  double : UInt64 → CStr

/-- `__getValAsStr` into `char szStr[24]`. -/
def getValAsStr (snprintf : Snprintf) (type : UInt8) (value : VarValue) : CStr :=
  (if type = eVarBit then snprintf.int (value 0).toNat
  else if type = eVarInt8 then snprintf.int (value 0).toInt8.toInt
  else if type = eVarUint8 then snprintf.int (value 0).toNat
  else if type = eVarInt16 then snprintf.int value.u16.toInt16.toInt
  else if type = eVarUint16 then snprintf.int value.u16.toNat
  else if type = eVarInt32 then snprintf.int value.u32.toInt32.toInt
  else if type = eVarUint32 then snprintf.int value.u32.toNat
  else if type = eVarFloat then snprintf.float value.u32
  else if type = eVarDouble then snprintf.double value.u64
  else if type = eVarArray then chars ['A', 'R', 'R', 'A', 'Y']
  else []).take 23

/-- `str ? str : ""` -/
def orEmpty (str : Option CStr) : Item R := .string (str.getD [])

/-- `%02X` -/
def hex02X (b : UInt8) : CStr := [hexDigitX (b / 16), hexDigitX (b % 16)]

def fillModbus (m : ExtDataIOModbus) : List (CStr × Item R) :=
  [(keyMbop, number m.btOpCode.toNat), (keySa, number m.btSlaveAddr.toNat),
    (keySfa, number m.nSyncFAddr.toInt), (keyEa, number m.usExtAddr.toNat),
    (keyAo, number m.usAddrOfs.toNat)]

/-- `"%02X%02X%02X%02X%02X%02X"` of the address. -/
def dltadStr (addr : Dlt645Addr) : CStr :=
  hex02X addr.a5 ++ hex02X addr.a4 ++ hex02X addr.a3 ++ hex02X addr.a2 ++ hex02X addr.a1 ++
    hex02X addr.a0

def fillDlt645 (m : ExtDataIODlt645) : List (CStr × Item R) :=
  [(keyDltad, .string (dltadStr m.addr)), (keyDltop, number m.op.toNat)]

def fillParam (x : ExtDataIO R) : List (CStr × Item R) :=
  if protoIsModbus x.usDevType.toNat x.usProtoType.toNat then fillModbus x.param.modbus
  else if protoIsDlt645 x.usDevType.toNat x.usProtoType.toNat then fillDlt645 x.param.dlt645
  else []

def fillType (x : ExtDataIO R) : List (CStr × Item R) :=
  [(keyEop, number x.btErrOp.toNat), (keyEcnt, number x.btErrCnt.toNat),
    (keyRw, number x.btRWType.toNat), (keyVt, number x.btVarType.toNat),
    (keyVs, number x.btVarSize.toNat), (keyVrl, number x.btVarRuleType.toNat)]

/-- The value, and the limits that are in use. -/
def fillLimits (snprintf : Snprintf) (x : ExtDataIO R) : List (CStr × Item R) :=
  let szStr := getValAsStr snprintf x.btVarType x.xValue
  addIf (decide (szStr ≠ [])) keyVa (.string szStr) ++ addIf x.bUseMax keyVma (.number x.fMax) ++
    addIf x.bUseMin keyVmi (.number x.fMin) ++ addIf x.bUseInit keyVii (.number x.fInit) ++
      addIf x.bUseRatio keyVrt (.number x.fRatio)

def fillDevice (x : ExtDataIO R) : List (CStr × Item R) :=
  [(keyDt, number x.usDevType.toNat), (keyDtn, number x.usDevNum.toNat),
    (keyPt, number x.usProtoType.toNat), (keyPnm, orEmpty x.szProtoName),
    (keyAd, number x.usAddr.toNat)]

def fillIo (snprintf : Snprintf) (x : ExtDataIO R) : Item R :=
  .object (fillType x ++ fillLimits snprintf x ++ fillDevice x ++ fillParam x ++
    [(keyExp, orEmpty x.szExp)])

def fillStorage (x : ExtDataStorage R) : Item R :=
  .object [(keySe, number x.bEnable.toNat), (keySs, number x.ulStep.toNat),
    (keySt, number x.btType.toNat), (keySc, number x.bCheck.toNat), (keySma, .number x.fMax),
    (keySmi, .number x.fMin)]

def fillAlarm (x : ExtDataAlarm) : Item R := .object [(keyEn, number x.bEnable.toNat)]

def fillUp (x : ExtDataUp R) : Item R :=
  .object [(keyEn, number x.bEnable.toNat), (keyNid, orEmpty x.szNid), (keyFid, orEmpty x.szFid),
    (keyUnit, orEmpty x.szUnit), (keyDt, number x.usDevType.toNat),
    (keyDtn, number x.usDevNum.toNat), (keyPt, number x.usProtoType.toNat),
    (keyPnm, orEmpty x.szProtoName), (keyDesc, orEmpty x.szDesc)]

/-- `jsonFillExtDataInfo` into an empty object. -/
def jsonFillExtDataInfo (snprintf : Snprintf) (data : ExtData R) : Item R :=
  .object [(keyEn, number data.bEnable.toNat), (keyNa, .string data.nameStr),
    (keyAl, .string data.aliasStr), (keyIo, fillIo snprintf data.xIo),
    (keyAlarm, fillAlarm data.xAlarm), (keyStorage, fillStorage data.xStorage),
    (keyUp, fillUp data.xUp)]

end Parse

/-! ## Reading back what was written -/

theorem modbus_setModbus (p : ExtDataIOParam) (m : ExtDataIOModbus) :
    (p.setModbus m).modbus = m := by
  obtain ⟨op, sfa, sa, ea, ao⟩ := m
  simp only [ExtDataIOParam.setModbus, ExtDataIOParam.modbus, ExtDataIOModbus.mk.injEq]
  refine ⟨?_, ?_, ?_, ?_, ?_⟩
  · apply UInt8.toBitVec_inj.mp
    simp
  · simp
  · apply UInt8.toBitVec_inj.mp
    simp
  · apply UInt16.toBitVec_inj.mp
    simp only [UInt32.toBitVec_toUInt16, UInt32.toBitVec_shiftRight]
    ext i hi
    interval_cases i <;> simp
  · apply UInt16.toBitVec_inj.mp
    simp

theorem dlt645_setDlt645 (p : ExtDataIOParam) (m : ExtDataIODlt645) :
    (p.setDlt645 m).dlt645 = m := by
  obtain ⟨⟨a0, a1, a2, a3, a4, a5⟩, op⟩ := m
  simp only [ExtDataIOParam.setDlt645, ExtDataIOParam.dlt645, ExtDataIODlt645.mk.injEq,
    Dlt645Addr.mk.injEq, and_true]
  refine ⟨?_, ?_, ?_, ?_, ?_, ?_⟩
  all_goals
    apply UInt8.toBitVec_inj.mp
    ext i hi
    interval_cases i <;> simp

theorem uint8_back (v : UInt8) : (Int32.ofInt v.toNat).toUInt32.toUInt8 = v := by
  apply UInt8.toBitVec_inj.mp
  simp

theorem uint16_back (v : UInt16) : (Int32.ofInt v.toNat).toUInt32.toUInt16 = v := by
  apply UInt16.toBitVec_inj.mp
  simp

theorem uint32_back (v : UInt32) : (Int32.ofInt v.toNat).toUInt32 = v := by
  apply UInt32.toBitVec_inj.mp
  simp

/-- The digits of a byte are read back to it. -/
theorem hexChToNum_hexDigitX (b : UInt8) :
    (hexChToNum (hexDigitX (b / 16)) <<< 4) + hexChToNum (hexDigitX (b % 16)) = b := by
  have hall : ∀ n < 256, (hexChToNum (hexDigitX (UInt8.ofNat n / 16)) <<< 4) +
      hexChToNum (hexDigitX (UInt8.ofNat n % 16)) = UInt8.ofNat n := by decide +kernel
  have hb := hall b.toNat b.toNat_lt
  rwa [UInt8.ofNat_toNat] at hb

section RoundTrip

variable {R : Type} [CNumber R]

/-- What comes back of a 32-bit number: `int` has no place for the upper half. -/
def reread (n : UInt32) : UInt32 := if n.toNat < 2147483648 then n else 2147483647

theorem reread_eq_iff (n : UInt32) : reread n = n ↔ n.toNat < 2147483648 := by
  unfold reread
  split
  · next h => exact iff_of_true rfl h
  · next h => exact iff_of_false (fun he => h (by rw [← he]; decide)) h

theorem getU8_number {item : Item R} {key : CStr} {v : UInt8}
    (h : getObjectItem item key = some (number v.toNat)) (field : UInt8) :
    getU8 item key field = v := by
  have hv := v.toNat_lt
  rw [getU8, getInt, h]
  show (CNumber.toInt (CNumber.ofInt (R := R) v.toNat)).toUInt32.toUInt8 = v
  rw [CNumber.toInt_ofInt _ (by omega) (by omega), uint8_back]

theorem getU16_number {item : Item R} {key : CStr} {v : UInt16}
    (h : getObjectItem item key = some (number v.toNat)) (field : UInt16) :
    getU16 item key field = v := by
  have hv := v.toNat_lt
  rw [getU16, getInt, h]
  show (CNumber.toInt (CNumber.ofInt (R := R) v.toNat)).toUInt32.toUInt16 = v
  rw [CNumber.toInt_ofInt _ (by omega) (by omega), uint16_back]

theorem getU32_number {item : Item R} {key : CStr} {v : UInt32}
    (h : getObjectItem item key = some (number v.toNat)) (field : UInt32) :
    getU32 item key field = reread v := by
  have hv := v.toNat_lt
  rw [getU32, getInt, h, reread]
  show (CNumber.toInt (CNumber.ofInt (R := R) v.toNat)).toUInt32 = _
  split
  · rw [CNumber.toInt_ofInt _ (by omega) (by omega), uint32_back]
  · rw [CNumber.toInt_ofInt_large _ (by omega) (by omega)]
    rfl

theorem getInt_number {item : Item R} {key : CStr} {v : Int32}
    (h : getObjectItem item key = some (number v.toInt)) (dflt : Int32) :
    getInt item key dflt = v := by
  have hlo := v.le_toInt
  have hhi := v.toInt_lt
  rw [getInt, h]
  show CNumber.toInt (CNumber.ofInt (R := R) v.toInt) = v
  rw [CNumber.toInt_ofInt _ (by omega) (by omega), Int32.ofInt_toInt]

theorem getFlag_number {item : Item R} {key : CStr} {b : Bool}
    (h : getObjectItem item key = some (number b.toNat)) (field : Bool) :
    getFlag item key field = b := by
  rw [getFlag, getInt, h]
  show (if 0 ≤ CNumber.toInt (CNumber.ofInt (R := R) b.toNat) then
    decide (CNumber.toInt (CNumber.ofInt (R := R) b.toNat) ≠ 0) else field) = b
  cases b <;> rw [CNumber.toInt_ofInt _ (by decide) (by decide)] <;> rfl

omit [CNumber R] in
/-- A string that is null or not empty comes back. -/
theorem getStrdup_orEmpty {item : Item R} {key : CStr} {str : Option CStr}
    (h : getObjectItem item key = some (orEmpty str)) (hne : str ≠ some []) (field : Option CStr) :
    getStrdup item key field = str := by
  rw [getStrdup, getString, h]
  show (if (str.getD []).length > 0 then some (str.getD []) else none) = str
  cases str with
  | none => rfl
  | some t =>
    have ht : t ≠ [] := fun he => hne (by rw [he])
    rw [Option.getD_some, if_pos (List.length_pos_iff.mpr ht)]

omit [CNumber R] in
theorem getStrdup_ne (item : Item R) (key : CStr) {field : Option CStr} (h : field ≠ some []) :
    getStrdup item key field ≠ some [] := by
  unfold getStrdup
  split
  · split
    · next str hlen =>
      intro he
      rw [Option.some.inj he] at hlen
      exact absurd hlen (by decide)
    · exact fun he => nomatch he
  · exact h

theorem getFloat_number {item : Item R} {key : CStr} {x : R}
    (h : getObjectItem item key = some (.number x)) (hx : CNumber.toFloat x = x) (field : R) :
    getFloat item key field = x := by
  rw [getFloat, getDouble, h]
  exact hx

/-- A limit that is in use is a `float`, and one that is not is zero. -/
def Limit (bUse : Bool) (x : R) : Prop :=
  if bUse then CNumber.toFloat x = x else x = CNumber.ofInt 0

theorem limit_getFloatIf (item : Item R) (key : CStr) :
    Limit (hasItem item key) (getFloatIf item key (CNumber.ofInt 0)) := by
  unfold Limit getFloatIf
  split
  · exact CNumber.toFloat_toFloat _
  · rfl

theorem getFloatIf_addIf {item : Item R} {key : CStr} {bUse : Bool} {x : R}
    (h : getObjectItem item key = if bUse then some (.number x) else none) (hx : Limit bUse x) :
    hasItem item key = bUse ∧ getFloatIf item key (CNumber.ofInt 0) = x := by
  unfold getFloatIf getDouble hasItem
  rw [h]
  cases bUse with
  | false => exact ⟨rfl, hx.symm⟩
  | true => exact ⟨rfl, hx⟩

/-- None of the optional keys. -/
def required (key : CStr) : Bool :=
  !(strcaseeq keyVa key || strcaseeq keyVma key || strcaseeq keyVmi key || strcaseeq keyVii key ||
    strcaseeq keyVrt key)

omit [CNumber R] in
theorem member_fillLimits (snprintf : Snprintf) (x : ExtDataIO R) {key : CStr}
    (h : required key = true) : member key (fillLimits snprintf x) = none := by
  simp only [required, Bool.not_eq_true', Bool.or_eq_false_iff] at h
  obtain ⟨⟨⟨⟨hva, hvma⟩, hvmi⟩, hvii⟩, hvrt⟩ := h
  unfold fillLimits
  simp only [member_append, member_addIf, hva, hvma, hvmi, hvii, hvrt]
  rfl

theorem getObjectItem_fillType (snprintf : Snprintf) (x : ExtDataIO R) {key : CStr} {c : Item R}
    (h : member key (fillType x) = some c) : getObjectItem (fillIo snprintf x) key = some c := by
  unfold fillIo getObjectItem
  simp only [member_append, h, Option.some_or]

/-- What is behind the optional children. -/
theorem getObjectItem_fillDevice (snprintf : Snprintf) (x : ExtDataIO R) {key : CStr}
    (htype : member key (fillType x) = none) (hrequired : required key = true) :
    getObjectItem (fillIo snprintf x) key =
      ((member key (fillDevice x)).or (member key (fillParam x))).or
        (member key [(keyExp, orEmpty x.szExp)]) := by
  unfold fillIo getObjectItem
  simp only [member_append, htype, member_fillLimits snprintf x hrequired, Option.none_or]

theorem getObjectItem_exp (snprintf : Snprintf) (x : ExtDataIO R) :
    getObjectItem (fillIo snprintf x) keyExp = some (orEmpty x.szExp) := by
  rw [getObjectItem_fillDevice snprintf x rfl rfl]
  unfold fillParam
  split_ifs <;> rfl

/-- The limits are the children that may be missing. -/
theorem getObjectItem_fillLimits (snprintf : Snprintf) (x : ExtDataIO R) :
    getObjectItem (fillIo snprintf x) keyVma =
        (if x.bUseMax then some (.number x.fMax) else none) ∧
      getObjectItem (fillIo snprintf x) keyVmi =
        (if x.bUseMin then some (.number x.fMin) else none) ∧
      getObjectItem (fillIo snprintf x) keyVii =
        (if x.bUseInit then some (.number x.fInit) else none) ∧
      getObjectItem (fillIo snprintf x) keyVrt =
        (if x.bUseRatio then some (.number x.fRatio) else none) := by
  have hother {key : CStr} (htype : member key (fillType x) = none)
      (hdevice : member key (fillDevice x) = none) (hparam : member key (fillParam x) = none)
      (hexp : member key [(keyExp, orEmpty (R := R) x.szExp)] = none) :
      getObjectItem (fillIo snprintf x) key = member key (fillLimits snprintf x) := by
    unfold fillIo getObjectItem
    simp only [member_append, htype, hdevice, hparam, hexp, Option.none_or, Option.or_none]
  have hlimit (key : CStr) : member key (fillLimits snprintf x) =
      ((((if strcaseeq keyVa key && decide (getValAsStr snprintf x.btVarType x.xValue ≠ []) then
        some (.string (getValAsStr snprintf x.btVarType x.xValue)) else none).or
        (if strcaseeq keyVma key && x.bUseMax then some (.number x.fMax) else none)).or
        (if strcaseeq keyVmi key && x.bUseMin then some (.number x.fMin) else none)).or
        (if strcaseeq keyVii key && x.bUseInit then some (.number x.fInit) else none)).or
        (if strcaseeq keyVrt key && x.bUseRatio then some (.number x.fRatio) else none) := by
    unfold fillLimits
    simp only [member_append, member_addIf]
  have hparam {key : CStr} (hmodbus : member key (fillModbus (R := R) x.param.modbus) = none)
      (hdlt : member key (fillDlt645 (R := R) x.param.dlt645) = none) :
      member key (fillParam x) = none := by
    unfold fillParam
    split_ifs
    · exact hmodbus
    · exact hdlt
    · rfl
  refine ⟨?_, ?_, ?_, ?_⟩
  · rw [hother rfl rfl (hparam rfl rfl) rfl, hlimit]
    cases x.bUseMax <;> rfl
  · rw [hother rfl rfl (hparam rfl rfl) rfl, hlimit]
    cases x.bUseMin <;> rfl
  · rw [hother rfl rfl (hparam rfl rfl) rfl, hlimit]
    cases x.bUseInit <;> rfl
  · rw [hother rfl rfl (hparam rfl rfl) rfl, hlimit]
    cases x.bUseRatio <;> rfl

omit [CNumber R] in
theorem parseDltAddr_dltadStr {item : Item R} {addr : Dlt645Addr}
    (h : getString item keyDltad = some (dltadStr addr)) (field : Dlt645Addr) :
    parseDltAddr item field = addr := by
  obtain ⟨a0, a1, a2, a3, a4, a5⟩ := addr
  rw [parseDltAddr, h]
  show Dlt645Addr.mk _ _ _ _ _ _ = _
  rw [Dlt645Addr.mk.injEq]
  exact ⟨hexChToNum_hexDigitX a0, hexChToNum_hexDigitX a1, hexChToNum_hexDigitX a2,
    hexChToNum_hexDigitX a3, hexChToNum_hexDigitX a4, hexChToNum_hexDigitX a5⟩

/-- An io section that was parsed into a zeroed record. -/
structure ExtDataIO.Parsed (x : ExtDataIO R) : Prop where
  rule : x.btVarRuleType < 4
  value : x.xValue = fun _ => 0
  errNum : x.btErrNum = 0
  max : Limit x.bUseMax x.fMax
  min : Limit x.bUseMin x.fMin
  init : Limit x.bUseInit x.fInit
  ratio : Limit x.bUseRatio x.fRatio
  proto : x.szProtoName ≠ some []
  exp : x.szExp ≠ some []

theorem parsed_parseIo (pIo : Item R) : (parseIo pIo (zeroed (R := R)).xIo).Parsed where
  rule := by
    show (if getU8 pIo keyVrl 0 ≥ 4 then 0 else getU8 pIo keyVrl 0) < 4
    split
    · decide
    · next h => exact UInt8.not_le.mp h
  value := rfl
  errNum := rfl
  max := limit_getFloatIf pIo keyVma
  min := limit_getFloatIf pIo keyVmi
  init := limit_getFloatIf pIo keyVii
  ratio := limit_getFloatIf pIo keyVrt
  proto := getStrdup_ne pIo keyPnm (by simp [zeroed, ExtData.zero])
  exp := getStrdup_ne pIo keyExp (by simp [zeroed, ExtData.zero])

theorem parsed_zeroed_io : (zeroed (R := R)).xIo.Parsed where
  rule := (by decide : (0 : UInt8) < 4)
  value := rfl
  errNum := rfl
  max := rfl
  min := rfl
  init := rfl
  ratio := rfl
  proto := fun h => nomatch h
  exp := fun h => nomatch h

/-- The parameters that come back. -/
theorem parseParam_fillIo (snprintf : Snprintf) (x : ExtDataIO R) :
    parseParam (fillIo snprintf x) x.usDevType x.usProtoType ⟨0, 0, 0, 0⟩ =
      if protoIsModbus x.usDevType.toNat x.usProtoType.toNat then
        ExtDataIOParam.setModbus ⟨0, 0, 0, 0⟩
          { x.param.modbus with
            btOpCode := if x.param.modbus.btOpCode = 0 then 3 else x.param.modbus.btOpCode }
      else if protoIsDlt645 x.usDevType.toNat x.usProtoType.toNat then
        ExtDataIOParam.setDlt645 ⟨0, 0, 0, 0⟩
          { x.param.dlt645 with op := reread x.param.dlt645.op }
      else ⟨0, 0, 0, 0⟩ := by
  have hitem {key : CStr} (htype : member key (fillType x) = none)
      (hrequired : required key = true) (hdevice : member key (fillDevice x) = none)
      {c : Item R} (hparam : member key (fillParam x) = some c) :
      getObjectItem (fillIo snprintf x) key = some c := by
    rw [getObjectItem_fillDevice snprintf x htype hrequired, hdevice, hparam]
    rfl
  unfold parseParam
  by_cases hmodbus : protoIsModbus x.usDevType.toNat x.usProtoType.toNat = true
  · rw [if_pos hmodbus, if_pos hmodbus]
    have hfill : fillParam x = fillModbus x.param.modbus := by rw [fillParam, if_pos hmodbus]
    have hmbop : getObjectItem (fillIo snprintf x) keyMbop = some _ :=
      hitem rfl rfl rfl (by rw [hfill]; rfl)
    have hsa : getObjectItem (fillIo snprintf x) keySa = some _ :=
      hitem rfl rfl rfl (by rw [hfill]; rfl)
    have hsfa : getObjectItem (fillIo snprintf x) keySfa = some _ :=
      hitem rfl rfl rfl (by rw [hfill]; rfl)
    have hea : getObjectItem (fillIo snprintf x) keyEa = some _ :=
      hitem rfl rfl rfl (by rw [hfill]; rfl)
    have hao : getObjectItem (fillIo snprintf x) keyAo = some _ :=
      hitem rfl rfl rfl (by rw [hfill]; rfl)
    unfold parseModbus
    rw [getU8_number hmbop, getU8_number hsa, getInt_number hsfa, getU16_number hea,
      getU16_number hao]
  · rw [if_neg hmodbus, if_neg hmodbus]
    by_cases hdlt : protoIsDlt645 x.usDevType.toNat x.usProtoType.toNat = true
    · rw [if_pos hdlt, if_pos hdlt]
      have hfill : fillParam x = fillDlt645 x.param.dlt645 := by
        rw [fillParam, if_neg hmodbus, if_pos hdlt]
      have hdltad : getObjectItem (fillIo snprintf x) keyDltad = some _ :=
        hitem rfl rfl rfl (by rw [hfill]; rfl)
      have hdltop : getObjectItem (fillIo snprintf x) keyDltop = some _ :=
        hitem rfl rfl rfl (by rw [hfill]; rfl)
      unfold parseDlt645
      rw [getU32_number hdltop, parseDltAddr_dltadStr (by rw [getString, hdltad]; rfl)]
    · rw [if_neg hdlt, if_neg hdlt]

/-- An io section comes back but for its parameters. -/
theorem parseIo_fillIo (snprintf : Snprintf) {x : ExtDataIO R} (h : x.Parsed) :
    parseIo (fillIo snprintf x) (zeroed (R := R)).xIo =
      { x with param :=
          parseParam (fillIo snprintf x) x.usDevType x.usProtoType ⟨0, 0, 0, 0⟩ } := by
  obtain ⟨hvma, hvmi, hvii, hvrt⟩ := getObjectItem_fillLimits snprintf x
  obtain ⟨hUseMax, hMax⟩ := getFloatIf_addIf hvma h.max
  obtain ⟨hUseMin, hMin⟩ := getFloatIf_addIf hvmi h.min
  obtain ⟨hUseInit, hInit⟩ := getFloatIf_addIf hvii h.init
  obtain ⟨hUseRatio, hRatio⟩ := getFloatIf_addIf hvrt h.ratio
  have heop := @getObjectItem_fillType R _ snprintf x keyEop _ rfl
  have hecnt := @getObjectItem_fillType R _ snprintf x keyEcnt _ rfl
  have hrw := @getObjectItem_fillType R _ snprintf x keyRw _ rfl
  have hvt := @getObjectItem_fillType R _ snprintf x keyVt _ rfl
  have hvs := @getObjectItem_fillType R _ snprintf x keyVs _ rfl
  have hvrl := @getObjectItem_fillType R _ snprintf x keyVrl _ rfl
  have hdt := @getObjectItem_fillDevice R _ snprintf x keyDt rfl rfl
  have hdtn := @getObjectItem_fillDevice R _ snprintf x keyDtn rfl rfl
  have hpt := @getObjectItem_fillDevice R _ snprintf x keyPt rfl rfl
  have hpnm := @getObjectItem_fillDevice R _ snprintf x keyPnm rfl rfl
  have had := @getObjectItem_fillDevice R _ snprintf x keyAd rfl rfl
  have hexp := getObjectItem_exp snprintf x
  unfold parseIo
  dsimp only
  rw [getU8_number heop, getU8_number hecnt, getU8_number hrw, getU8_number hvt,
    getU8_number hvs, getU8_number hvrl, getU16_number hdt, getU16_number hdtn,
    getU16_number hpt, getU16_number had, getStrdup_orEmpty hpnm h.proto,
    getStrdup_orEmpty hexp h.exp, hUseMax, hUseMin, hUseInit, hUseRatio,
    if_neg (UInt8.not_le.mpr h.rule)]
  rw [h.value, h.errNum]
  conv_rhs => rw [← hMax, ← hMin, ← hInit, ← hRatio]
  rfl

/-- The parameters that were parsed are those of the protocol. -/
theorem param_parseIo (pIo : Item R) :
    (parseIo pIo (zeroed (R := R)).xIo).param =
      parseParam pIo (getU16 pIo keyDt 0) (getU16 pIo keyPt 0) ⟨0, 0, 0, 0⟩ := rfl

theorem toUInt32_lt_iff (v : Int32) : v.toUInt32.toNat < 2147483648 ↔ 0 ≤ v := by
  rw [Int32.le_iff_toInt_le, ← Int32.toInt_toBitVec v, BitVec.toInt_eq_toNat_cond]
  have hv : v.toBitVec.toNat = v.toUInt32.toNat := rfl
  have hlt := v.toUInt32.toNat_lt
  rw [hv]
  show _ ↔ 0 ≤ _
  split <;> omega

/-- The operation of a DLT645 variable fits in `int`. -/
def DltopFits (pIo : Item R) : Prop :=
  protoIsModbus (getU16 pIo keyDt 0).toNat (getU16 pIo keyPt 0).toNat = false →
    protoIsDlt645 (getU16 pIo keyDt 0).toNat (getU16 pIo keyPt 0).toNat = true →
      0 ≤ getInt pIo keyDltop 0

omit [CNumber R] in
theorem ExtDataIO.param_eq_iff (x : ExtDataIO R) (q : ExtDataIOParam) :
    { x with param := q } = x ↔ q = x.param := by
  constructor
  · intro h
    rw [← h]
  · intro h
    rw [h]

theorem parseIo_back_iff (snprintf : Snprintf) (pIo : Item R) :
    parseIo (fillIo snprintf (parseIo pIo zeroed.xIo)) (zeroed (R := R)).xIo =
      parseIo pIo zeroed.xIo ↔ DltopFits pIo := by
  rw [parseIo_fillIo snprintf (parsed_parseIo pIo), ExtDataIO.param_eq_iff, parseParam_fillIo,
    param_parseIo]
  show (if protoIsModbus (getU16 pIo keyDt 0).toNat (getU16 pIo keyPt 0).toNat then _
    else if protoIsDlt645 (getU16 pIo keyDt 0).toNat (getU16 pIo keyPt 0).toNat then _
    else _) = _ ↔ _
  unfold DltopFits parseParam
  by_cases hmodbus : protoIsModbus (getU16 pIo keyDt 0).toNat (getU16 pIo keyPt 0).toNat = true
  · -- the operation code of what was parsed is not zero
    rw [if_pos hmodbus, if_pos hmodbus, modbus_setModbus]
    refine iff_of_true ?_ (fun hfalse => absurd hmodbus (by rw [hfalse]; decide))
    have hop : (parseModbus pIo (ExtDataIOParam.modbus ⟨0, 0, 0, 0⟩)).btOpCode ≠ 0 := by
      unfold parseModbus
      dsimp only
      split
      · decide
      · assumption
    rw [if_neg hop]
  · rw [if_neg hmodbus, if_neg hmodbus]
    by_cases hdlt : protoIsDlt645 (getU16 pIo keyDt 0).toNat (getU16 pIo keyPt 0).toNat = true
    · rw [if_pos hdlt, if_pos hdlt, dlt645_setDlt645]
      have hfits : reread (parseDlt645 pIo (ExtDataIOParam.dlt645 ⟨0, 0, 0, 0⟩)).op =
          (parseDlt645 pIo (ExtDataIOParam.dlt645 ⟨0, 0, 0, 0⟩)).op ↔
            0 ≤ getInt pIo keyDltop 0 := by
        rw [reread_eq_iff]
        exact toUInt32_lt_iff (getInt pIo keyDltop 0)
      constructor
      · intro h _ _
        have hdlt645 := congrArg ExtDataIOParam.dlt645 h
        rw [dlt645_setDlt645, dlt645_setDlt645] at hdlt645
        exact hfits.mp (congrArg ExtDataIODlt645.op hdlt645)
      · intro h
        rw [hfits.mpr (h (Bool.eq_false_iff.mpr hmodbus) hdlt)]
    · rw [if_neg hdlt, if_neg hdlt]
      exact iff_of_true rfl (fun _ h => absurd h hdlt)

/-- A storage section that was parsed into a zeroed record. -/
structure ExtDataStorage.Parsed (x : ExtDataStorage R) : Prop where
  avgReal : x.xAvgReal = VarAvg.zero (CNumber.ofInt 0)
  avgMin : x.xAvgMin = VarAvg.zero (CNumber.ofInt 0)
  avgHour : x.xAvgHour = VarAvg.zero (CNumber.ofInt 0)
  max : CNumber.toFloat x.fMax = x.fMax
  min : CNumber.toFloat x.fMin = x.fMin

theorem parsed_zeroed_storage : (zeroed (R := R)).xStorage.Parsed where
  avgReal := rfl
  avgMin := rfl
  avgHour := rfl
  max := CNumber.toFloat_zero
  min := CNumber.toFloat_zero

theorem parsed_parseStorage (pStorage : Item R) :
    (parseStorage pStorage (zeroed (R := R)).xStorage).Parsed where
  avgReal := rfl
  avgMin := rfl
  avgHour := rfl
  max := CNumber.toFloat_toFloat _
  min := CNumber.toFloat_toFloat _

theorem parseStorage_fillStorage {x : ExtDataStorage R} (h : x.Parsed) :
    parseStorage (fillStorage x) (zeroed (R := R)).xStorage =
      { x with ulStep := reread x.ulStep } := by
  have hse : getObjectItem (fillStorage x) keySe = some _ := rfl
  have hss : getObjectItem (fillStorage x) keySs = some _ := rfl
  have hst : getObjectItem (fillStorage x) keySt = some _ := rfl
  have hsc : getObjectItem (fillStorage x) keySc = some _ := rfl
  have hsma : getObjectItem (fillStorage x) keySma = some _ := rfl
  have hsmi : getObjectItem (fillStorage x) keySmi = some _ := rfl
  unfold parseStorage
  rw [getFlag_number hse, getU32_number hss, getU8_number hst, getFlag_number hsc,
    getFloat_number hsma h.max, getFloat_number hsmi h.min, h.avgReal, h.avgMin, h.avgHour]
  rfl

theorem parseStorage_back_iff (pStorage : Item R) :
    parseStorage (fillStorage (parseStorage pStorage zeroed.xStorage))
        (zeroed (R := R)).xStorage = parseStorage pStorage zeroed.xStorage ↔
      0 ≤ getInt pStorage keySs 0 := by
  rw [parseStorage_fillStorage (parsed_parseStorage pStorage), ← toUInt32_lt_iff,
    ← reread_eq_iff]
  constructor
  · intro h
    exact congrArg ExtDataStorage.ulStep h
  · intro h
    show { parseStorage pStorage (zeroed (R := R)).xStorage with
      ulStep := reread (getInt pStorage keySs 0).toUInt32 } = _
    rw [h]
    rfl

theorem parseAlarm_fillAlarm (x field : ExtDataAlarm) :
    parseAlarm (fillAlarm (R := R) x) field = x := by
  have hen : getObjectItem (fillAlarm (R := R) x) keyEn = some _ := rfl
  unfold parseAlarm
  rw [getFlag_number hen]

/-- An up section that was parsed into a zeroed record. -/
structure ExtDataUp.Parsed (x : ExtDataUp R) : Prop where
  avgUp : x.xAvgUp = VarAvg.zero (CNumber.ofInt 0)
  avgMin : x.xAvgMin = VarAvg.zero (CNumber.ofInt 0)
  avgHour : x.xAvgHour = VarAvg.zero (CNumber.ofInt 0)
  nid : x.szNid ≠ some []
  fid : x.szFid ≠ some []
  unit : x.szUnit ≠ some []
  proto : x.szProtoName ≠ some []
  desc : x.szDesc ≠ some []

theorem parsed_zeroed_up : (zeroed (R := R)).xUp.Parsed where
  avgUp := rfl
  avgMin := rfl
  avgHour := rfl
  nid := fun h => nomatch h
  fid := fun h => nomatch h
  unit := fun h => nomatch h
  proto := fun h => nomatch h
  desc := fun h => nomatch h

theorem ExtDataUp.Parsed.parseUp {x : ExtDataUp R} (h : x.Parsed) (pUp : Item R) :
    (parseUp pUp x).Parsed where
  avgUp := h.avgUp
  avgMin := h.avgMin
  avgHour := h.avgHour
  nid := getStrdup_ne pUp keyNid h.nid
  fid := getStrdup_ne pUp keyFid h.fid
  unit := getStrdup_ne pUp keyUnit h.unit
  proto := getStrdup_ne pUp keyPnm h.proto
  desc := getStrdup_ne pUp keyDesc h.desc

theorem parseUp_fillUp {x : ExtDataUp R} (h : x.Parsed) :
    parseUp (fillUp x) (zeroed (R := R)).xUp = x := by
  have hen : getObjectItem (fillUp x) keyEn = some _ := rfl
  have hnid : getObjectItem (fillUp x) keyNid = some _ := rfl
  have hfid : getObjectItem (fillUp x) keyFid = some _ := rfl
  have hunit : getObjectItem (fillUp x) keyUnit = some _ := rfl
  have hdt : getObjectItem (fillUp x) keyDt = some _ := rfl
  have hdtn : getObjectItem (fillUp x) keyDtn = some _ := rfl
  have hpt : getObjectItem (fillUp x) keyPt = some _ := rfl
  have hpnm : getObjectItem (fillUp x) keyPnm = some _ := rfl
  have hdesc : getObjectItem (fillUp x) keyDesc = some _ := rfl
  have havgUp : (zeroed (R := R)).xUp.xAvgUp = x.xAvgUp := h.avgUp.symm
  have havgMin : (zeroed (R := R)).xUp.xAvgMin = x.xAvgMin := h.avgMin.symm
  have havgHour : (zeroed (R := R)).xUp.xAvgHour = x.xAvgHour := h.avgHour.symm
  unfold parseUp
  rw [getFlag_number hen, getStrdup_orEmpty hnid h.nid, getStrdup_orEmpty hfid h.fid,
    getStrdup_orEmpty hunit h.unit, getU16_number hdt, getU16_number hdtn, getU16_number hpt,
    getStrdup_orEmpty hpnm h.proto, getStrdup_orEmpty hdesc h.desc, havgUp, havgMin, havgHour]

omit [CNumber R] in
theorem parseSection_of {α : Type} {P : α → Prop} (pItem : Item R) (key : CStr)
    {parse : Item R → α → α} {x : α} (hx : P x) (hparse : ∀ item, P (parse item x)) :
    P (parseSection pItem key parse x) := by
  unfold parseSection
  split
  · exact hparse _
  · exact hx

omit [CNumber R] in
theorem getArray_length_le (item : Item R) (key : CStr) (n : Nat) :
    (getArray item key n []).length ≤ n := by
  unfold getArray
  split
  · rw [List.length_take]
    exact Nat.min_le_left ..
  · exact Nat.zero_le n

omit [CNumber R] in
/-- A name comes back also where it runs on into the alias. -/
theorem take_nameStr {data : ExtData R} (h : data.szName.length ≤ nameSize) :
    data.nameStr.take nameSize = data.szName := by
  unfold ExtData.nameStr
  split
  · exact List.take_of_length_le h
  · next hlt => rw [List.take_append_of_le_length (Nat.le_of_not_lt hlt),
      List.take_of_length_le h]

/-- All but the io and the storage section comes back. -/
theorem parse_fill (snprintf : Snprintf) {data : ExtData R}
    (hname : data.szName.length ≤ nameSize) (halias : data.szAlias.length ≤ aliasSize)
    (hup : data.xUp.Parsed) :
    jsonParseExtDataInfo (jsonFillExtDataInfo snprintf data) zeroed =
      { data with
        xIo := parseIo (fillIo snprintf data.xIo) zeroed.xIo
        xStorage := parseStorage (fillStorage data.xStorage) zeroed.xStorage } := by
  have hen : getObjectItem (jsonFillExtDataInfo snprintf data) keyEn = some _ := rfl
  have hna : getArray (jsonFillExtDataInfo snprintf data) keyNa nameSize [] = data.szName :=
    take_nameStr hname
  have hal : getArray (jsonFillExtDataInfo snprintf data) keyAl aliasSize [] = data.szAlias :=
    List.take_of_length_le halias
  have hxUp : parseSection (jsonFillExtDataInfo snprintf data) keyUp parseUp zeroed.xUp =
      data.xUp := parseUp_fillUp hup
  have hxAlarm : parseSection (jsonFillExtDataInfo snprintf data) keyAlarm parseAlarm
      (zeroed (R := R)).xAlarm = data.xAlarm := parseAlarm_fillAlarm data.xAlarm _
  show ExtData.mk (getFlag _ keyEn _) (getArray _ keyNa nameSize []) (getArray _ keyAl aliasSize [])
    _ (parseSection _ keyAlarm parseAlarm _) _ (parseSection _ keyUp parseUp _) = _
  rw [getFlag_number hen, hna, hal, hxAlarm, hxUp]
  rfl

/-- The document has an io section, and no number in it is too large for `int` when it is
    exported. -/
structure Exportable (doc : Item R) : Prop where
  io : ∃ pIo, getObjectItem doc keyIo = some pIo ∧ DltopFits pIo
  step : ∀ pStorage, getObjectItem doc keyStorage = some pStorage → 0 ≤ getInt pStorage keySs 0

/-- Without an io section the operation code is zero, but it comes back as 3. -/
theorem io_back_iff (snprintf : Snprintf) (doc : Item R) :
    parseIo (fillIo snprintf (parseSection doc keyIo parseIo zeroed.xIo)) (zeroed (R := R)).xIo =
        parseSection doc keyIo parseIo zeroed.xIo ↔
      ∃ pIo, getObjectItem doc keyIo = some pIo ∧ DltopFits pIo := by
  cases hio : getObjectItem doc keyIo with
  | some pIo =>
    rw [parseSection, hio]
    show parseIo (fillIo snprintf (parseIo pIo zeroed.xIo)) (zeroed (R := R)).xIo = _ ↔ _
    rw [parseIo_back_iff]
    constructor
    · intro h
      exact ⟨pIo, rfl, h⟩
    · rintro ⟨pIo', hpIo', h⟩
      rwa [Option.some.inj hpIo']
  | none =>
    rw [parseSection, hio]
    refine iff_of_false ?_ (fun ⟨_, h, _⟩ => nomatch h)
    show ¬ parseIo (fillIo snprintf zeroed.xIo) (zeroed (R := R)).xIo = _
    rw [parseIo_fillIo snprintf parsed_zeroed_io, ExtDataIO.param_eq_iff, parseParam_fillIo]
    have hmodbus : protoIsModbus (zeroed (R := R)).xIo.usDevType.toNat
        (zeroed (R := R)).xIo.usProtoType.toNat = true := rfl
    have hop : (zeroed (R := R)).xIo.param.modbus.btOpCode = 0 := rfl
    rw [if_pos hmodbus, if_pos hop]
    intro h
    have hback := congrArg (fun p => p.modbus.btOpCode) h
    dsimp only at hback
    rw [modbus_setModbus, hop] at hback
    exact absurd (show (3 : UInt8) = 0 from hback) (by decide)

theorem storage_back_iff (doc : Item R) :
    parseStorage (fillStorage (parseSection doc keyStorage parseStorage zeroed.xStorage))
        (zeroed (R := R)).xStorage = parseSection doc keyStorage parseStorage zeroed.xStorage ↔
      ∀ pStorage, getObjectItem doc keyStorage = some pStorage → 0 ≤ getInt pStorage keySs 0 := by
  cases hstorage : getObjectItem doc keyStorage with
  | some pStorage =>
    rw [parseSection, hstorage]
    show parseStorage (fillStorage (parseStorage pStorage zeroed.xStorage))
      (zeroed (R := R)).xStorage = _ ↔ _
    rw [parseStorage_back_iff]
    constructor
    · intro h pStorage' hpStorage'
      rwa [← Option.some.inj hpStorage']
    · intro h
      exact h pStorage rfl
  | none =>
    rw [parseSection, hstorage]
    refine iff_of_true ?_ (fun _ h => nomatch h)
    exact parseStorage_fillStorage parsed_zeroed_storage

theorem extDataInfo_roundTrip (snprintf : Snprintf) (doc : Item R) :
    jsonParseExtDataInfo (jsonFillExtDataInfo snprintf (jsonParseExtDataInfo doc zeroed)) zeroed =
      jsonParseExtDataInfo doc zeroed ↔ Exportable doc := by
  rw [parse_fill snprintf (getArray_length_le doc keyNa nameSize)
    (getArray_length_le doc keyAl aliasSize)
    (parseSection_of doc keyUp parsed_zeroed_up (fun item => parsed_zeroed_up.parseUp item))]
  have hio := io_back_iff snprintf doc
  have hstorage := storage_back_iff doc
  constructor
  · intro h
    exact ⟨hio.mp (congrArg ExtData.xIo h), hstorage.mp (congrArg ExtData.xStorage h)⟩
  · intro h
    show { jsonParseExtDataInfo doc zeroed with
      xIo := parseIo (fillIo snprintf (parseSection doc keyIo parseIo zeroed.xIo)) zeroed.xIo
      xStorage := parseStorage
        (fillStorage (parseSection doc keyStorage parseStorage zeroed.xStorage))
        zeroed.xStorage } = jsonParseExtDataInfo doc zeroed
    rw [hio.mpr h.io, hstorage.mpr h.step]
    rfl

/-- A document that gives a name only. -/
theorem extDataInfo_roundTrip_name_only :
    ¬ ∀ (snprintf : Snprintf) (doc : Item Int),
      jsonParseExtDataInfo (jsonFillExtDataInfo snprintf (jsonParseExtDataInfo doc zeroed))
        zeroed = jsonParseExtDataInfo doc zeroed := by
  intro h
  have hback := congrArg (fun data => data.xIo.param.modbus.btOpCode)
    (h ⟨fun _ => [], fun _ => [], fun _ => []⟩ (.object [(keyNa, .string (chars ['T', '1']))]))
  exact absurd hback (by decide)

end RoundTrip

end K64Gateway.VarManage
