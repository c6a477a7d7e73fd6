import K64Gateway.Lib.RegisterBytes
import K64Gateway.Modbus.HoldingDo
import K64Gateway.VarManage.SlaveWrite

/-
  `eMBRegHoldingCB` of `freemodbus/port/user_mb_app.c` for all its register areas. A first pass
  copies the area that the address lies in, the bytes are read from the copy or written to it, and
  a second pass stores it. The mapped registers of the variables are used in their place.

  Proved: a call that fails changes nothing, and a write of outputs sets those that it addresses
  and is read back as it was written (`eMBRegHoldingCB_spec`).
-/

namespace K64Gateway.Modbus

open RegisterBytes
open VarManage (htons Polled PollEnv MasterPorts WriteRequest VarReal)

/-! ## The areas -/

/-- The areas of the registers, in the order of the tests. -/
inductive Area where
  | devInfo
  | ai
  | di
  | dout
  | netCfg
  | extData
deriving DecidableEq

/-- `USER_REG_…_START` -/
def Area.start : Area → Nat
  | devInfo => 10
  | ai => 50
  | di => 70
  | dout => userRegDoStart
  | netCfg => 100
  | extData => VarManage.userRegExtDataStart

/-- `USER_REG_…_END` -/
def Area.last : Area → Nat
  | devInfo => 36
  | ai => 65
  | di => 77
  | dout => userRegDoEnd
  | netCfg => 133
  | extData => VarManage.userRegExtDataEnd

/-- `USER_REG_…_SIZE` -/
def Area.size (a : Area) : Nat := a.last - a.start + 1

/-- `MB_IN_USER_REG` -/
def Area.Has (a : Area) (ad n : UInt16) : Prop :=
  a.start ≤ ad.toNat ∧ ad.toNat ≤ a.last ∧ ad.toNat + n.toNat ≤ a.start + a.size

instance decidableHas (a : Area) (ad n : UInt16) : Decidable (a.Has ad n) :=
  inferInstanceAs (Decidable (_ ∧ _ ∧ _))

/-- The chain of tests that both passes make. -/
def areaOf (ad n : UInt16) : Option Area :=
  [Area.devInfo, .ai, .di, .dout, .netCfg, .extData].find? fun a => decide (a.Has ad n)

/-! ## The registers -/

/-- The memory of an array of registers. -/
def memory {n : Nat} (regs : Fin n → UInt16) : Nat → UInt16 := fun i =>
  if h : i < n then regs ⟨i, h⟩ else 0

/-- The array in a memory. -/
def ofMemory {n : Nat} (m : Nat → UInt16) : Fin n → UInt16 := fun i => m i.val

/-- The byte `k` of the registers. -/
def byteAt (m : Nat → UInt16) (k : Nat) : UInt8 :=
  if k % 2 = 0 then (m (k / 2)).toUInt8 else (m (k / 2) >>> 8).toUInt8

/-- The bytes from `ofs` on are replaced. -/
def setBytes {n : Nat} (regs : Fin n → UInt16) (ofs : Nat) (bytes : List UInt8) :
    Fin n → UInt16 := fun i =>
  let byte k := if ofs ≤ k ∧ k < ofs + bytes.length then bytes.getD (k - ofs) 0
    else byteAt (memory regs) k
  join (byte (2 * i.val)) (byte (2 * i.val + 1))

def getBytes {n : Nat} (regs : Fin n → UInt16) (ofs len : Nat) : List UInt8 :=
  (List.range len).map fun k => byteAt (memory regs) (ofs + k)

/-- `DevInfoReg_t`: 27 registers with `xSN` in 0 to 7, `usHWVer` in 8, `usSWVer` in 9, `xOEM` in 10
    to 15, `xIp` in 16 and 17, `xNetMac` in 18 to 20 and the time from 21 on; `hwid` and `xPN` lie
    behind them. -/
structure DevInfoReg where
  regs : Fin 27 → UInt16
  hwid : List UInt8
  xPN : List UInt8

/-- The fields of `struct tm` that are read. -/
structure Tm where
  tm_year : Int
  tm_mon : Int
  tm_mday : Int
  tm_hour : Int
  tm_min : Int
  tm_sec : Int

/-- `vDevRefreshTime` -/
def vDevRefreshTime (lt : Tm) (g : DevInfoReg) : DevInfoReg :=
  { g with regs := fun i =>
      if i.val = 21 then UInt16.ofInt (lt.tm_year + 1900)
      else if i.val = 22 then UInt16.ofInt (lt.tm_mon + 1)
      else if i.val = 23 then UInt16.ofInt lt.tm_mday
      else if i.val = 24 then UInt16.ofInt lt.tm_hour
      else if i.val = 25 then UInt16.ofInt lt.tm_min
      else if i.val = 26 then UInt16.ofInt lt.tm_sec
      else g.regs i }

/-- `vBigEdianDevInfo`, and `vLittleEdianDevInfo`, which is the same. -/
def vBigEdianDevInfo (regs : Fin 27 → UInt16) : Fin 27 → UInt16 := fun i =>
  if i.val = 8 ∨ i.val = 9 ∨ 21 ≤ i.val then htons (regs i) else regs i

/-- `var_htonl` -/
def htonl (n : UInt32) : UInt32 :=
  ((n &&& 0xff) <<< 24) ||| ((n &&& 0xff00) <<< 8) ||| ((n &&& 0xff0000) >>> 8) |||
    ((n &&& 0xff000000) >>> 24)

/-- `AIResult_t`, with the bits of its numbers. -/
abbrev AIResult := Fin 8 → UInt32

/-- `vBigEdianAIResult` -/
def vBigEdianAIResult (x : AIResult) : AIResult := fun i => htonl (x i)

/-- The registers of the inputs. -/
def aiRegs (x : AIResult) : Fin 16 → UInt16 := fun i =>
  let w := x ⟨i.val / 2, by omega⟩
  if i.val % 2 = 0 then w.toUInt16 else (w >>> 16).toUInt16

/-- `vBigEdianDIResult` -/
def vBigEdianDIResult (regs : Fin 8 → UInt16) : Fin 8 → UInt16 := fun i => htons (regs i)

/-- `NetCfgReg_t`: `dhcp` in register 0, four texts of 16 bytes and `status` in register 33. -/
abbrev NetCfgReg := Fin 34 → UInt16

/-- `vBigEdianNetCfg`, and `vLittleEdianNetCfg`, which is the same. -/
def vBigEdianNetCfg (regs : NetCfgReg) : NetCfgReg := fun i =>
  if i.val = 0 ∨ i.val = 33 then htons (regs i) else regs i

/-- `net_cfg_t` -/
structure NetCfg where
  dhcp : UInt32
  ipaddr : List UInt8
  netmask : List UInt8
  gw : List UInt8
  dns : List UInt8
deriving DecidableEq

/-- What is read of `netif_list` and the name server, the addresses as `ipaddr_ntoa` writes
    them. -/
structure Netif where
  flagDhcp : Bool
  flagUp : Bool
  flagLinkUp : Bool
  ipaddr : List UInt8
  netmask : List UInt8
  gw : List UInt8
  dns : List UInt8

/-- `dhcp` and `status` are set. -/
def setFlags (regs : NetCfgReg) (dhcp status : Bool) : NetCfgReg := fun i =>
  if i.val = 0 then if dhcp then 1 else 0
  else if i.val = 33 then if status then 1 else 0
  else regs i

/-- The settings that are in use, in `MB_REG_READ` mode; `strcpy` writes a zero behind the text. -/
def netCfgInUse (netif_list : Option Netif) (regs : NetCfgReg) : NetCfgReg :=
  match netif_list with
  | some netif =>
      let regs := setFlags regs netif.flagDhcp (netif.flagUp && netif.flagLinkUp)
      let regs := setBytes regs 2 (netif.ipaddr ++ [0])
      let regs := setBytes regs 18 (netif.netmask ++ [0])
      let regs := setBytes regs 34 (netif.gw ++ [0])
      setBytes regs 50 (netif.dns ++ [0])
  | none => regs

/-- The stored settings, in `MB_REG_WRITE` mode. -/
def netCfgStored (g_net_cfg : NetCfg) (regs : NetCfgReg) : NetCfgReg :=
  let regs := setFlags regs (g_net_cfg.dhcp ≠ 0) true
  let regs := setBytes regs 2 (g_net_cfg.ipaddr.take 16)
  let regs := setBytes regs 18 (g_net_cfg.netmask.take 16)
  let regs := setBytes regs 34 (g_net_cfg.gw.take 16)
  setBytes regs 50 (g_net_cfg.dns.take 16)

/-- The settings that the registers say. -/
def netCfgOf (regs : NetCfgReg) : NetCfg where
  dhcp := if regs 0 = 0 then 0 else 1
  ipaddr := getBytes regs 2 16
  netmask := getBytes regs 18 16
  gw := getBytes regs 34 16
  dns := getBytes regs 50 16

/-! ## The callback -/

variable {R : Type}

/-- The globals that the callback uses. -/
structure UserRegs (R : Type) where
  g_xDevInfoReg : DevInfoReg
  g_xAIResultReg : AIResult
  g_xDIResultReg : Fin 8 → UInt16
  g_xDOResultReg : DoFile
  g_xNetCfgReg : NetCfgReg
  g_net_cfg : NetCfg
  /-- `g_xExtDataRegsFlag` -/
  regsFlag : Nat → Bool
  /-- the variables and `g_xExtDataRegs` -/
  ext : Polled R

/-- What the callback finds around it. -/
structure Surroundings (R : Type) where
  tm : Tm
  netif_list : Option Netif
  poll : PollEnv R
  ports : MasterPorts

inductive MBRegisterMode where
  | read
  | write
deriving DecidableEq

inductive MBErrorCode where
  | noErr
  | noReg
deriving DecidableEq

/-- What a call leaves: its status, the bytes that it puts into the buffer, the globals, the
    requests to slaves, and whether the settings are saved, which resets the device. -/
structure Reply (R : Type) where
  eStatus : MBErrorCode
  read : List UInt8
  regs : UserRegs R
  sent : List (Nat × WriteRequest)
  saved : Bool

/-- The globals that the first pass changes. -/
def refreshGlobals (env : Surroundings R) (eMode : MBRegisterMode) (r : UserRegs R) :
    Area → UserRegs R
  | .devInfo => { r with g_xDevInfoReg := vDevRefreshTime env.tm r.g_xDevInfoReg }
  | .netCfg =>
      match eMode with
      | .read => { r with g_xNetCfgReg := netCfgInUse env.netif_list r.g_xNetCfgReg }
      | .write => { r with g_xNetCfgReg := netCfgStored r.g_net_cfg r.g_xNetCfgReg }
  | _ => r

/-- `regs`, after the first pass. -/
def copiedRegs (r : UserRegs R) : Area → Nat → UInt16
  | .devInfo => memory (vBigEdianDevInfo r.g_xDevInfoReg.regs)
  | .ai => memory (aiRegs (vBigEdianAIResult r.g_xAIResultReg))
  | .di => memory (vBigEdianDIResult r.g_xDIResultReg)
  | .dout => memory (vBigEdianDOResult r.g_xDOResultReg)
  | .netCfg => memory (vBigEdianNetCfg r.g_xNetCfgReg)
  | .extData => fun i => r.ext.regs (i : Int)

/-- The second pass of a write, with the copy that was written to. -/
def storeRegs [VarReal R] (env : Surroundings R) (r : UserRegs R) (pucRegBuffer : Nat → UInt8)
    (usAddress usNRegs : UInt16) (regs : Nat → UInt16) : Option Area → Reply R
  | some .devInfo =>
      let xDevInfo := vBigEdianDevInfo (ofMemory regs)
      let g_xDevInfoReg := { r.g_xDevInfoReg with regs := xDevInfo }
      ⟨.noErr, [], { r with g_xDevInfoReg }, [], false⟩
  | some .ai => ⟨.noReg, [], r, [], false⟩
  | some .di => ⟨.noReg, [], r, [], false⟩
  | some .dout =>
      ⟨.noErr, [], { r with g_xDOResultReg := vBigEdianDOResult (ofMemory regs) }, [], false⟩
  | some .netCfg =>
      let g_xNetCfgReg := vBigEdianNetCfg (ofMemory regs)
      let g_net_cfg := netCfgOf g_xNetCfgReg
      ⟨.noErr, [], { r with g_xNetCfgReg, g_net_cfg }, [], decide (g_net_cfg ≠ r.g_net_cfg)⟩
  | some .extData =>
      -- The registers were written in their place.
      let s := r.ext.store (VarManage.refreshRegs pucRegBuffer usAddress usNRegs.toNat)
      let w := VarManage.bVarManageRefreshExtDataWithModbusSlave env.poll env.ports s usAddress
        usNRegs
      ⟨.noErr, [], { r with ext := w.s }, w.sent, false⟩
  | none => ⟨.noErr, [], r, [], false⟩

/-- `eMBRegHoldingCB` -/
def eMBRegHoldingCB [VarReal R] (env : Surroundings R) (r : UserRegs R)
    (pucRegBuffer : Nat → UInt8) (usAddress usNRegs : UInt16) (eMode : MBRegisterMode) :
    Reply R :=
  let usAddress := usAddress - 1
  match areaOf usAddress usNRegs with
  | some a =>
      if a = .extData ∧ ¬ VarManage.checkContAddr r.regsFlag usNRegs.toNat usAddress then
        ⟨.noReg, [], r, [], false⟩
      else
        let iRegIndex := usAddress.toNat - a.start
        let r := refreshGlobals env eMode r a
        match eMode with
        | .read => ⟨.noErr, get (copiedRegs r a) iRegIndex usNRegs.toNat, r, [], false⟩
        | .write =>
            let regs := put pucRegBuffer iRegIndex usNRegs.toNat (copiedRegs r a)
            storeRegs env r pucRegBuffer usAddress usNRegs regs (areaOf usAddress usNRegs)
  | none => ⟨.noReg, [], r, [], false⟩

/-! ## What a call does -/

/-- The number of two bytes, the high one first. -/
def bigEndian (high low : UInt8) : UInt16 := UInt16.ofNat (256 * high.toNat + low.toNat)

/-- The outputs after a write, register by register. -/
def writtenDo (file : DoFile) (pucRegBuffer : Nat → UInt8) (usAddress usNRegs : UInt16) :
    DoFile := fun i =>
  let ad := (usAddress - 1).toNat
  if ad ≤ userRegDoStart + i.val ∧ userRegDoStart + i.val < ad + usNRegs.toNat then
    let k := userRegDoStart + i.val - ad
    bigEndian (pucRegBuffer (2 * k)) (pucRegBuffer (2 * k + 1))
  else file i

/-- A call that fails changes nothing, and a write of outputs sets those that it addresses and
    nothing else, and is read back as it was written. -/
structure HoldingSpec [VarReal R] (env : Surroundings R) (r : UserRegs R)
    (pucRegBuffer : Nat → UInt8) (usAddress usNRegs : UInt16) : Prop where
  error_unchanged : ∀ eMode,
    (eMBRegHoldingCB env r pucRegBuffer usAddress usNRegs eMode).eStatus ≠ .noErr →
      eMBRegHoldingCB env r pucRegBuffer usAddress usNRegs eMode = ⟨.noReg, [], r, [], false⟩
  do_write : Area.dout.Has (usAddress - 1) usNRegs →
    eMBRegHoldingCB env r pucRegBuffer usAddress usNRegs .write =
      ⟨.noErr, [],
        { r with g_xDOResultReg := writtenDo r.g_xDOResultReg pucRegBuffer usAddress usNRegs },
        [], false⟩
  do_read_back : Area.dout.Has (usAddress - 1) usNRegs → ∀ env' pucRegBuffer',
    let r' := (eMBRegHoldingCB env r pucRegBuffer usAddress usNRegs .write).regs
    eMBRegHoldingCB env' r' pucRegBuffer' usAddress usNRegs .read =
      ⟨.noErr, (List.range (2 * usNRegs.toNat)).map pucRegBuffer, r', [], false⟩

/-! ### The tests -/

/-- The areas lie apart. -/
theorem Area.Has.unique {a b : Area} {ad n : UInt16} (ha : a.Has ad n) (hb : b.Has ad n) :
    a = b := by
  obtain ⟨ha, ha', -⟩ := ha
  obtain ⟨hb, hb', -⟩ := hb
  cases a <;> cases b <;> first
    | rfl
    | simp only [Area.start, Area.last, userRegDoStart, userRegDoEnd,
        VarManage.userRegExtDataStart, VarManage.userRegExtDataEnd] at ha ha' hb hb'
      omega

theorem areaOf_eq_some_iff (a : Area) (ad n : UInt16) : areaOf ad n = some a ↔ a.Has ad n := by
  have hhas : ∀ {b : Area}, areaOf ad n = some b → b.Has ad n := by
    intro b hb
    have htest := List.find?_some (p := fun a : Area => decide (a.Has ad n)) hb
    exact of_decide_eq_true htest
  constructor
  · exact hhas
  · intro h
    have hmem : a ∈ [Area.devInfo, .ai, .di, .dout, .netCfg, .extData] := by
      cases a <;> simp
    have hsome : (areaOf ad n).isSome := by
      unfold areaOf
      exact List.find?_isSome.mpr ⟨a, hmem, decide_eq_true h⟩
    obtain ⟨b, hb⟩ := Option.isSome_iff_exists.mp hsome
    obtain rfl := h.unique (hhas hb)
    exact hb

section
variable [VarReal R] (env : Surroundings R) (r : UserRegs R) (pucRegBuffer : Nat → UInt8)
  {usAddress usNRegs : UInt16}

/-! ### Errors -/

theorem storeRegs_error {a : Area} {eMode : MBRegisterMode} {regs : Nat → UInt16}
    (h : (storeRegs env (refreshGlobals env eMode r a) pucRegBuffer usAddress usNRegs regs
      (some a)).eStatus ≠ .noErr) :
    storeRegs env (refreshGlobals env eMode r a) pucRegBuffer usAddress usNRegs regs (some a) =
      ⟨.noReg, [], r, [], false⟩ := by
  cases a with
  | ai => rfl
  | di => rfl
  | devInfo => exact absurd rfl h
  | dout => exact absurd rfl h
  | netCfg => exact absurd rfl h
  | extData => exact absurd rfl h

theorem error_unchanged (eMode : MBRegisterMode)
    (h : (eMBRegHoldingCB env r pucRegBuffer usAddress usNRegs eMode).eStatus ≠ .noErr) :
    eMBRegHoldingCB env r pucRegBuffer usAddress usNRegs eMode = ⟨.noReg, [], r, [], false⟩ := by
  unfold eMBRegHoldingCB at h ⊢
  dsimp only at h ⊢
  cases harea : areaOf (usAddress - 1) usNRegs with
  | none => rfl
  | some a =>
    rw [harea] at h
    dsimp only at h ⊢
    split
    · rfl
    · next hcheck =>
      rw [if_neg hcheck] at h
      cases eMode with
      | read => exact absurd rfl h
      | write => exact storeRegs_error env r pucRegBuffer h

/-! ### Outputs -/

theorem toNat_join (low high : UInt8) : (join low high).toNat = low.toNat + 256 * high.toNat := by
  have hlow := low.toNat_lt
  have hhigh := high.toNat_lt
  have hshift : high.toNat <<< 8 % 2 ^ 16 = high.toNat <<< 8 := by
    rw [Nat.shiftLeft_eq]
    omega
  show (low.toNat ||| high.toNat <<< 8 % 2 ^ 16) = _
  rw [hshift, Nat.or_comm, ← Nat.shiftLeft_add_eq_or_of_lt (by omega), Nat.shiftLeft_eq]
  omega

theorem htons_join (high low : UInt8) : htons (join high low) = bigEndian high low := by
  have hhigh := high.toNat_lt
  have hlow := low.toNat_lt
  apply UInt16.toNat_inj.mp
  rw [toNat_htons, toNat_join, bigEndian, UInt16.toNat_ofNat_of_lt' (by
    show _ < 65536
    omega)]
  omega

theorem memory_apply {n : Nat} (regs : Fin n → UInt16) (i : Fin n) :
    memory regs i.val = regs i :=
  dif_pos i.isLt

/-- The copy of the outputs that a write has changed. -/
def changedDo (file : DoFile) (pucRegBuffer : Nat → UInt8) (usAddress usNRegs : UInt16) :
    Nat → UInt16 :=
  put pucRegBuffer ((usAddress - 1).toNat - userRegDoStart) usNRegs.toNat
    (memory (vBigEdianDOResult file))

theorem read_do (h : Area.dout.Has (usAddress - 1) usNRegs) :
    eMBRegHoldingCB env r pucRegBuffer usAddress usNRegs .read =
      ⟨.noErr, get (memory (vBigEdianDOResult r.g_xDOResultReg))
        ((usAddress - 1).toNat - userRegDoStart) usNRegs.toNat, r, [], false⟩ := by
  have harea := (areaOf_eq_some_iff .dout _ _).mpr h
  unfold eMBRegHoldingCB
  dsimp only
  rw [harea]
  dsimp only
  rw [if_neg fun hext => Area.noConfusion hext.1]
  rfl

theorem write_do (h : Area.dout.Has (usAddress - 1) usNRegs) :
    eMBRegHoldingCB env r pucRegBuffer usAddress usNRegs .write =
      let regs := changedDo r.g_xDOResultReg pucRegBuffer usAddress usNRegs
      ⟨.noErr, [], { r with g_xDOResultReg := vBigEdianDOResult (ofMemory regs) }, [], false⟩ := by
  have harea := (areaOf_eq_some_iff .dout _ _).mpr h
  unfold eMBRegHoldingCB
  dsimp only
  rw [harea]
  dsimp only
  rw [if_neg fun hext => Area.noConfusion hext.1]
  rfl

omit [VarReal R] in
/-- The stored copy, register by register. -/
theorem stored_do (h : Area.dout.Has (usAddress - 1) usNRegs) :
    vBigEdianDOResult (ofMemory (changedDo r.g_xDOResultReg pucRegBuffer usAddress usNRegs)) =
      writtenDo r.g_xDOResultReg pucRegBuffer usAddress usNRegs := by
  have hstart : userRegDoStart ≤ (usAddress - 1).toNat := h.1
  funext i
  show htons (changedDo _ _ _ _ i.val) = _
  rw [changedDo, put_apply, memory_apply, writtenDo]
  dsimp only
  by_cases hi : (usAddress - 1).toNat ≤ userRegDoStart + i.val ∧
      userRegDoStart + i.val < (usAddress - 1).toNat + usNRegs.toNat
  · have hk : i.val - ((usAddress - 1).toNat - userRegDoStart) =
        userRegDoStart + i.val - (usAddress - 1).toNat := by omega
    rw [if_pos hi, if_pos (by omega), hk, htons_join]
  · rw [if_neg hi, if_neg (by omega)]
    exact htons_htons _

theorem do_write (h : Area.dout.Has (usAddress - 1) usNRegs) :
    eMBRegHoldingCB env r pucRegBuffer usAddress usNRegs .write =
      ⟨.noErr, [],
        { r with g_xDOResultReg := writtenDo r.g_xDOResultReg pucRegBuffer usAddress usNRegs },
        [], false⟩ := by
  rw [write_do env r pucRegBuffer h, ← stored_do r pucRegBuffer h]

theorem do_read_back (h : Area.dout.Has (usAddress - 1) usNRegs) (env' : Surroundings R)
    (pucRegBuffer' : Nat → UInt8) :
    let r' := (eMBRegHoldingCB env r pucRegBuffer usAddress usNRegs .write).regs
    eMBRegHoldingCB env' r' pucRegBuffer' usAddress usNRegs .read =
      ⟨.noErr, (List.range (2 * usNRegs.toNat)).map pucRegBuffer, r', [], false⟩ := by
  intro r'
  have hregs : r'.g_xDOResultReg = vBigEdianDOResult
      (ofMemory (changedDo r.g_xDOResultReg pucRegBuffer usAddress usNRegs)) := by
    show (eMBRegHoldingCB env r pucRegBuffer usAddress usNRegs .write).regs.g_xDOResultReg = _
    rw [write_do env r pucRegBuffer h]
  -- Both turns of the bytes give the changed copy again.
  have hcopy : ∀ i < userRegDoSize, memory (vBigEdianDOResult r'.g_xDOResultReg) i =
      changedDo r.g_xDOResultReg pucRegBuffer usAddress usNRegs i := by
    intro i hi
    rw [memory_apply _ ⟨i, hi⟩, hregs]
    exact htons_htons _
  have hlast : (usAddress - 1).toNat + usNRegs.toNat ≤ userRegDoStart + userRegDoSize := h.2.2
  have hstart : userRegDoStart ≤ (usAddress - 1).toNat := h.1
  rw [read_do env' r' pucRegBuffer' h, get_congr fun i _ hlt => hcopy i (by omega), changedDo,
    get_put]

/-! ### The parts that stand elsewhere -/

/-- A write of outputs is the one of `holdingDo`, with nothing in between. -/
theorem write_perform (w : DoWrite) :
    (eMBRegHoldingCB env r (fun k => w.pucRegBuffer.getD k 0) w.usAddress w.usNRegs .write).regs =
      { r with g_xDOResultReg := holdingDo.perform r.g_xDOResultReg w } := by
  have hperform : vBigEdianDOResult (ofMemory (changedDo r.g_xDOResultReg
      (fun k => w.pucRegBuffer.getD k 0) w.usAddress w.usNRegs)) =
        holdingDo.perform r.g_xDOResultReg w := by
    funext i
    show htons (put _ w.iRegIndex _ _ i.val) = htons (writeRegs _ w.iRegIndex _ _ i)
    have hdrop : ∀ (l : List UInt8) (k j : Nat), (l.drop k).getD j 0 = l.getD (k + j) 0 := by
      intro l k j
      rw [List.getD_eq_getElem?_getD, List.getElem?_drop, ← List.getD_eq_getElem?_getD]
    rw [put_apply, writeRegs_apply, memory_apply, bytesReg, hdrop, hdrop, Nat.add_zero]
    rfl
  rw [write_do env r _ w.in_do]
  dsimp only
  rw [hperform]

/-- A write of mapped registers is the one of `VarManage`. -/
theorem write_extData (h : Area.extData.Has (usAddress - 1) usNRegs) :
    eMBRegHoldingCB env r pucRegBuffer usAddress usNRegs .write =
      match VarManage.eMBRegHoldingCB env.poll env.ports r.regsFlag r.ext pucRegBuffer usAddress
        usNRegs with
      | some w => ⟨.noErr, [], { r with ext := w.s }, w.sent, false⟩
      | none => ⟨.noReg, [], r, [], false⟩ := by
  have harea := (areaOf_eq_some_iff .extData _ _).mpr h
  have hin : VarManage.inExtData (usAddress - 1) usNRegs = true := by
    obtain ⟨hstart, hlast, hend⟩ := h
    unfold VarManage.inExtData VarManage.extDataRegCheck
    rw [Bool.and_eq_true, Bool.and_eq_true]
    exact ⟨⟨decide_eq_true hstart, decide_eq_true hlast⟩, decide_eq_true hend⟩
  unfold eMBRegHoldingCB VarManage.eMBRegHoldingCB
  dsimp only
  rw [harea, hin, Bool.true_and]
  dsimp only
  by_cases hcheck : VarManage.checkContAddr r.regsFlag usNRegs.toNat (usAddress - 1)
  · rw [if_neg fun hand => hand.2 hcheck, if_pos hcheck]
    rfl
  · rw [if_pos ⟨rfl, hcheck⟩, if_neg hcheck]

end

/-- For every address, count, data and mode. -/
theorem eMBRegHoldingCB_spec [VarReal R] (env : Surroundings R) (r : UserRegs R)
    (pucRegBuffer : Nat → UInt8) (usAddress usNRegs : UInt16) :
    HoldingSpec env r pucRegBuffer usAddress usNRegs where
  error_unchanged := error_unchanged env r pucRegBuffer
  do_write := do_write env r pucRegBuffer
  do_read_back := do_read_back env r pucRegBuffer

end K64Gateway.Modbus
