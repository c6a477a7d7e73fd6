import K64Gateway.Lib.ShiftRegister
import K64Gateway.Sdccp.CcBjdc

/-
  The check of a CC_BJDC frame. `CC_GetCrc16` takes a byte in one step, with a table of 256 words.

  Proved: on every message it is the cyclic check of the polynomial 0x1021 bit by bit, the most
  significant bit of each byte first, from zero and without a final inversion
  (`ccGetCrc16_eq_bitwise`).
-/

namespace K64Gateway.CcBjdc

open ShiftRegister

/-! ## Bit by bit -/

/-- x^16 + x^12 + x^5 + 1, without its first term. -/
def crcPoly : BitVec 16 := 0x1021#16

/-- The bits of a message in the order they go through the register. -/
def messageBits (message : List UInt8) : List Bool := message.flatMap fun b => msbFirst b.toBitVec

/-- The abstract check: the register is zero at first, takes one bit after the other, and is the
    check at the end. -/
def crcBitwise (message : List UInt8) : UInt16 := ⟨crcBits crcPoly 0#16 (messageBits message)⟩

/-! ## Byte by byte -/

/-- Each word of `_CC_Table` is what the register makes of its index. -/
theorem ccTable_eq (v : UInt8) :
    (ccTable.getD v.toNat 0).toBitVec = tableEntry crcPoly v.toBitVec := by
  have hall : ∀ n < 256, (ccTable.getD n 0).toBitVec = tableEntry crcPoly (BitVec.ofNat 8 n) := by
    decide +kernel
  have hv : BitVec.ofNat 8 v.toNat = v.toBitVec := by
    rw [← UInt8.toNat_toBitVec, BitVec.ofNat_toNat, BitVec.setWidth_eq]
  rw [hall v.toNat (UInt8.toNat_lt v), hv]

theorem crcStep_toBitVec (crc : UInt16) (b : UInt8) :
    (crcStep crc b).toBitVec = tableStep (tableEntry crcPoly) crc.toBitVec b.toBitVec := by
  have hshift : (crc <<< 8).toBitVec = crc.toBitVec <<< 8 := rfl
  have htop : (b ^^^ (crc >>> 8).toUInt8).toBitVec = topOf 8 crc.toBitVec ^^^ b.toBitVec := by
    rw [UInt8.toBitVec_xor, BitVec.xor_comm]
    rfl
  rw [crcStep, UInt16.toBitVec_xor, hshift, ccTable_eq, htop]
  rfl

theorem foldl_crcStep_toBitVec (message : List UInt8) (crc : UInt16) :
    (message.foldl crcStep crc).toBitVec =
      (message.map UInt8.toBitVec).foldl (tableStep (tableEntry crcPoly)) crc.toBitVec := by
  induction message generalizing crc with
  | nil => rfl
  | cons b message ih =>
    rw [List.foldl_cons, ih, crcStep_toBitVec, List.map_cons, List.foldl_cons]

/-- The first `ulLen` bytes at `pData`. -/
theorem ccGetCrc16_eq_bitwise (pData : List UInt8) (ulLen : UInt32) :
    ccGetCrc16 pData ulLen = crcBitwise (pData.take ulLen.toNat) := by
  apply UInt16.toBitVec_inj.mp
  have hbits : messageBits (pData.take ulLen.toNat) =
      ((pData.take ulLen.toNat).map UInt8.toBitVec).flatMap msbFirst := by
    rw [List.flatMap_map]
    rfl
  rw [ccGetCrc16, foldl_crcStep_toBitVec, ← crcBits_eq_table crcPoly (by decide), ← hbits]
  rfl

/-- The digits 1 to 9. -/
example : crcBitwise [49, 50, 51, 52, 53, 54, 55, 56, 57] = 0x31C3 := by decide +kernel

end K64Gateway.CcBjdc
