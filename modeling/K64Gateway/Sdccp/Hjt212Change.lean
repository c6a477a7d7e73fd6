import K64Gateway.Lib.ShiftRegister
import K64Gateway.Sdccp.Hjt212Crc

/-
  What `hjt212_GetCrc16` sees of a message. From one byte to the next it keeps the high half of the
  register only, which is as much as a byte holds.

  Proved: on the high half, eight bits of the register lose nothing (`carry_injective`), so a
  message with one byte changed has another check, exactly if the loop runs: from 2^31 bytes on the
  length is a negative `int` (`hjt212GetCrc16_change_iff`).
-/

namespace K64Gateway.Hjt212

open ShiftRegister

/-! ## The high half -/

/-- The high half of the register, and its low half shifted through: one byte of the loop. -/
def carry (v : BitVec 8) : BitVec 8 :=
  (shiftBits 0xA001#16 8 (v.setWidth 16) >>> 8).setWidth 8

theorem crcBit_toBitVec (crc : UInt16) :
    (crcBit crc).toBitVec = shiftBit 0xA001#16 crc.toBitVec := by
  have hlow : crc &&& 1 = 1 ↔ crc.toBitVec.getLsbD 0 = true := by
    have hand : (crc &&& 1).toBitVec =
        BitVec.setWidth 16 (BitVec.ofBool (crc.toBitVec.getLsbD 0)) := by
      rw [UInt16.toBitVec_and]
      exact BitVec.and_one_eq_setWidth_ofBool_getLsbD
    rw [← UInt16.toBitVec_inj, hand]
    cases crc.toBitVec.getLsbD 0 <;> decide
  unfold crcBit shiftBit
  by_cases h : crc &&& 1 = 1
  · rw [if_pos h, if_pos (hlow.mp h)]
    rfl
  · rw [if_neg h, if_neg fun hc => h (hlow.mpr hc)]
    rfl

/-- The high half of the crc. -/
def highHalf (crc : UInt16) : BitVec 8 := (crc.toBitVec >>> 8).setWidth 8

theorem highHalf_crcByte (crc : UInt16) (b : UInt8) :
    highHalf (crcByte crc b) = carry (highHalf crc ^^^ b.toBitVec) := by
  have hshift : crc.toBitVec >>> 8 = (highHalf crc).setWidth 16 := by
    apply BitVec.eq_of_toNat_eq
    have hlt := (crc.toBitVec >>> 8).isLt
    have hcrc := crc.toBitVec.isLt
    simp only [highHalf, BitVec.toNat_setWidth, BitVec.toNat_ushiftRight,
      Nat.shiftRight_eq_div_pow]
    omega
  have hin : (b.toUInt16 ^^^ (crc >>> 8)).toBitVec =
      (highHalf crc ^^^ b.toBitVec).setWidth 16 := by
    have hcrc : (crc >>> 8).toBitVec = crc.toBitVec >>> 8 := rfl
    have hb : b.toUInt16.toBitVec = b.toBitVec.setWidth 16 := rfl
    rw [UInt16.toBitVec_xor, hcrc, hb, hshift, BitVec.setWidth_xor, BitVec.xor_comm]
  rw [carry, ← hin, highHalf]
  simp only [crcByte, crcBit_toBitVec]
  rfl

theorem carry_xor (a b : BitVec 8) : carry (a ^^^ b) = carry a ^^^ carry b := by
  unfold carry
  rw [BitVec.setWidth_xor, shiftBits_xor, BitVec.ushiftRight_xor_distrib, BitVec.setWidth_xor]

theorem carry_injective : Function.Injective carry :=
  injective_of_xor carry_xor (by decide +kernel)

/-- The high half from byte to byte. -/
def carryByte (h : BitVec 8) (b : UInt8) : BitVec 8 := carry (h ^^^ b.toBitVec)

theorem highHalf_foldl (l : List UInt8) (crc : UInt16) :
    highHalf (l.foldl crcByte crc) = l.foldl carryByte (highHalf crc) := by
  induction l generalizing crc with
  | nil => rfl
  | cons b l ih =>
    rw [List.foldl_cons, List.foldl_cons, ih, highHalf_crcByte]
    rfl

theorem carryByte_injective_state (b : UInt8) : Function.Injective fun h => carryByte h b :=
  fun _ _ h => (BitVec.xor_left_inj _).mp (carry_injective h)

theorem carryByte_injective (h : BitVec 8) : Function.Injective (carryByte h) :=
  fun _ _ hb => UInt8.toBitVec_inj.mp ((BitVec.xor_right_inj _).mp (carry_injective hb))

/-! ## One changed byte -/

/-- Over the bytes that are read, a changed one changes the high half. -/
theorem foldl_crcByte_set_ne {l : List UInt8} {i : Nat} {b : UInt8} (hi : i < l.length)
    (hb : l[i] ≠ b) (crc : UInt16) : l.foldl crcByte crc ≠ (l.set i b).foldl crcByte crc := by
  intro h
  refine foldl_set_ne carryByte_injective_state carryByte_injective hi hb (highHalf crc) ?_
  rw [← highHalf_foldl, ← highHalf_foldl, h]

/-- From 2^31 bytes on, the loop does not run. -/
theorem hjt212GetCrc16_long {count : UInt32} (h : ¬ count.toNat < 2 ^ 31) (ptr : List UInt8) :
    hjt212GetCrc16 ptr count = 0xFFFF := by
  rw [hjt212GetCrc16, if_neg h, List.take_zero]
  rfl

/-- A message of `count` bytes at `ptr`, and one of its bytes replaced. -/
theorem hjt212GetCrc16_change_iff {ptr : List UInt8} {count : UInt32} {i : Nat} {b : UInt8}
    (hcount : count.toNat ≤ ptr.length) (hi : i < count.toNat) (hb : ptr[i] ≠ b) :
    hjt212GetCrc16 ptr count ≠ hjt212GetCrc16 (ptr.set i b) count ↔ count.toNat < 2 ^ 31 := by
  by_cases hlen : count.toNat < 2 ^ 31
  · refine iff_of_true ?_ hlen
    rw [hjt212GetCrc16, hjt212GetCrc16, if_pos hlen, List.take_set]
    exact foldl_crcByte_set_ne (by rw [List.length_take]; omega) (by rwa [List.getElem_take]) _
  · refine iff_of_false (fun h => h ?_) hlen
    rw [hjt212GetCrc16_long hlen, hjt212GetCrc16_long hlen]

/-- The second of three bytes is replaced. -/
theorem hjt212GetCrc16_change_three :
    hjt212GetCrc16 [1, 2, 3] 3 ≠ hjt212GetCrc16 [1, 7, 3] 3 :=
  (@hjt212GetCrc16_change_iff [1, 2, 3] 3 1 7 (by decide) (by decide) (by decide)).mpr (by decide)

/-- A message of 2^31 zero bytes. -/
def longMessage : List UInt8 := List.replicate (2 ^ 31) 0

theorem replicate_set_ne {n : Nat} (hn : 0 < n) :
    List.replicate n (0 : UInt8) ≠ (List.replicate n 0).set 0 1 := by
  obtain ⟨n, rfl⟩ := Nat.exists_eq_add_of_lt hn
  rw [List.replicate_succ]
  exact fun h => absurd (List.cons.inj h).1 (by decide)

/-- Another first byte is not seen. -/
theorem longMessage_same :
    longMessage.length = (2147483648 : UInt32).toNat ∧ longMessage ≠ longMessage.set 0 1 ∧
      hjt212GetCrc16 longMessage 2147483648 =
        hjt212GetCrc16 (longMessage.set 0 1) 2147483648 := by
  have hlong : ¬ (2147483648 : UInt32).toNat < 2 ^ 31 := by decide
  refine ⟨List.length_replicate, replicate_set_ne (by decide), ?_⟩
  rw [hjt212GetCrc16_long hlong, hjt212GetCrc16_long hlong]

end K64Gateway.Hjt212
