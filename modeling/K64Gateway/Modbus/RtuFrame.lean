import K64Gateway.External.MbCrc
import K64Gateway.Lib.RegisterBytes

/-
  The frames of Modbus RTU: an address, a request or an answer, and the check of both. The ports of
  the serial lines and the connections that carry RTU over TCP take the same frames.

  Proved: a list of bytes is taken if and only if it is a frame, and what is taken is what the frame
  holds (`decodeFrame_eq_some_iff`).
-/

namespace K64Gateway.MbCrc

/-! ## The check -/

/-- The two bytes of the check, the low one first. -/
def crcBytes (frame : List UInt8) : List UInt8 :=
  let crc := usMBCRC16 frame (UInt16.ofNat frame.length)
  [crc.toUInt8, (crc >>> 8).toUInt8]

/-- What the loop leaves in `ucCRCHi` and `ucCRCLo`. -/
def crcOf (frame : List UInt8) : UInt8 × UInt8 := frame.foldl crcStep (0xFF, 0xFF)

theorem usMBCRC16_eq {frame : List UInt8} (h : frame.length < 65536) :
    usMBCRC16 frame (UInt16.ofNat frame.length) = RegisterBytes.join (crcOf frame).2 (crcOf frame).1 := by
  unfold usMBCRC16
  rw [UInt16.toNat_ofNat_of_lt' h, List.take_length]
  exact UInt16.or_comm _ _

theorem crcBytes_eq {frame : List UInt8} (h : frame.length < 65536) :
    crcBytes frame = [(crcOf frame).2, (crcOf frame).1] := by
  unfold crcBytes
  dsimp only
  rw [usMBCRC16_eq h, RegisterBytes.low_join, RegisterBytes.high_join]

/-- Only the first entry of `aucCRCLo` is zero. -/
theorem aucCRCLo_eq_zero : ∀ i : Fin 256, aucCRCLo.getD i.val 0 = 0 → i = 0 := by
  decide +kernel

theorem crcStep_self (hi lo : UInt8) : crcStep (hi, lo) lo = (0, hi) := by
  unfold crcStep
  dsimp only
  rw [UInt8.xor_self]
  show ((0 : UInt8), hi ^^^ 0) = _
  rw [UInt8.xor_zero]

/-- A step whose first part is zero took the byte of `ucCRCLo`. -/
theorem eq_of_crcStep {crc : UInt8 × UInt8} {b : UInt8} (h : (crcStep crc b).1 = 0) :
    b = crc.2 := by
  have hzero := aucCRCLo_eq_zero ⟨(crc.2 ^^^ b).toNat, (crc.2 ^^^ b).toNat_lt⟩ h
  have hxor : crc.2 ^^^ b = 0 := UInt8.toNat_inj.mp (Fin.mk.inj hzero)
  exact (UInt8.xor_eq_zero_iff.mp hxor).symm

/-- A frame has the check 0 if and only if its last two bytes are the check of those before. -/
theorem usMBCRC16_append_eq_zero_iff {frame : List UInt8} {a b : UInt8}
    (h : frame.length + 2 < 65536) :
    usMBCRC16 (frame ++ [a, b]) (UInt16.ofNat (frame ++ [a, b]).length) = 0 ↔
      [a, b] = crcBytes frame := by
  have hlen : (frame ++ [a, b]).length < 65536 := by
    rw [List.length_append]
    exact h
  have hcrc : crcOf (frame ++ [a, b]) = crcStep (crcStep (crcOf frame) a) b := by
    rw [crcOf, List.foldl_append]
    rfl
  have hjoin : ∀ lo hi : UInt8, RegisterBytes.join lo hi = 0 ↔ lo = 0 ∧ hi = 0 := by
    intro lo hi
    constructor
    · intro h
      have hlo := RegisterBytes.low_join lo hi
      have hhi := RegisterBytes.high_join lo hi
      rw [h] at hlo hhi
      exact ⟨hlo.symm, hhi.symm⟩
    · rintro ⟨rfl, rfl⟩
      rfl
  rw [usMBCRC16_eq hlen, hcrc, crcBytes_eq (by omega), hjoin]
  constructor
  · rintro ⟨hlo, hhi⟩
    have hb := eq_of_crcStep hhi
    have hstep : crcStep (crcStep (crcOf frame) a) b = (0, (crcStep (crcOf frame) a).1) := by
      rw [hb]
      exact crcStep_self _ _
    rw [hstep] at hlo
    have ha := eq_of_crcStep hlo
    rw [hb, ha]
    congr 2
    exact congrArg Prod.snd (crcStep_self (crcOf frame).1 (crcOf frame).2)
  · rintro hab
    obtain ⟨rfl, rfl⟩ : a = (crcOf frame).2 ∧ b = (crcOf frame).1 := by
      exact ⟨(List.cons.inj hab).1, (List.cons.inj (List.cons.inj hab).2).1⟩
    have hfirst : crcStep (crcOf frame) (crcOf frame).2 = (0, (crcOf frame).1) := crcStep_self _ _
    rw [hfirst, crcStep_self]
    exact ⟨rfl, rfl⟩

end K64Gateway.MbCrc

namespace K64Gateway.Modbus

open MbCrc

/-! ## Frames -/

/-- `MB_SER_PDU_SIZE_MIN` -/
def mbSerPduSizeMin : Nat := 4

/-- `MB_SER_PDU_SIZE_MAX` -/
def mbSerPduSizeMax : Nat := 256

/-- A frame: address, PDU, check. -/
def encodeFrame (addr : UInt8) (pdu : List UInt8) : List UInt8 :=
  addr :: pdu ++ crcBytes (addr :: pdu)

/-- The test that `eMBRTUReceive` and its kin make, with the address and the PDU. -/
def decodeFrame (bytes : List UInt8) : Option (UInt8 × List UInt8) :=
  if mbSerPduSizeMin ≤ bytes.length ∧ usMBCRC16 bytes (UInt16.ofNat bytes.length) = 0 then
    some (bytes.headD 0, (bytes.drop 1).take (bytes.length - 3))
  else none

theorem length_crcBytes (frame : List UInt8) : (crcBytes frame).length = 2 := rfl

theorem length_encodeFrame (addr : UInt8) (pdu : List UInt8) :
    (encodeFrame addr pdu).length = pdu.length + 3 := by
  rw [encodeFrame, List.length_append, length_crcBytes, List.length_cons]

theorem encodeFrame_inj {addr : UInt8} {pdu pdu' : List UInt8}
    (h : encodeFrame addr pdu = encodeFrame addr pdu') : pdu = pdu' := by
  have hlen := congrArg List.length h
  rw [length_encodeFrame, length_encodeFrame] at hlen
  have hfront := (List.append_inj h (by rw [List.length_cons, List.length_cons]; omega)).1
  exact (List.cons.inj hfront).2

/-- What is taken as a frame is one, and a frame is taken for what it holds. -/
theorem decodeFrame_eq_some_iff {bytes : List UInt8} {addr : UInt8} {pdu : List UInt8}
    (h : bytes.length < 65536) :
    decodeFrame bytes = some (addr, pdu) ↔ bytes = encodeFrame addr pdu ∧ 0 < pdu.length := by
  constructor
  · intro hdec
    unfold decodeFrame at hdec
    split at hdec
    · next hok =>
      obtain ⟨hmin, hcrc⟩ := hok
      unfold mbSerPduSizeMin at hmin
      obtain ⟨a, rest, rfl⟩ : ∃ a rest, bytes = a :: rest :=
        List.exists_cons_of_ne_nil (List.ne_nil_of_length_pos (by omega))
      have hpair := Option.some.inj hdec
      obtain ⟨rfl, rfl⟩ := Prod.mk.inj hpair
      rw [List.length_cons] at hmin h
      -- the last two bytes
      obtain ⟨x, y, hxy⟩ : ∃ x y, rest.drop (rest.length - 2) = [x, y] := by
        apply List.length_eq_two.mp
        rw [List.length_drop]
        omega
      have htake : ((a :: rest).drop 1).take ((a :: rest).length - 3) = rest.take (rest.length - 2) := by
        rw [List.length_cons]
        rfl
      have hbytes : a :: rest = (a :: rest.take (rest.length - 2)) ++ [x, y] := by
        rw [← hxy, List.cons_append, List.take_append_drop]
      have hlen : (a :: rest.take (rest.length - 2)).length + 2 < 65536 := by
        rw [List.length_cons, List.length_take]
        omega
      rw [hbytes, usMBCRC16_append_eq_zero_iff hlen] at hcrc
      rw [htake, List.length_take]
      refine ⟨?_, by omega⟩
      rw [hbytes, hcrc]
      rfl
    · exact absurd hdec (by simp)
  · rintro ⟨rfl, hpos⟩
    have hlen := length_encodeFrame addr pdu
    have hcrc : usMBCRC16 (encodeFrame addr pdu) (UInt16.ofNat (encodeFrame addr pdu).length) = 0 := by
      unfold encodeFrame
      have hpair : ∃ x y, crcBytes (addr :: pdu) = [x, y] := ⟨_, _, rfl⟩
      obtain ⟨x, y, hxy⟩ := hpair
      rw [hxy, usMBCRC16_append_eq_zero_iff (by rw [List.length_cons]; omega), hxy]
    unfold decodeFrame
    rw [if_pos ⟨by unfold mbSerPduSizeMin; omega, hcrc⟩, hlen]
    congr 2
    show (pdu ++ crcBytes (addr :: pdu)).take pdu.length = pdu
    rw [List.take_append_of_le_length (Nat.le_refl _), List.take_length]

end K64Gateway.Modbus
