import Mathlib

/-
  Words of 16 and 32 bits in memory, the low byte first.
-/

namespace LittleEndian

/-- A word, its low byte first. -/
def bytes16 (w : UInt16) : List UInt8 := [w.toUInt8, (w >>> 8).toUInt8]

def bytes32 (w : UInt32) : List UInt8 :=
  [w.toUInt8, (w >>> 8).toUInt8, (w >>> 16).toUInt8, (w >>> 24).toUInt8]

/-- The word at the start of the memory `m`. -/
def word16 (m : List UInt8) : UInt16 :=
  UInt16.ofNat ((m.getD 0 0).toNat + 256 * (m.getD 1 0).toNat)

def word32 (m : List UInt8) : UInt32 :=
  UInt32.ofNat ((m.getD 0 0).toNat + 256 * (m.getD 1 0).toNat + 65536 * (m.getD 2 0).toNat +
    16777216 * (m.getD 3 0).toNat)

theorem word16_append {m : List UInt8} (h : 2 ≤ m.length) (rest : List UInt8) :
    word16 (m ++ rest) = word16 m := by
  unfold word16
  rw [List.getD_append _ _ _ _ (by omega), List.getD_append _ _ _ _ (by omega)]

theorem word32_append {m : List UInt8} (h : 4 ≤ m.length) (rest : List UInt8) :
    word32 (m ++ rest) = word32 m := by
  unfold word32
  rw [List.getD_append _ _ _ _ (by omega), List.getD_append _ _ _ _ (by omega),
    List.getD_append _ _ _ _ (by omega), List.getD_append _ _ _ _ (by omega)]

theorem word16_bytes16 (w : UInt16) (rest : List UInt8) : word16 (bytes16 w ++ rest) = w := by
  have h1 : (w >>> 8).toUInt8.toNat = w.toNat / 256 % 256 := by
    rw [UInt16.toNat_toUInt8, UInt16.toNat_shiftRight, Nat.shiftRight_eq_div_pow]
    rfl
  have h0 : w.toUInt8.toNat = w.toNat % 256 := UInt16.toNat_toUInt8 w
  have hlt := UInt16.toNat_lt w
  apply UInt16.toNat_inj.mp
  show (UInt16.ofNat (w.toUInt8.toNat + 256 * (w >>> 8).toUInt8.toNat)).toNat = w.toNat
  rw [h0, h1, UInt16.toNat_ofNat']
  omega

theorem word32_bytes32 (w : UInt32) (rest : List UInt8) : word32 (bytes32 w ++ rest) = w := by
  have h0 : w.toUInt8.toNat = w.toNat % 256 := UInt32.toNat_toUInt8 w
  have h1 : (w >>> 8).toUInt8.toNat = w.toNat / 256 % 256 := by
    rw [UInt32.toNat_toUInt8, UInt32.toNat_shiftRight, Nat.shiftRight_eq_div_pow]
    rfl
  have h2 : (w >>> 16).toUInt8.toNat = w.toNat / 65536 % 256 := by
    rw [UInt32.toNat_toUInt8, UInt32.toNat_shiftRight, Nat.shiftRight_eq_div_pow]
    rfl
  have h3 : (w >>> 24).toUInt8.toNat = w.toNat / 16777216 % 256 := by
    rw [UInt32.toNat_toUInt8, UInt32.toNat_shiftRight, Nat.shiftRight_eq_div_pow]
    rfl
  have hlt := UInt32.toNat_lt w
  apply UInt32.toNat_inj.mp
  show (UInt32.ofNat (w.toUInt8.toNat + 256 * (w >>> 8).toUInt8.toNat +
    65536 * (w >>> 16).toUInt8.toNat + 16777216 * (w >>> 24).toUInt8.toNat)).toNat = w.toNat
  rw [h0, h1, h2, h3, UInt32.toNat_ofNat']
  omega

theorem bytes16_word16 {m : List UInt8} (h : 2 ≤ m.length) : bytes16 (word16 m) = m.take 2 := by
  match m, h with
  | a :: b :: m, _ =>
    have ha := UInt8.toNat_lt a
    have hb := UInt8.toNat_lt b
    have hw : (word16 (a :: b :: m)).toNat = a.toNat + 256 * b.toNat := by
      show (UInt16.ofNat (a.toNat + 256 * b.toNat)).toNat = _
      rw [UInt16.toNat_ofNat']
      exact Nat.mod_eq_of_lt (by omega)
    have h0 : (word16 (a :: b :: m)).toUInt8 = a := by
      rw [← UInt8.toNat_inj, UInt16.toNat_toUInt8, hw]
      omega
    have h1 : (word16 (a :: b :: m) >>> 8).toUInt8 = b := by
      rw [← UInt8.toNat_inj, UInt16.toNat_toUInt8, UInt16.toNat_shiftRight,
        Nat.shiftRight_eq_div_pow, hw]
      show (a.toNat + 256 * b.toNat) / 256 % 256 = _
      omega
    unfold bytes16
    rw [h0, h1]
    rfl

theorem bytes32_word32 {m : List UInt8} (h : 4 ≤ m.length) : bytes32 (word32 m) = m.take 4 := by
  match m, h with
  | a :: b :: c :: d :: m, _ =>
    have ha := UInt8.toNat_lt a
    have hb := UInt8.toNat_lt b
    have hc := UInt8.toNat_lt c
    have hd := UInt8.toNat_lt d
    have hw : (word32 (a :: b :: c :: d :: m)).toNat =
        a.toNat + 256 * b.toNat + 65536 * c.toNat + 16777216 * d.toNat := by
      show (UInt32.ofNat (a.toNat + 256 * b.toNat + 65536 * c.toNat + 16777216 * d.toNat)).toNat = _
      rw [UInt32.toNat_ofNat']
      exact Nat.mod_eq_of_lt (by omega)
    have hshift : ∀ k : UInt32, ∀ e : UInt8,
        (word32 (a :: b :: c :: d :: m)).toNat / 2 ^ (k.toNat % 32) % 256 = e.toNat →
          (word32 (a :: b :: c :: d :: m) >>> k).toUInt8 = e := by
      intro k e hk
      rw [← UInt8.toNat_inj, UInt32.toNat_toUInt8, UInt32.toNat_shiftRight,
        Nat.shiftRight_eq_div_pow]
      exact hk
    have h0 : (word32 (a :: b :: c :: d :: m)).toUInt8 = a := by
      rw [← UInt8.toNat_inj, UInt32.toNat_toUInt8, hw]
      omega
    have h1 := hshift 8 b (by
      rw [hw]
      show _ / 256 % 256 = _
      omega)
    have h2 := hshift 16 c (by
      rw [hw]
      show _ / 65536 % 256 = _
      omega)
    have h3 := hshift 24 d (by
      rw [hw]
      show _ / 16777216 % 256 = _
      omega)
    unfold bytes32
    rw [h0, h1, h2, h3]
    rfl

end LittleEndian
