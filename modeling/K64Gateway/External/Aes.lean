import Mathlib

/-
  The block cipher and its chaining in `components/external/aes/aes.c`, AES with a key of
  128 bits in CBC mode.

  Proved: `BlockDecrypt` undoes `BlockEncrypt` under every key schedule
  (`blockDecrypt_blockEncrypt`), and `AES_Decrypt` undoes `AES_Encrypt` on data of whole blocks
  (`aesDecrypt_aesEncrypt`).
-/

namespace K64Gateway.Aes

/-- A state of `4*Nb` bytes. -/
structure Block where
  bytes : List UInt8
  length_bytes : bytes.length = 16
deriving DecidableEq

/-- Byte `i` of a state. -/
def Block.get (s : Block) (i : Nat) : UInt8 := s.bytes.getD i 0

def Block.ofFn (f : Nat → UInt8) : Block where
  bytes := (List.range 16).map f
  length_bytes := by rw [List.length_map, List.length_range]

def nr : Nat := 10

def sBox : List UInt8 :=
  [0x63, 0x7c, 0x77, 0x7b, 0xf2, 0x6b, 0x6f, 0xc5, 0x30, 0x01, 0x67, 0x2b, 0xfe, 0xd7, 0xab, 0x76,
   0xca, 0x82, 0xc9, 0x7d, 0xfa, 0x59, 0x47, 0xf0, 0xad, 0xd4, 0xa2, 0xaf, 0x9c, 0xa4, 0x72, 0xc0,
   0xb7, 0xfd, 0x93, 0x26, 0x36, 0x3f, 0xf7, 0xcc, 0x34, 0xa5, 0xe5, 0xf1, 0x71, 0xd8, 0x31, 0x15,
   0x04, 0xc7, 0x23, 0xc3, 0x18, 0x96, 0x05, 0x9a, 0x07, 0x12, 0x80, 0xe2, 0xeb, 0x27, 0xb2, 0x75,
   0x09, 0x83, 0x2c, 0x1a, 0x1b, 0x6e, 0x5a, 0xa0, 0x52, 0x3b, 0xd6, 0xb3, 0x29, 0xe3, 0x2f, 0x84,
   0x53, 0xd1, 0x00, 0xed, 0x20, 0xfc, 0xb1, 0x5b, 0x6a, 0xcb, 0xbe, 0x39, 0x4a, 0x4c, 0x58, 0xcf,
   0xd0, 0xef, 0xaa, 0xfb, 0x43, 0x4d, 0x33, 0x85, 0x45, 0xf9, 0x02, 0x7f, 0x50, 0x3c, 0x9f, 0xa8,
   0x51, 0xa3, 0x40, 0x8f, 0x92, 0x9d, 0x38, 0xf5, 0xbc, 0xb6, 0xda, 0x21, 0x10, 0xff, 0xf3, 0xd2,
   0xcd, 0x0c, 0x13, 0xec, 0x5f, 0x97, 0x44, 0x17, 0xc4, 0xa7, 0x7e, 0x3d, 0x64, 0x5d, 0x19, 0x73,
   0x60, 0x81, 0x4f, 0xdc, 0x22, 0x2a, 0x90, 0x88, 0x46, 0xee, 0xb8, 0x14, 0xde, 0x5e, 0x0b, 0xdb,
   0xe0, 0x32, 0x3a, 0x0a, 0x49, 0x06, 0x24, 0x5c, 0xc2, 0xd3, 0xac, 0x62, 0x91, 0x95, 0xe4, 0x79,
   0xe7, 0xc8, 0x37, 0x6d, 0x8d, 0xd5, 0x4e, 0xa9, 0x6c, 0x56, 0xf4, 0xea, 0x65, 0x7a, 0xae, 0x08,
   0xba, 0x78, 0x25, 0x2e, 0x1c, 0xa6, 0xb4, 0xc6, 0xe8, 0xdd, 0x74, 0x1f, 0x4b, 0xbd, 0x8b, 0x8a,
   0x70, 0x3e, 0xb5, 0x66, 0x48, 0x03, 0xf6, 0x0e, 0x61, 0x35, 0x57, 0xb9, 0x86, 0xc1, 0x1d, 0x9e,
   0xe1, 0xf8, 0x98, 0x11, 0x69, 0xd9, 0x8e, 0x94, 0x9b, 0x1e, 0x87, 0xe9, 0xce, 0x55, 0x28, 0xdf,
   0x8c, 0xa1, 0x89, 0x0d, 0xbf, 0xe6, 0x42, 0x68, 0x41, 0x99, 0x2d, 0x0f, 0xb0, 0x54, 0xbb, 0x16]

def invSBox : List UInt8 :=
  [0x52, 0x09, 0x6a, 0xd5, 0x30, 0x36, 0xa5, 0x38, 0xbf, 0x40, 0xa3, 0x9e, 0x81, 0xf3, 0xd7, 0xfb,
   0x7c, 0xe3, 0x39, 0x82, 0x9b, 0x2f, 0xff, 0x87, 0x34, 0x8e, 0x43, 0x44, 0xc4, 0xde, 0xe9, 0xcb,
   0x54, 0x7b, 0x94, 0x32, 0xa6, 0xc2, 0x23, 0x3d, 0xee, 0x4c, 0x95, 0x0b, 0x42, 0xfa, 0xc3, 0x4e,
   0x08, 0x2e, 0xa1, 0x66, 0x28, 0xd9, 0x24, 0xb2, 0x76, 0x5b, 0xa2, 0x49, 0x6d, 0x8b, 0xd1, 0x25,
   0x72, 0xf8, 0xf6, 0x64, 0x86, 0x68, 0x98, 0x16, 0xd4, 0xa4, 0x5c, 0xcc, 0x5d, 0x65, 0xb6, 0x92,
   0x6c, 0x70, 0x48, 0x50, 0xfd, 0xed, 0xb9, 0xda, 0x5e, 0x15, 0x46, 0x57, 0xa7, 0x8d, 0x9d, 0x84,
   0x90, 0xd8, 0xab, 0x00, 0x8c, 0xbc, 0xd3, 0x0a, 0xf7, 0xe4, 0x58, 0x05, 0xb8, 0xb3, 0x45, 0x06,
   0xd0, 0x2c, 0x1e, 0x8f, 0xca, 0x3f, 0x0f, 0x02, 0xc1, 0xaf, 0xbd, 0x03, 0x01, 0x13, 0x8a, 0x6b,
   0x3a, 0x91, 0x11, 0x41, 0x4f, 0x67, 0xdc, 0xea, 0x97, 0xf2, 0xcf, 0xce, 0xf0, 0xb4, 0xe6, 0x73,
   0x96, 0xac, 0x74, 0x22, 0xe7, 0xad, 0x35, 0x85, 0xe2, 0xf9, 0x37, 0xe8, 0x1c, 0x75, 0xdf, 0x6e,
   0x47, 0xf1, 0x1a, 0x71, 0x1d, 0x29, 0xc5, 0x89, 0x6f, 0xb7, 0x62, 0x0e, 0xaa, 0x18, 0xbe, 0x1b,
   0xfc, 0x56, 0x3e, 0x4b, 0xc6, 0xd2, 0x79, 0x20, 0x9a, 0xdb, 0xc0, 0xfe, 0x78, 0xcd, 0x5a, 0xf4,
   0x1f, 0xdd, 0xa8, 0x33, 0x88, 0x07, 0xc7, 0x31, 0xb1, 0x12, 0x10, 0x59, 0x27, 0x80, 0xec, 0x5f,
   0x60, 0x51, 0x7f, 0xa9, 0x19, 0xb5, 0x4a, 0x0d, 0x2d, 0xe5, 0x7a, 0x9f, 0x93, 0xc9, 0x9c, 0xef,
   0xa0, 0xe0, 0x3b, 0x4d, 0xae, 0x2a, 0xf5, 0xb0, 0xc8, 0xeb, 0xbb, 0x3c, 0x83, 0x53, 0x99, 0x61,
   0x17, 0x2b, 0x04, 0x7e, 0xba, 0x77, 0xd6, 0x26, 0xe1, 0x69, 0x14, 0x63, 0x55, 0x21, 0x0c, 0x7d]

/-! ## One block -/

/-- `XorBytes` on a whole block. -/
def xorBytes (pData1 pData2 : Block) : Block := .ofFn fun i => pData1.get i ^^^ pData2.get i

/-- `SubBytes`. -/
def subBytes (pState : Block) (bInvert : Bool) : Block :=
  .ofFn fun i => (if bInvert then invSBox else sBox).getD (pState.get i).toNat 0

/-- `ShiftRows`: byte `r + 4*c` is row `r` of column `c`. -/
def shiftRows (pState : Block) (bInvert : Bool) : Block :=
  .ofFn fun i =>
    let r := i % 4
    let c := i / 4
    let temp := if bInvert then 4 - r else r
    pState.get (r + 4 * ((c + temp) % 4))

/-- `GfMultBy02`. -/
def gfMultBy02 (num : UInt8) : UInt8 :=
  if num &&& 0x80 = 0 then num <<< 1 else (num <<< 1) ^^^ 0x1b

/-- `result[j]` of `MixColumns` for the column `a`. -/
def mixResult (a : Nat → UInt8) (bInvert : Bool) (j : Nat) : UInt8 :=
  let temp := a 0 ^^^ a 1 ^^^ a 2 ^^^ a 3
  let result := temp ^^^ a j ^^^ gfMultBy02 (a j ^^^ a ((j + 1) % 4))
  if bInvert then
    let a0Pa2_M4 := gfMultBy02 (gfMultBy02 (a 0 ^^^ a 2))
    let a1Pa3_M4 := gfMultBy02 (gfMultBy02 (a 1 ^^^ a 3))
    let temp := gfMultBy02 (a0Pa2_M4 ^^^ a1Pa3_M4)
    result ^^^ (temp ^^^ (if j % 2 = 0 then a0Pa2_M4 else a1Pa3_M4))
  else result

/-- `MixColumns`. -/
def mixColumns (pState : Block) (bInvert : Bool) : Block :=
  .ofFn fun i => mixResult (fun k => pState.get (4 * (i / 4) + k)) bInvert (i % 4)

/-- The rounds of `BlockEncrypt` up to round `i`. -/
def encryptRounds (roundKey : Nat → Block) (pState : Block) : Nat → Block
  | 0 => xorBytes pState (roundKey 0)
  | i + 1 =>
      let s := shiftRows (subBytes (encryptRounds roundKey pState i) false) false
      let s := if i + 1 ≠ nr then mixColumns s false else s
      xorBytes s (roundKey (i + 1))

/-- `BlockEncrypt` with the key schedule `roundKey`. -/
def blockEncrypt (roundKey : Nat → Block) (pState : Block) : Block :=
  encryptRounds roundKey pState nr

/-- The loop of `BlockDecrypt` from round `i` down to round 1. -/
def decryptRounds (roundKey : Nat → Block) : Nat → Block → Block
  | 0, s => s
  | i + 1, s =>
      let s := xorBytes (subBytes (shiftRows s true) true) (roundKey i)
      decryptRounds roundKey i (if i + 1 ≠ 1 then mixColumns s true else s)

/-- `BlockDecrypt`. -/
def blockDecrypt (roundKey : Nat → Block) (pState : Block) : Block :=
  decryptRounds roundKey nr (xorBytes pState (roundKey nr))

/-- The block at the start of `data`. -/
def blockOf (data : List UInt8) : Block := .ofFn fun i => data.getD i 0

/-! ## The key schedule -/

/-- The loop body of `AES_Init`: the next word of `g_roundKeyTable`, and `Rcon[0]`. -/
def initStep (i : Nat) (t : List UInt8 × UInt8) : List UInt8 × UInt8 :=
  let table := t.1
  let word := table.drop (table.length - 4)
  let back := table.drop (table.length - 16)
  if i % 4 = 0 then
    let word := (word.drop 1 ++ word.take 1).map fun b => sBox.getD b.toNat 0
    let word := List.zipWith (· ^^^ ·) word [t.2, 0, 0, 0]
    (table ++ List.zipWith (· ^^^ ·) word back, gfMultBy02 t.2)
  else (table ++ List.zipWith (· ^^^ ·) word back, t.2)

/-- `AES_Init`: the round keys. -/
def aesInit (pKey : List UInt8) (i : Nat) : Block :=
  let table := ((List.range' 4 40).foldl (fun t i => initStep i t) (pKey, 0x01)).1
  blockOf (table.drop (16 * i))

/-! ## Chaining -/

/-- The loop of `AES_Encrypt` over `i` blocks. -/
def encryptBlocks (roundKey : Nat → Block) : Nat → Block → List UInt8 → List UInt8
  | 0, _, data => data
  | i + 1, pIV, data =>
      let c := blockEncrypt roundKey (xorBytes (blockOf data) pIV)
      c.bytes ++ encryptBlocks roundKey i c (data.drop 16)

/-- `AES_Encrypt`: the whole blocks from the front on. -/
def aesEncrypt (roundKey : Nat → Block) (data : List UInt8) (pIV : Block) : List UInt8 :=
  encryptBlocks roundKey (data.length / 16) pIV data

/-- The loop of `AES_Decrypt` over `i` blocks. The source goes from the last block back, so the
    block before is still the cipher text it received; here that block is handed on. -/
def decryptBlocks (roundKey : Nat → Block) : Nat → Block → List UInt8 → List UInt8
  | 0, _, data => data
  | i + 1, pIV, data =>
      (xorBytes (blockDecrypt roundKey (blockOf data)) pIV).bytes ++
        decryptBlocks roundKey i (blockOf data) (data.drop 16)

/-- `AES_Decrypt`: the whole blocks from the back on, so what is left over stands in front. -/
def aesDecrypt (roundKey : Nat → Block) (data : List UInt8) (pIV : Block) : List UInt8 :=
  data.take (data.length % 16) ++
    decryptBlocks roundKey (data.length / 16) pIV (data.drop (data.length % 16))

/-! ## Decryption of one block -/

theorem get_ofFn (f : Nat → UInt8) {i : Nat} (h : i < 16) : (Block.ofFn f).get i = f i := by
  unfold Block.get Block.ofFn
  rw [List.getD_eq_getElem _ _ (by rw [List.length_map, List.length_range]; exact h),
    List.getElem_map, List.getElem_range]

theorem block_ext {s t : Block} (h : ∀ i < 16, s.get i = t.get i) : s = t := by
  obtain ⟨a, ha⟩ := s
  obtain ⟨b, hb⟩ := t
  have hab : a = b := by
    refine List.ext_getElem (by rw [ha, hb]) fun i h1 h2 => ?_
    have := h i (by omega)
    simp only [Block.get] at this
    rwa [List.getD_eq_getElem _ _ h1, List.getD_eq_getElem _ _ h2] at this
  subst hab
  rfl

theorem xor_xor_cancel (a b : UInt8) : a ^^^ b ^^^ b = a := by
  rw [UInt8.xor_assoc, UInt8.xor_self, UInt8.xor_zero]

theorem xorBytes_xorBytes (s k : Block) : xorBytes (xorBytes s k) k = s := by
  apply block_ext
  intro i hi
  unfold xorBytes
  rw [get_ofFn _ hi, get_ofFn _ hi, xor_xor_cancel]

theorem invSBox_sBox (b : UInt8) : invSBox.getD (sBox.getD b.toNat 0).toNat 0 = b := by
  have hall : sBox.map (fun c => invSBox.getD c.toNat 0) = (List.range 256).map UInt8.ofNat := by
    decide +kernel
  have hget : (sBox.map fun c => invSBox.getD c.toNat 0)[b.toNat]? = some b := by
    rw [hall, List.getElem?_map, List.getElem?_range (UInt8.toNat_lt b), Option.map_some,
      UInt8.ofNat_toNat]
  rw [List.getElem?_map, Option.map_eq_some_iff] at hget
  obtain ⟨c, hc, hinv⟩ := hget
  have hsub : sBox.getD b.toNat 0 = c := by
    rw [List.getD_eq_getElem?_getD, hc, Option.getD_some]
  rw [hsub]
  exact hinv

theorem subBytes_subBytes (s : Block) : subBytes (subBytes s false) true = s := by
  apply block_ext
  intro i hi
  unfold subBytes
  rw [get_ofFn _ hi, get_ofFn _ hi]
  exact invSBox_sBox (s.get i)

theorem shiftRows_shiftRows (s : Block) : shiftRows (shiftRows s false) true = s := by
  apply block_ext
  intro i hi
  unfold shiftRows
  rw [get_ofFn _ hi]
  dsimp only
  rw [get_ofFn _ (by omega)]
  congr 1
  simp only [if_true, Bool.false_eq_true, if_false]
  omega

theorem xor_left_cancel (a b : UInt8) : a ^^^ (a ^^^ b) = b := by
  rw [← UInt8.xor_assoc, UInt8.xor_self, UInt8.zero_xor]

theorem xor_left_comm (a b c : UInt8) : a ^^^ (b ^^^ c) = b ^^^ (a ^^^ c) := by
  rw [← UInt8.xor_assoc, UInt8.xor_comm a b, UInt8.xor_assoc]

theorem and_top_xor (a b : UInt8) : (a ^^^ b) &&& 0x80 = (a &&& 0x80) ^^^ (b &&& 0x80) := by
  apply UInt8.toBitVec_inj.mp
  simp only [UInt8.toBitVec_and, UInt8.toBitVec_xor]
  refine BitVec.eq_of_getLsbD_eq fun i _ => ?_
  simp only [BitVec.getLsbD_and, BitVec.getLsbD_xor]
  exact Bool.and_xor_distrib_right _ _ _

theorem and_top (a : UInt8) : a &&& 0x80 = 0 ∨ a &&& 0x80 = 0x80 := by
  have hall : ∀ n < 256, UInt8.ofNat n &&& 0x80 = 0 ∨ UInt8.ofNat n &&& 0x80 = 0x80 := by
    decide +kernel
  have := hall a.toNat (UInt8.toNat_lt a)
  rwa [UInt8.ofNat_toNat] at this

/-- `GfMultBy02` is linear: the reduction depends on the top bit alone. -/
theorem gfMultBy02_xor (a b : UInt8) :
    gfMultBy02 (a ^^^ b) = gfMultBy02 a ^^^ gfMultBy02 b := by
  unfold gfMultBy02
  rw [and_top_xor, UInt8.shiftLeft_xor]
  have hne : ¬ (0x80 : UInt8) = 0 := by decide
  rcases and_top a with ha | ha <;> rcases and_top b with hb | hb
  · rw [ha, hb, if_pos UInt8.xor_self, if_pos rfl, if_pos rfl]
  · rw [ha, hb, if_neg (by decide), if_pos rfl, if_neg hne, UInt8.xor_assoc]
  · rw [ha, hb, if_neg (by decide), if_neg hne, if_pos rfl, UInt8.xor_assoc, UInt8.xor_assoc,
      UInt8.xor_comm (0x1b : UInt8)]
  · rw [ha, hb, if_pos UInt8.xor_self, if_neg hne, if_neg hne]
    rw [UInt8.xor_assoc, xor_left_comm (0x1b : UInt8), UInt8.xor_self, UInt8.xor_zero]

/-- One byte of the inverse column map after the column map, the column read from that byte on:
    in characteristic two everything but the byte cancels. -/
theorem mix_cancel (a b c d r0 r1 r2 r3 : UInt8) {t r m m' u : UInt8}
    (ht : t = a ^^^ b ^^^ c ^^^ d)
    (h0 : r0 = t ^^^ a ^^^ gfMultBy02 (a ^^^ b)) (h1 : r1 = t ^^^ b ^^^ gfMultBy02 (b ^^^ c))
    (h2 : r2 = t ^^^ c ^^^ gfMultBy02 (c ^^^ d)) (h3 : r3 = t ^^^ d ^^^ gfMultBy02 (d ^^^ a))
    (hr : r = r0 ^^^ r1 ^^^ r2 ^^^ r3) (hm : m = gfMultBy02 (gfMultBy02 (r0 ^^^ r2)))
    (hm' : m' = gfMultBy02 (gfMultBy02 (r1 ^^^ r3))) (hu : u = gfMultBy02 (m ^^^ m')) :
    r ^^^ r0 ^^^ gfMultBy02 (r0 ^^^ r1) ^^^ (u ^^^ m) = a := by
  have h01 : r0 ^^^ r1 = a ^^^ b ^^^ gfMultBy02 (a ^^^ c) := by
    rw [h0, h1]
    simp only [gfMultBy02_xor, UInt8.xor_assoc, UInt8.xor_comm, xor_left_comm, xor_left_cancel]
  have h02 : r0 ^^^ r2 = a ^^^ c ^^^ gfMultBy02 t := by
    rw [h0, h2, ht]
    simp only [gfMultBy02_xor, UInt8.xor_assoc, UInt8.xor_comm, xor_left_comm, xor_left_cancel]
  have h13 : r1 ^^^ r3 = b ^^^ d ^^^ gfMultBy02 t := by
    rw [h1, h3, ht]
    simp only [gfMultBy02_xor, UInt8.xor_assoc, UInt8.xor_comm, xor_left_comm, xor_left_cancel]
  have hsum : r = t := by
    have hpair : r0 ^^^ r1 ^^^ r2 ^^^ r3 = (r0 ^^^ r2) ^^^ (r1 ^^^ r3) := by ac_rfl
    rw [hr, hpair, h02, h13, ht]
    simp only [UInt8.xor_assoc, UInt8.xor_comm, xor_left_comm, UInt8.xor_self, UInt8.xor_zero]
  have htemp : m ^^^ m' = gfMultBy02 (gfMultBy02 t) := by
    rw [hm, hm', ← gfMultBy02_xor, ← gfMultBy02_xor, h02, h13, ht]
    congr 2
    simp only [UInt8.xor_assoc, UInt8.xor_comm, xor_left_comm, UInt8.xor_self, UInt8.xor_zero]
  rw [hsum, hu, htemp, hm, h01, h02, h0]
  simp only [gfMultBy02_xor, UInt8.xor_assoc, UInt8.xor_comm, xor_left_comm, xor_left_cancel,
    UInt8.xor_self, UInt8.xor_zero]

/-- The inverse column map undoes the column map. -/
theorem mixResult_mixResult (a : Nat → UInt8) {j : Nat} (hj : j < 4) :
    mixResult (mixResult a false) true j = a j := by
  let x := gfMultBy02
  let b := mixResult a false
  have ht (a b c d : UInt8) : a ^^^ b ^^^ c ^^^ d = b ^^^ c ^^^ d ^^^ a := by ac_rfl
  have ht' (a b c d : UInt8) : a ^^^ b ^^^ c ^^^ d = c ^^^ d ^^^ a ^^^ b := by ac_rfl
  have ht'' (a b c d : UInt8) : a ^^^ b ^^^ c ^^^ d = d ^^^ a ^^^ b ^^^ c := by ac_rfl
  match j, hj with
  | 0, _ =>
    exact mix_cancel (a 0) (a 1) (a 2) (a 3) (b 0) (b 1) (b 2) (b 3) rfl rfl rfl rfl rfl rfl rfl
      rfl rfl
  | 1, _ =>
    show b 0 ^^^ b 1 ^^^ b 2 ^^^ b 3 ^^^ b 1 ^^^ x (b 1 ^^^ b 2) ^^^
      (x (x (x (b 0 ^^^ b 2)) ^^^ x (x (b 1 ^^^ b 3))) ^^^ x (x (b 1 ^^^ b 3))) = a 1
    rw [UInt8.xor_comm (x (x (b 0 ^^^ b 2))), UInt8.xor_comm (b 0) (b 2)]
    exact mix_cancel (a 1) (a 2) (a 3) (a 0) (b 1) (b 2) (b 3) (b 0) (ht _ _ _ _)
      rfl rfl rfl rfl (ht _ _ _ _) rfl rfl rfl
  | 2, _ =>
    show b 0 ^^^ b 1 ^^^ b 2 ^^^ b 3 ^^^ b 2 ^^^ x (b 2 ^^^ b 3) ^^^
      (x (x (x (b 0 ^^^ b 2)) ^^^ x (x (b 1 ^^^ b 3))) ^^^ x (x (b 0 ^^^ b 2))) = a 2
    rw [UInt8.xor_comm (b 0) (b 2), UInt8.xor_comm (b 1) (b 3)]
    exact mix_cancel (a 2) (a 3) (a 0) (a 1) (b 2) (b 3) (b 0) (b 1) (ht' _ _ _ _)
      rfl rfl rfl rfl (ht' _ _ _ _) rfl rfl rfl
  | 3, _ =>
    show b 0 ^^^ b 1 ^^^ b 2 ^^^ b 3 ^^^ b 3 ^^^ x (b 3 ^^^ b 0) ^^^
      (x (x (x (b 0 ^^^ b 2)) ^^^ x (x (b 1 ^^^ b 3))) ^^^ x (x (b 1 ^^^ b 3))) = a 3
    rw [UInt8.xor_comm (x (x (b 0 ^^^ b 2))), UInt8.xor_comm (b 1) (b 3)]
    exact mix_cancel (a 3) (a 0) (a 1) (a 2) (b 3) (b 0) (b 1) (b 2) (ht'' _ _ _ _)
      rfl rfl rfl rfl (ht'' _ _ _ _) rfl rfl rfl

theorem mixResult_congr {a b : Nat → UInt8} (h : ∀ k < 4, a k = b k) (bInvert : Bool) {j : Nat}
    (hj : j < 4) : mixResult a bInvert j = mixResult b bInvert j := by
  unfold mixResult
  rw [h 0 (by omega), h 1 (by omega), h 2 (by omega), h 3 (by omega), h j hj,
    h ((j + 1) % 4) (by omega)]

theorem mixColumns_mixColumns (s : Block) : mixColumns (mixColumns s false) true = s := by
  apply block_ext
  intro i hi
  have hrow : ∀ k < 4, (mixColumns s false).get (4 * (i / 4) + k) =
      mixResult (fun k => s.get (4 * (i / 4) + k)) false k := by
    intro k hk
    unfold mixColumns
    rw [get_ofFn _ (by omega)]
    have hdiv : (4 * (i / 4) + k) / 4 = i / 4 := by omega
    have hmod : (4 * (i / 4) + k) % 4 = k := by omega
    rw [hdiv, hmod]
  have hcol : mixColumns (mixColumns s false) true =
      .ofFn fun i => mixResult (fun k => (mixColumns s false).get (4 * (i / 4) + k)) true (i % 4) := rfl
  rw [hcol, get_ofFn _ hi, mixResult_congr hrow true (by omega), mixResult_mixResult _ (by omega)]
  congr 1
  omega

/-! ## The whole cipher -/

/-- From the state after `n` rounds, in the middle of round `n + 1`, decryption leads back to the
    plain text. -/
theorem decryptRounds_encryptRounds (roundKey : Nat → Block) (s : Block) {n : Nat} (hn : n < nr) :
    decryptRounds roundKey (n + 1)
      (shiftRows (subBytes (encryptRounds roundKey s n) false) false) = s := by
  induction n with
  | zero =>
    rw [decryptRounds, shiftRows_shiftRows, subBytes_subBytes, encryptRounds, xorBytes_xorBytes]
    rfl
  | succ n ih =>
    have hmix : n + 1 ≠ nr := by omega
    rw [decryptRounds, shiftRows_shiftRows, subBytes_subBytes, encryptRounds, if_pos hmix,
      xorBytes_xorBytes, if_pos (by omega), mixColumns_mixColumns]
    exact ih (by omega)

theorem blockDecrypt_blockEncrypt (roundKey : Nat → Block) (s : Block) :
    blockDecrypt roundKey (blockEncrypt roundKey s) = s := by
  unfold blockDecrypt blockEncrypt
  rw [show nr = 9 + 1 from rfl, encryptRounds, if_neg (by decide), xorBytes_xorBytes]
  exact decryptRounds_encryptRounds roundKey s (by decide)

theorem blockOf_append (s : Block) (rest : List UInt8) : blockOf (s.bytes ++ rest) = s := by
  apply block_ext
  intro i hi
  unfold blockOf
  have hlen := s.length_bytes
  rw [get_ofFn _ hi, List.getD_append _ _ _ _ (by omega)]
  rfl

theorem bytes_blockOf {data : List UInt8} (h : 16 ≤ data.length) :
    (blockOf data).bytes = data.take 16 := by
  refine List.ext_getElem ?_ fun i h1 h2 => ?_
  · rw [(blockOf data).length_bytes, List.length_take]
    omega
  · have hi : i < 16 := by
      rw [(blockOf data).length_bytes] at h1
      exact h1
    have hget : (blockOf data).bytes.getD i 0 = data.getD i 0 := get_ofFn _ hi
    rw [List.getD_eq_getElem _ _ h1, List.getD_eq_getElem _ _ (by omega)] at hget
    rw [List.getElem_take]
    exact hget

theorem length_encryptBlocks (roundKey : Nat → Block) (n : Nat) (pIV : Block) {data : List UInt8}
    (h : 16 * n ≤ data.length) : (encryptBlocks roundKey n pIV data).length = data.length := by
  induction n generalizing pIV data with
  | zero => rfl
  | succ n ih =>
    rw [encryptBlocks, List.length_append, Block.length_bytes, ih _ (by rw [List.length_drop]; omega),
      List.length_drop]
    omega

theorem length_decryptBlocks (roundKey : Nat → Block) (n : Nat) (pIV : Block) {data : List UInt8}
    (h : 16 * n ≤ data.length) : (decryptBlocks roundKey n pIV data).length = data.length := by
  induction n generalizing pIV data with
  | zero => rfl
  | succ n ih =>
    rw [decryptBlocks, List.length_append, Block.length_bytes,
      ih _ (by rw [List.length_drop]; omega), List.length_drop]
    omega

theorem decryptBlocks_encryptBlocks (roundKey : Nat → Block) (n : Nat) (pIV : Block)
    {data : List UInt8} (h : 16 * n ≤ data.length) :
    decryptBlocks roundKey n pIV (encryptBlocks roundKey n pIV data) = data := by
  induction n generalizing pIV data with
  | zero => rfl
  | succ n ih =>
    rw [encryptBlocks, decryptBlocks, blockOf_append, blockDecrypt_blockEncrypt, xorBytes_xorBytes,
      List.drop_left' (Block.length_bytes _), ih _ (by rw [List.length_drop]; omega),
      bytes_blockOf (by omega), List.take_append_drop]

theorem length_aesEncrypt (roundKey : Nat → Block) (data : List UInt8) (pIV : Block) :
    (aesEncrypt roundKey data pIV).length = data.length :=
  length_encryptBlocks roundKey _ pIV (Nat.mul_div_le data.length 16)

theorem length_aesDecrypt (roundKey : Nat → Block) (data : List UInt8) (pIV : Block) :
    (aesDecrypt roundKey data pIV).length = data.length := by
  have hdiv := Nat.div_add_mod data.length 16
  unfold aesDecrypt
  rw [List.length_append, length_decryptBlocks roundKey _ pIV (by rw [List.length_drop]; omega),
    List.length_take, List.length_drop]
  omega

/-- `AES_Decrypt` undoes `AES_Encrypt` on whole blocks. -/
theorem aesDecrypt_aesEncrypt (roundKey : Nat → Block) {data : List UInt8} (pIV : Block)
    (h : data.length % 16 = 0) :
    aesDecrypt roundKey (aesEncrypt roundKey data pIV) pIV = data := by
  unfold aesDecrypt
  rw [length_aesEncrypt, h, List.take_zero, List.drop_zero, List.nil_append]
  exact decryptBlocks_encryptBlocks roundKey _ pIV (Nat.mul_div_le data.length 16)

end K64Gateway.Aes
