import K64Gateway.Lib.LittleEndian
import K64Gateway.VarManage.Types

/-
  Reading a data item of a DL/T 645 meter, `sdccp/dlt645.c`: `bDlt645ReadData` sends the request
  and waits for a result, `Dlt645_PutBytes` takes a frame and `Dlt645_ParsePack` posts its result.

  A meter adds 0x33 to every byte of the data, the gateway adds 0x33333333 to the identifier.
  Proved: for which identifiers the two are the same (`conforms_iff`).
-/

namespace K64Gateway.Dlt645

open LittleEndian
open VarManage (Dlt645Addr)

/-! ## Frames -/

/-- `DLT645_PRE` and `DLT645_MID` -/
def dlt645Pre : UInt8 := 0x68

/-- `DLT645_EOM` -/
def dlt645Eom : UInt8 := 0x16

def addrBytes (a : Dlt645Addr) : List UInt8 := [a.a0, a.a1, a.a2, a.a3, a.a4, a.a5]

/-- `CheckSum` -/
def checkSum (buf : List UInt8) : UInt8 := buf.foldl (· + ·) 0

/-- A frame up to its check. -/
def frameHead (xAddr : Dlt645Addr) (xCon : UInt8) (pData : List UInt8) : List UInt8 :=
  [dlt645Pre] ++ addrBytes xAddr ++ [dlt645Pre, xCon, UInt8.ofNat pData.length] ++ pData

/-- `vCreatePaket` -/
def vCreatePaket (xAddr : Dlt645Addr) (xCon : UInt8) (pData : List UInt8) : List UInt8 :=
  frameHead xAddr xCon pData ++ [checkSum (frameHead xAddr xCon pData), dlt645Eom]

/-- The control byte of `C_CODE_READ_DATA` from the host. -/
def conReadData : UInt8 := 0x11

/-- What `bDlt645ReadData` sends. -/
def readDataRequest (xaddr : Dlt645Addr) (DataMarker : UInt32) : List UInt8 :=
  vCreatePaket xaddr conReadData (bytes32 (DataMarker + 0x33333333))

/-! ## Results -/

/-- The numbers of `vPraseData`, which are of floating point. -/
structure Decoder (V : Type) where
  dataToDouble : List UInt8 → V
  signedToDouble : List UInt8 → V
  div : V → Nat → V

/-- `S_DLT645_Result_t` -/
structure Result (V : Type) where
  index : Int
  addr : Dlt645Addr
  op : UInt32
  val : V

/-- The part of `S_DLT645_Package_t` that is read; `pData` goes on behind the frame. -/
structure Package where
  xAddr : Dlt645Addr
  xCon : UInt8
  btLen : UInt8
  pData : List UInt8

/-- `C_CODE`, `ACK` and `DIR` of the control byte. -/
def conCode (xCon : UInt8) : UInt8 := xCon &&& 0x1F
def conAck (xCon : UInt8) : UInt8 := (xCon >>> 6) &&& 1
def conDir (xCon : UInt8) : UInt8 := xCon >>> 7

/-- `len` bytes behind the identifier; what is read behind the frame is 0. -/
def Package.data (p : Package) (len : Nat) : List UInt8 :=
  (List.range len).map fun i => p.pData.getD (4 + i) 0

/-- `DataMark` of `Dlt645_ParsePack`. -/
def Package.dataMark (p : Package) : UInt32 := word32 p.pData - 0x33333333

section Decode

variable {V : Type} (dec : Decoder V)

/-- `vPraseData`. No mark is both at most `ENERGY_DATA_MARK_E0` and at least
    `ENERGY_DATA_MARK_E4`, as the source asks for the sign of the last group. -/
def vPraseData (pData : List UInt8) (mark : UInt32) : Option V :=
  let len := pData.length
  if len = 0 then none
  else if mark ≤ 0x00440000 then
    if len = 4 then
      some (dec.div (if mark ≤ 0x00000400 ∨ (0x00030000 ≤ mark ∧ mark ≤ 0x00030400) ∨
          (mark ≤ 0x00040000 ∧ 0x00040400 ≤ mark) then dec.signedToDouble pData
        else dec.dataToDouble pData) 100)
    else none
  else if 0x02010100 ≤ mark ∧ mark ≤ 0x0201FF00 then
    if len = 2 then some (dec.div (dec.dataToDouble pData) 10) else none
  else if 0x02020100 ≤ mark ∧ mark ≤ 0x0202FF00 then
    if len = 3 then some (dec.div (dec.signedToDouble pData) 1000) else none
  else if 0x02030000 ≤ mark ∧ mark ≤ 0x0205FF00 then
    if len = 3 then some (dec.div (dec.signedToDouble pData) 10000) else none
  else if 0x02060000 ≤ mark ∧ mark ≤ 0x0206FF00 then
    if len = 2 then some (dec.div (dec.dataToDouble pData) 1000) else none
  else if 0x02070100 ≤ mark ∧ mark ≤ 0x02070400 then
    if len = 2 then some (dec.div (dec.dataToDouble pData) 10) else none
  else none

/-- `Dlt645_ParsePack`, with the result that it posts. -/
def dlt645ParsePack (index : Int) (p : Package) : Option (Result V) :=
  if conDir p.xCon = 1 ∧ conAck p.xCon = 0 then
    if conCode p.xCon = 0x11 ∧ 4 ≤ p.btLen then
      (vPraseData dec (p.data (p.btLen.toNat - 4)) p.dataMark).map fun val =>
        { index := index, addr := p.xAddr, op := p.dataMark, val := val }
    else none
  else none

/-- `Dlt645_PutBytes`; what is read behind the frame is 0. -/
def dlt645PutBytes (index : Int) (bytes : List UInt8) : Option (Result V) :=
  let pBytes := bytes.dropWhile (· ≠ dlt645Pre)
  let usBytesLen := pBytes.length
  if pBytes.getD 0 0 ≠ dlt645Pre ∨ pBytes.getD 7 0 ≠ dlt645Pre ∨
      pBytes.getD (usBytesLen - 1) 0 ≠ dlt645Eom then none
  else if checkSum (pBytes.take (usBytesLen - 2)) ≠ pBytes.getD (usBytesLen - 2) 0 then none
  else
    dlt645ParsePack dec index
      { xAddr := ⟨pBytes.getD 1 0, pBytes.getD 2 0, pBytes.getD 3 0, pBytes.getD 4 0,
          pBytes.getD 5 0, pBytes.getD 6 0⟩
        xCon := pBytes.getD 8 0
        btLen := pBytes.getD 9 0
        pData := pBytes.drop 10 }

/-- `bDlt645ReadData` on the results that arrive until a wait is over. -/
def bDlt645ReadData (xaddr : Dlt645Addr) (DataMarker : UInt32) (results : List (Result V)) :
    Option (Result V) :=
  results.find? fun result => result.addr = xaddr ∧ result.op = DataMarker

end Decode

/-! ## Identifiers -/

/-- The identifier as a meter sends it: 0x33 is added to every byte. -/
def offsetBytes (w : UInt32) : List UInt8 := (bytes32 w).map (· + 0x33)

/-- No byte but the highest one is above 0xCC. -/
def NoCarry (w : UInt32) : Prop :=
  w.toUInt8 ≤ 0xCC ∧ (w >>> 8).toUInt8 ≤ 0xCC ∧ (w >>> 16).toUInt8 ≤ 0xCC

instance (w : UInt32) : Decidable (NoCarry w) := inferInstanceAs (Decidable (_ ∧ _ ∧ _))

theorem toNat_byte (w : UInt32) (k : UInt32) (hk : k.toNat < 32) :
    (w >>> k).toUInt8.toNat = w.toNat / 2 ^ k.toNat % 256 := by
  rw [UInt32.toNat_toUInt8, UInt32.toNat_shiftRight, Nat.mod_eq_of_lt hk,
    Nat.shiftRight_eq_div_pow]

/-- The bytes of a word as numbers. -/
theorem bytes32_eq_ofNat (w : UInt32) :
    bytes32 w = [UInt8.ofNat w.toNat, UInt8.ofNat (w.toNat / 256), UInt8.ofNat (w.toNat / 65536),
      UInt8.ofNat (w.toNat / 16777216)] := by
  have h0 : w.toUInt8 = UInt8.ofNat w.toNat := rfl
  have hbyte : ∀ k : UInt32, k.toNat < 32 →
      (w >>> k).toUInt8 = UInt8.ofNat (w.toNat / 2 ^ k.toNat) := fun k hk =>
    UInt8.toNat_inj.mp ((toNat_byte w k hk).trans UInt8.toNat_ofNat'.symm)
  unfold bytes32
  rw [h0, hbyte 8 (by decide), hbyte 16 (by decide), hbyte 24 (by decide)]
  rfl

theorem noCarry_iff (w : UInt32) :
    NoCarry w ↔ w.toNat % 256 ≤ 204 ∧ w.toNat / 256 % 256 ≤ 204 ∧ w.toNat / 65536 % 256 ≤ 204 := by
  have h0 : w.toUInt8.toNat = w.toNat % 256 := UInt32.toNat_toUInt8 w
  have h1 := toNat_byte w 8 (by decide)
  have h2 := toNat_byte w 16 (by decide)
  unfold NoCarry
  rw [UInt8.le_iff_toNat_le, UInt8.le_iff_toNat_le, UInt8.le_iff_toNat_le, h0, h1, h2]
  rfl

/-- The request has the meter's bytes exactly without a carry. -/
theorem bytes32_add_iff (w : UInt32) : bytes32 (w + 0x33333333) = offsetBytes w ↔ NoCarry w := by
  have hlt := w.toNat_lt
  have hsum : (w + 0x33333333).toNat = (w.toNat + 858993459) % 4294967296 := UInt32.toNat_add w _
  have hbyte : ∀ m n : Nat, UInt8.ofNat m = UInt8.ofNat n + 0x33 ↔ m % 256 = (n % 256 + 51) % 256 :=
    fun m n => by
      rw [← UInt8.toNat_inj, UInt8.toNat_add, UInt8.toNat_ofNat', UInt8.toNat_ofNat']
      rfl
  unfold offsetBytes
  rw [bytes32_eq_ofNat, bytes32_eq_ofNat, noCarry_iff, hsum]
  simp only [List.map_cons, List.map_nil, List.cons.injEq, and_true, hbyte]
  omega

/-- So does the identifier that is recovered. -/
theorem word32_sub_iff (w : UInt32) :
    word32 (offsetBytes w) - 0x33333333 = w ↔ NoCarry w := by
  have hword : word32 (offsetBytes w) - 0x33333333 = w ↔
      word32 (offsetBytes w) = w + 0x33333333 := by
    constructor
    · intro h
      exact (UInt32.sub_add_cancel _ _).symm.trans (congrArg (· + 0x33333333) h)
    · intro h
      rw [h, UInt32.add_sub_cancel]
  have hlen : (offsetBytes w).length = 4 := rfl
  rw [hword, ← bytes32_add_iff]
  constructor
  · intro h
    rw [← h, bytes32_word32 (Nat.le_of_eq hlen.symm), ← hlen, List.take_length]
  · intro h
    rw [← h, ← List.append_nil (bytes32 _), word32_bytes32]

/-! ## A conforming meter -/

/-- The identifier of the request is the meter's, every reply with the meter's identifier is read
    back to it, and the result of such a reply is the one that is waited for. -/
structure Conforms (V : Type) (DataMarker : UInt32) : Prop where
  request : ∀ xaddr, ((readDataRequest xaddr DataMarker).drop 10).take 4 = offsetBytes DataMarker
  reply : ∀ p : Package, p.pData.take 4 = offsetBytes DataMarker → p.dataMark = DataMarker
  answer : ∀ (dec : Decoder V) (index : Int) (p : Package) (result : Result V),
    p.pData.take 4 = offsetBytes DataMarker → dlt645ParsePack dec index p = some result →
      bDlt645ReadData p.xAddr DataMarker [result] = some result

theorem readDataRequest_id (xaddr : Dlt645Addr) (DataMarker : UInt32) :
    ((readDataRequest xaddr DataMarker).drop 10).take 4 = bytes32 (DataMarker + 0x33333333) := rfl

theorem dataMark_of_take {p : Package} {m : List UInt8} (hlen : m.length = 4)
    (h : p.pData.take 4 = m) : p.dataMark = word32 m - 0x33333333 := by
  unfold Package.dataMark
  rw [← List.take_append_drop 4 p.pData, h, word32_append (Nat.le_of_eq hlen.symm)]

/-- A posted result is for the address and the identifier of its frame. -/
theorem dlt645ParsePack_result {V : Type} {dec : Decoder V} {index : Int} {p : Package}
    {result : Result V} (h : dlt645ParsePack dec index p = some result) :
    result.addr = p.xAddr ∧ result.op = p.dataMark := by
  unfold dlt645ParsePack at h
  split at h
  · split at h
    · obtain ⟨val, -, rfl⟩ := Option.map_eq_some_iff.mp h
      exact ⟨rfl, rfl⟩
    · exact absurd h (Option.some_ne_none _).symm
  · exact absurd h (Option.some_ne_none _).symm

theorem conforms_iff (V : Type) (DataMarker : UInt32) :
    Conforms V DataMarker ↔ NoCarry DataMarker := by
  constructor
  · intro h
    exact (bytes32_add_iff DataMarker).mp (h.request ⟨0, 0, 0, 0, 0, 0⟩)
  · intro h
    have hreply : ∀ p : Package, p.pData.take 4 = offsetBytes DataMarker →
        p.dataMark = DataMarker := fun p hp => by
      rw [dataMark_of_take rfl hp]
      exact (word32_sub_iff DataMarker).mpr h
    refine ⟨fun xaddr => ?_, hreply, fun dec index p result hp hresult => ?_⟩
    · rw [readDataRequest_id, (bytes32_add_iff DataMarker).mpr h]
    · obtain ⟨haddr, hop⟩ := dlt645ParsePack_result hresult
      unfold bDlt645ReadData
      rw [List.find?_cons_of_pos]
      exact decide_eq_true ⟨haddr, hop.trans (hreply p hp)⟩

/-- The block of the voltages has a byte 0xFF. -/
theorem voltageBlock_not_conforming : ¬ ∀ DataMarker, Conforms Unit DataMarker := by
  intro h
  have hrequest := (h 0x0201FF00).request ⟨0, 0, 0, 0, 0, 0⟩
  revert hrequest
  decide

end K64Gateway.Dlt645
