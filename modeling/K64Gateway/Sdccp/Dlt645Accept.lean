import K64Gateway.Lib.Reading
import K64Gateway.Sdccp.Dlt645

/-
  `Dlt645_PutBytes` and `Dlt645_ParsePack` with the bytes that they read. The block lies in a
  memory that goes on before and behind it.

  The header, the check and the end mark are looked for by the length of the block; the length
  field of the frame is compared with nothing. Proved: exactly for which blocks a call is right,
  that is, it takes the block exactly if it is a frame behind bytes other than the start byte, and
  reads nothing else (`acceptsFrames_iff`).
-/

namespace K64Gateway.Dlt645

open LittleEndian Reading
open VarManage (Dlt645Addr)

/-! ## Reading a block -/

/-- The address of `pBytes`; the bytes in front of the block have addresses, too. -/
abbrev blockAt : Nat := 2

/-- The bytes from the address `p` on. -/
def bytesAt (mem : Nat → UInt8) (p n : Nat) : List UInt8 := (List.range' p n).map mem

/-- The bytes that a call is given. -/
def block (mem : Nat → UInt8) (usBytesLen : UInt16) : List UInt8 :=
  bytesAt mem blockAt usBytesLen.toNat

/-- `S_DLT645_Package_t`, with `pData` as a pointer. -/
structure PackageAt where
  xAddr : Dlt645Addr
  xCon : UInt8
  btLen : UInt8
  pData : Nat

/-- `for(i = 0 ; i < usBytesLen; i++) { if(pBytes[i] == DLT645_PRE) break; }` -/
def findPre (pBytes : Nat) : Nat → Reading UInt8 Nat
  | 0 => pure 0
  | n + 1 => do
      let b ← cell pBytes
      if b = dlt645Pre then pure 0
      else do
        let i ← findPre (pBytes + 1) n
        pure (i + 1)

/-- `memcpy(&pack,pBytes, 10); pack.pData = &pBytes[10];` -/
def packageAt (pBytes : Nat) : Reading UInt8 PackageAt := do
  let pack ← cells pBytes 10
  pure
    { xAddr := ⟨pack.getD 1 0, pack.getD 2 0, pack.getD 3 0, pack.getD 4 0, pack.getD 5 0,
        pack.getD 6 0⟩
      xCon := pack.getD 8 0
      btLen := pack.getD 9 0
      pData := pBytes + 10 }

/-- `Dlt645_PutBytes` behind the loop; `usBytesLen` may be 0. -/
def checkBlock (pBytes usBytesLen : Nat) : Reading UInt8 (Option PackageAt) := do
  let pre ← cell pBytes
  if pre ≠ dlt645Pre then pure none
  else do
    let mid ← cell (pBytes + 7)
    if mid ≠ dlt645Pre then pure none
    else do
      let eom ← cell (pBytes + usBytesLen - 1)
      if eom ≠ dlt645Eom then pure none
      else do
        let sum ← cells pBytes (usBytesLen - 2)
        let check ← cell (pBytes + usBytesLen - 2)
        if checkSum sum ≠ check then pure none
        else do
          let pack ← packageAt pBytes
          pure (some pack)

/-- `Dlt645_PutBytes`: the package with which it calls `Dlt645_ParsePack`. -/
def putBytes (usBytesLen : UInt16) : Reading UInt8 (Option PackageAt) := do
  let i ← findPre blockAt usBytesLen.toNat
  checkBlock (blockAt + i) (usBytesLen.toNat - i)

section Parse

variable {V : Type} (dec : Decoder V)

/-- `vPraseData`: it reads its data only where it has a number for the identifier. -/
def vPraseDataAt (pData len : Nat) (mark : UInt32) : Reading UInt8 (Option V) :=
  if len = 0 then pure none
  else if mark ≤ 0x00440000 then
    if len = 4 then do
      let data ← cells pData len
      pure (vPraseData dec data mark)
    else pure none
  else if 0x02010100 ≤ mark ∧ mark ≤ 0x0201FF00 then
    if len = 2 then do
      let data ← cells pData len
      pure (vPraseData dec data mark)
    else pure none
  else if 0x02020100 ≤ mark ∧ mark ≤ 0x0202FF00 then
    if len = 3 then do
      let data ← cells pData len
      pure (vPraseData dec data mark)
    else pure none
  else if 0x02030000 ≤ mark ∧ mark ≤ 0x0205FF00 then
    if len = 3 then do
      let data ← cells pData len
      pure (vPraseData dec data mark)
    else pure none
  else if 0x02060000 ≤ mark ∧ mark ≤ 0x0206FF00 then
    if len = 2 then do
      let data ← cells pData len
      pure (vPraseData dec data mark)
    else pure none
  else if 0x02070100 ≤ mark ∧ mark ≤ 0x02070400 then
    if len = 2 then do
      let data ← cells pData len
      pure (vPraseData dec data mark)
    else pure none
  else pure none

/-- `if(pPack->btLen == len) memcpy(.., pPack->pData, len);` -/
def copyData (p : PackageAt) (len : UInt8) : Reading UInt8 (Option (Result V)) :=
  if p.btLen = len then do
    let _ ← cells p.pData len.toNat
    pure none
  else pure none

/-- `Dlt645_ParsePack`, with the result that it posts. -/
def parsePackAt (index : Int) (p : PackageAt) : Reading UInt8 (Option (Result V)) :=
  if conDir p.xCon ≠ 1 ∨ conAck p.xCon ≠ 0 then copyData p 1
  else if conCode p.xCon = 0x13 then copyData p 6
  else if conCode p.xCon = 0x17 then copyData p 1
  else if conCode p.xCon = 0x11 then
    if 4 ≤ p.btLen then do
      let mark ← cells p.pData 4
      let val ← vPraseDataAt dec (p.pData + 4) (p.btLen.toNat - 4) (word32 mark - 0x33333333)
      pure (val.map fun val =>
        { index := index, addr := p.xAddr, op := word32 mark - 0x33333333, val := val })
    else pure none
  else pure none

end Parse

/-! ## What a call should do -/

/-- Bytes other than the start byte, and then one frame. -/
def IsFrame (block : List UInt8) : Prop :=
  ∃ front xAddr xCon pData, dlt645Pre ∉ front ∧ pData.length ≤ 255 ∧
    block = front ++ vCreatePaket xAddr xCon pData

/-- A call hands a package on exactly for a frame, and does not read outside the block;
    `Dlt645_ParsePack` reads only the data of its package. -/
structure AcceptsFrames {V : Type} (dec : Decoder V) (index : Int) (mem : Nat → UInt8)
    (usBytesLen : UInt16) : Prop where
  called : ((putBytes usBytesLen).val mem).isSome ↔ IsFrame (block mem usBytesLen)
  inside : Within blockAt (blockAt + usBytesLen.toNat) mem (putBytes usBytesLen)
  data : ∀ p, (putBytes usBytesLen).val mem = some p →
    Within p.pData (p.pData + p.btLen.toNat) mem (parsePackAt dec index p)

/-- From its start byte on the block has the marks and the check of a frame. -/
def Marked (rest : List UInt8) : Prop :=
  rest.getD 7 0 = dlt645Pre ∧ rest.getD (rest.length - 1) 0 = dlt645Eom ∧
    checkSum (rest.take (rest.length - 2)) = rest.getD (rest.length - 2) 0

/-- Seven bytes at least follow the first start byte, and where they have the marks and the check
    of a frame, its length field is right. -/
def Measured (block : List UInt8) : Prop :=
  let rest := block.dropWhile (· ≠ dlt645Pre)
  8 ≤ rest.length ∧ (Marked rest → (rest.getD 9 0).toNat + 12 = rest.length)

/-! ## The scan -/

theorem length_bytesAt (mem : Nat → UInt8) (p n : Nat) : (bytesAt mem p n).length = n := by
  rw [bytesAt, List.length_map, List.length_range']

theorem bytesAt_succ (mem : Nat → UInt8) (p n : Nat) :
    bytesAt mem p (n + 1) = mem p :: bytesAt mem (p + 1) n := by
  rw [bytesAt, List.range'_succ, List.map_cons]
  rfl

theorem val_cells_bytesAt (mem : Nat → UInt8) (p n : Nat) :
    (cells p n).val mem = bytesAt mem p n := rfl

theorem take_bytesAt (mem : Nat → UInt8) (p : Nat) {k n : Nat} (h : k ≤ n) :
    (bytesAt mem p n).take k = bytesAt mem p k := by
  unfold bytesAt
  rw [← List.map_take, List.take_range'_of_length_ge h]

theorem drop_bytesAt (mem : Nat → UInt8) (p k n : Nat) :
    (bytesAt mem p n).drop k = bytesAt mem (p + k) (n - k) := by
  unfold bytesAt
  rw [← List.map_drop, List.drop_range', Nat.mul_one]

theorem getD_bytesAt (mem : Nat → UInt8) (p : Nat) {k n : Nat} (h : k < n) :
    (bytesAt mem p n).getD k 0 = mem (p + k) := by
  rw [List.getD_eq_getElem?_getD, bytesAt, List.getElem?_map, List.getElem?_range' h, Nat.one_mul]
  rfl

/-- The scan stops at the first start byte. -/
theorem val_findPre (mem : Nat → UInt8) (p n : Nat) :
    (findPre p n).val mem ≤ n ∧
      (bytesAt mem p n).dropWhile (· ≠ dlt645Pre) =
        bytesAt mem (p + (findPre p n).val mem) (n - (findPre p n).val mem) ∧
      ((findPre p n).val mem < n → mem (p + (findPre p n).val mem) = dlt645Pre) := by
  induction n generalizing p with
  | zero => exact ⟨Nat.le_refl 0, rfl, fun h => absurd h (Nat.lt_irrefl 0)⟩
  | succ n ih =>
    unfold findPre
    rw [val_bind, val_cell, val_ite, bytesAt_succ]
    split
    · next hp =>
      refine ⟨Nat.zero_le _, ?_, fun _ => hp⟩
      rw [List.dropWhile_cons_of_neg (by simp [hp]), val_pure, Nat.sub_zero, bytesAt_succ]
      rfl
    · next hp =>
      obtain ⟨hle, hdrop, hpre⟩ := ih (p + 1)
      have hadd : p + ((findPre (p + 1) n).val mem + 1) = p + 1 + (findPre (p + 1) n).val mem := by
        omega
      rw [List.dropWhile_cons_of_pos (by simp [hp]), val_bind, val_pure, hdrop,
        Nat.add_sub_add_right, hadd]
      exact ⟨Nat.succ_le_succ hle, rfl, fun hlt => hpre (by omega)⟩

theorem within_findPre {lo hi : Nat} (mem : Nat → UInt8) {p n : Nat} (hlo : lo ≤ p)
    (hhi : p + n ≤ hi) : Within lo hi mem (findPre p n) := by
  induction n generalizing p with
  | zero => exact within_pure _
  | succ n ih =>
    unfold findPre
    rw [within_bind, within_cell, within_ite]
    refine ⟨⟨hlo, by omega⟩, fun _ => within_pure _, fun _ => ?_⟩
    rw [within_bind]
    exact ⟨ih (by omega) (by omega), within_pure _⟩

/-! ## The marks -/

/-- The package that is cut at the address `p`. -/
def packageOf (mem : Nat → UInt8) (p : Nat) : PackageAt where
  xAddr := ⟨mem (p + 1), mem (p + 2), mem (p + 3), mem (p + 4), mem (p + 5), mem (p + 6)⟩
  xCon := mem (p + 8)
  btLen := mem (p + 9)
  pData := p + 10

theorem val_packageAt (mem : Nat → UInt8) (p : Nat) :
    (packageAt p).val mem = packageOf mem p := rfl

/-- A block of eight bytes or more is taken exactly if it has the marks of a frame. -/
theorem val_checkBlock (mem : Nat → UInt8) {p n : Nat} (hn : 8 ≤ n) (hpre : mem p = dlt645Pre) :
    (Marked (bytesAt mem p n) → (checkBlock p n).val mem = some (packageOf mem p)) ∧
      (¬ Marked (bytesAt mem p n) → (checkBlock p n).val mem = none) := by
  have h7 := getD_bytesAt mem p (k := 7) (n := n) (by omega)
  have he := getD_bytesAt mem p (k := n - 1) (n := n) (by omega)
  have hc := getD_bytesAt mem p (k := n - 2) (n := n) (by omega)
  have hs := take_bytesAt mem p (k := n - 2) (n := n) (by omega)
  have hadd1 : p + n - 1 = p + (n - 1) := by omega
  have hadd2 : p + n - 2 = p + (n - 2) := by omega
  unfold Marked checkBlock
  rw [length_bytesAt, h7, he, hc, hs, hadd1, hadd2]
  rw [val_bind, val_cell, hpre, if_neg (by simp), val_bind, val_cell]
  by_cases h1 : mem (p + 7) = dlt645Pre
  · rw [if_neg (by simp [h1]), val_bind, val_cell]
    by_cases h2 : mem (p + (n - 1)) = dlt645Eom
    · rw [if_neg (by simp [h2]), val_bind, val_cells_bytesAt, val_bind, val_cell]
      by_cases h3 : checkSum (bytesAt mem p (n - 2)) = mem (p + (n - 2))
      · rw [if_neg (by simp [h3]), val_bind, val_packageAt]
        simp [h1, h2, h3]
      · rw [if_pos (by simp [h3])]
        simp [h3]
    · rw [if_pos (by simp [h2])]
      simp [h2]
  · rw [if_pos (by simp [h1])]
    simp [h1]

/-- Only a frame of ten bytes at least is copied from the block. -/
theorem within_checkBlock (mem : Nat → UInt8) {lo p n : Nat} (hlo : lo ≤ p) (hn : 8 ≤ n)
    (hpre : mem p = dlt645Pre) :
    Within lo (p + n) mem (checkBlock p n) ↔ (Marked (bytesAt mem p n) → 10 ≤ n) := by
  have h7 := getD_bytesAt mem p (k := 7) (n := n) (by omega)
  have he := getD_bytesAt mem p (k := n - 1) (n := n) (by omega)
  have hc := getD_bytesAt mem p (k := n - 2) (n := n) (by omega)
  have hs := take_bytesAt mem p (k := n - 2) (n := n) (by omega)
  have hadd1 : p + n - 1 = p + (n - 1) := by omega
  have hadd2 : p + n - 2 = p + (n - 2) := by omega
  unfold Marked checkBlock
  rw [length_bytesAt, h7, he, hc, hs, hadd1, hadd2]
  rw [within_bind, within_cell, val_cell, hpre, if_neg (by simp), within_bind, within_cell,
    val_cell]
  by_cases h1 : mem (p + 7) = dlt645Pre
  · rw [if_neg (by simp [h1]), within_bind, within_cell, val_cell]
    by_cases h2 : mem (p + (n - 1)) = dlt645Eom
    · rw [if_neg (by simp [h2]), within_bind, within_cells, val_cells_bytesAt, within_bind,
        within_cell, val_cell]
      by_cases h3 : checkSum (bytesAt mem p (n - 2)) = mem (p + (n - 2))
      · rw [if_neg (by simp [h3]), within_bind, packageAt, within_bind, within_cells]
        simp only [h1, h2, h3, within_pure, and_true, true_implies]
        omega
      · rw [if_pos (by simp [h3])]
        simp only [h3, within_pure, and_true, and_false, false_implies, iff_true]
        omega
    · rw [if_pos (by simp [h2])]
      simp only [h2, within_pure, and_true, and_false, false_and, false_implies, iff_true]
      omega
  · rw [if_pos (by simp [h1])]
    simp only [h1, within_pure, and_true, false_and, false_implies, iff_true]
    omega

/-- A call that reads only its block has eight bytes from the start byte on. -/
theorem eight_le_of_within (mem : Nat → UInt8) {lo p n : Nat}
    (hpre : 0 < n → mem p = dlt645Pre) (h : Within lo (p + n) mem (checkBlock p n)) : 8 ≤ n := by
  unfold checkBlock at h
  rw [within_bind, within_cell] at h
  have hmem := hpre (by omega)
  rw [val_cell, if_neg (by simp [hmem]), within_bind, within_cell] at h
  omega

/-! ## Frames -/

theorem length_frameHead (xAddr : Dlt645Addr) (xCon : UInt8) (pData : List UInt8) :
    (frameHead xAddr xCon pData).length = pData.length + 10 := by
  unfold frameHead
  simp only [List.length_append]
  have haddr : (addrBytes xAddr).length = 6 := rfl
  have h3 : [dlt645Pre, xCon, UInt8.ofNat pData.length].length = 3 := rfl
  have h1 : [dlt645Pre].length = 1 := rfl
  omega

theorem length_vCreatePaket (xAddr : Dlt645Addr) (xCon : UInt8) (pData : List UInt8) :
    (vCreatePaket xAddr xCon pData).length = pData.length + 12 := by
  unfold vCreatePaket
  rw [List.length_append, length_frameHead]
  rfl

/-- The check and the end mark are the last two bytes. -/
theorem marked_append (head : List UInt8) (c e : UInt8) : Marked (head ++ [c, e]) ↔
    (head ++ [c, e]).getD 7 0 = dlt645Pre ∧ e = dlt645Eom ∧ checkSum head = c := by
  have hlen : (head ++ [c, e]).length = head.length + 2 := List.length_append
  have hget : ∀ k, (head ++ [c, e]).getD (head.length + k) 0 = [c, e].getD k 0 := by
    intro k
    rw [List.getD_eq_getElem?_getD, List.getElem?_append_right (Nat.le_add_right _ _),
      Nat.add_sub_cancel_left, List.getD_eq_getElem?_getD]
  have he : (head ++ [c, e]).getD (head.length + 2 - 1) 0 = e := hget 1
  have hc : (head ++ [c, e]).getD (head.length + 2 - 2) 0 = c := hget 0
  unfold Marked
  rw [hlen, he, hc, Nat.add_sub_cancel, List.take_left]

theorem marked_vCreatePaket (xAddr : Dlt645Addr) (xCon : UInt8) (pData : List UInt8) :
    Marked (vCreatePaket xAddr xCon pData) :=
  (marked_append _ _ _).mpr ⟨rfl, rfl, rfl⟩

theorem exists_last_two {l : List UInt8} (h : 2 ≤ l.length) : ∃ d c e, l = d ++ [c, e] := by
  rcases List.eq_nil_or_concat l with rfl | ⟨l', e, rfl⟩
  · simp at h
  · rcases List.eq_nil_or_concat l' with rfl | ⟨d, c, rfl⟩
    · simp at h
    · exact ⟨d, c, e, by simp⟩

/-- The marks and a length field that is right make a frame. -/
theorem exists_vCreatePaket {rest : List UInt8} (hpre : rest.getD 0 0 = dlt645Pre)
    (hmarked : Marked rest) (hlen : (rest.getD 9 0).toNat + 12 = rest.length) :
    ∃ xAddr xCon pData, pData.length ≤ 255 ∧ rest = vCreatePaket xAddr xCon pData := by
  obtain ⟨b0, b1, b2, b3, b4, b5, b6, b7, b8, b9, tail, rfl⟩ : ∃ b0 b1 b2 b3 b4 b5 b6 b7 b8 b9 tail,
      rest = b0 :: b1 :: b2 :: b3 :: b4 :: b5 :: b6 :: b7 :: b8 :: b9 :: tail := by
    match rest, hlen with
    | b0 :: b1 :: b2 :: b3 :: b4 :: b5 :: b6 :: b7 :: b8 :: b9 :: tail, _ =>
      exact ⟨b0, b1, b2, b3, b4, b5, b6, b7, b8, b9, tail, rfl⟩
  have hL : b9.toNat + 12 = tail.length + 10 := hlen
  have hb9 := b9.toNat_lt
  obtain ⟨pData, c, e, rfl⟩ := exists_last_two (l := tail) (by omega)
  have hdata : b9.toNat = pData.length := by
    rw [List.length_append] at hL
    have h2 : [c, e].length = 2 := rfl
    omega
  have hrest : b0 :: b1 :: b2 :: b3 :: b4 :: b5 :: b6 :: b7 :: b8 :: b9 :: (pData ++ [c, e]) =
      b0 :: b1 :: b2 :: b3 :: b4 :: b5 :: b6 :: b7 :: b8 :: b9 :: pData ++ [c, e] := rfl
  rw [hrest] at hmarked ⊢
  obtain ⟨h7, he, hc⟩ := (marked_append _ _ _).mp hmarked
  have h0 : b0 = dlt645Pre := hpre
  have h7' : b7 = dlt645Pre := h7
  have h9 : b9 = UInt8.ofNat pData.length := by rw [← hdata, UInt8.ofNat_toNat]
  have hhead : b0 :: b1 :: b2 :: b3 :: b4 :: b5 :: b6 :: b7 :: b8 :: b9 :: pData =
      frameHead ⟨b1, b2, b3, b4, b5, b6⟩ b8 pData := by
    rw [h0, h7', h9]
    rfl
  refine ⟨⟨b1, b2, b3, b4, b5, b6⟩, b8, pData, by omega, ?_⟩
  rw [vCreatePaket, ← hhead, hc, he]

theorem isFrame_iff (block : List UInt8) : IsFrame block ↔
    ∃ xAddr xCon pData, pData.length ≤ 255 ∧
      block.dropWhile (· ≠ dlt645Pre) = vCreatePaket xAddr xCon pData := by
  constructor
  · rintro ⟨front, xAddr, xCon, pData, hfront, hlen, rfl⟩
    refine ⟨xAddr, xCon, pData, hlen, ?_⟩
    rw [List.dropWhile_append_of_pos]
    · rfl
    · intro b hb
      have hne : b ≠ dlt645Pre := fun he => hfront (he ▸ hb)
      simpa using hne
  · rintro ⟨xAddr, xCon, pData, hlen, hrest⟩
    refine ⟨block.takeWhile (· ≠ dlt645Pre), xAddr, xCon, pData, fun hmem => ?_, hlen, ?_⟩
    · have := List.mem_takeWhile_imp hmem
      simp at this
    · rw [← hrest, List.takeWhile_append_dropWhile]

/-! ## The parser -/

section Parse

variable {V : Type} (dec : Decoder V)

theorem within_vPraseDataAt (mem : Nat → UInt8) (pData len : Nat) (mark : UInt32) :
    Within pData (pData + len) mem (vPraseDataAt dec pData len mark) := by
  have hcells : Within pData (pData + len) mem (do
      let data ← cells pData len
      pure (vPraseData dec data mark)) := by
    rw [within_bind, within_cells]
    exact ⟨.inr ⟨Nat.le_refl _, Nat.le_refl _⟩, within_pure _⟩
  unfold vPraseDataAt
  simp only [within_ite, within_pure, hcells, implies_true, and_self]

/-- `Dlt645_ParsePack` stays in the data of its package. -/
theorem within_parsePackAt (index : Int) (mem : Nat → UInt8) (p : PackageAt) :
    Within p.pData (p.pData + p.btLen.toNat) mem (parsePackAt dec index p) := by
  have hcopy : ∀ len, Within p.pData (p.pData + p.btLen.toNat) mem
      (copyData p len : Reading UInt8 (Option (Result V))) := by
    intro len
    unfold copyData
    rw [within_ite, within_bind, within_cells]
    exact ⟨fun h => ⟨.inr ⟨Nat.le_refl _, by rw [h]⟩, within_pure _⟩, fun _ => within_pure _⟩
  unfold parsePackAt
  simp only [within_ite, hcopy, within_pure, implies_true, true_and, and_true]
  intro _ _ _ _ h4
  have h4' : 4 ≤ p.btLen.toNat := h4
  rw [within_bind, within_cells, within_bind]
  refine ⟨.inr ⟨Nat.le_refl _, by omega⟩, ?_, within_pure _⟩
  exact within_mono (within_vPraseDataAt dec mem _ _ _) (by omega) (by omega)

end Parse

/-! ## The calls -/

theorem acceptsFrames_iff {V : Type} (dec : Decoder V) (index : Int) (mem : Nat → UInt8)
    (usBytesLen : UInt16) :
    AcceptsFrames dec index mem usBytesLen ↔ Measured (block mem usBytesLen) := by
  obtain ⟨hle, hrest, hpre⟩ := val_findPre mem blockAt usBytesLen.toNat
  have hval : (putBytes usBytesLen).val mem =
      (checkBlock (blockAt + (findPre blockAt usBytesLen.toNat).val mem)
        (usBytesLen.toNat - (findPre blockAt usBytesLen.toNat).val mem)).val mem := rfl
  have hwithin : Within blockAt (blockAt + usBytesLen.toNat) mem (putBytes usBytesLen) ↔
      Within blockAt (blockAt + usBytesLen.toNat) mem
        (checkBlock (blockAt + (findPre blockAt usBytesLen.toNat).val mem)
          (usBytesLen.toNat - (findPre blockAt usBytesLen.toNat).val mem)) := by
    unfold putBytes
    rw [within_bind]
    exact and_iff_right (within_findPre mem (Nat.le_refl _) (Nat.le_refl _))
  unfold Measured
  have hframe := isFrame_iff (block mem usBytesLen)
  unfold block at hframe ⊢
  rw [hrest] at hframe ⊢
  generalize (findPre blockAt usBytesLen.toNat).val mem = i at *
  have hend : blockAt + usBytesLen.toNat = blockAt + i + (usBytesLen.toNat - i) := by omega
  nth_rewrite 2 [hend] at hwithin
  generalize hn : usBytesLen.toNat - i = n at *
  generalize hp : blockAt + i = p at *
  have hlo : blockAt ≤ p := by omega
  have hpre' : 0 < n → mem p = dlt645Pre := fun h => hpre (by omega)
  dsimp only
  rw [length_bytesAt]
  constructor
  · intro h
    have h8 := eight_le_of_within mem hpre' (hwithin.mp h.inside)
    refine ⟨h8, fun hmarked => ?_⟩
    have hsome := (val_checkBlock mem h8 (hpre' (by omega))).1 hmarked
    have hcalled := h.called
    rw [hval, hsome] at hcalled
    obtain ⟨xAddr, xCon, pData, hlen, hpacket⟩ := hframe.mp (hcalled.mp rfl)
    have h9 : (vCreatePaket xAddr xCon pData).getD 9 0 = UInt8.ofNat pData.length := rfl
    have hn12 := length_vCreatePaket xAddr xCon pData
    rw [← hpacket, length_bytesAt] at hn12
    rw [hpacket, h9, UInt8.toNat_ofNat', Nat.mod_eq_of_lt (by omega), hn12]
  · rintro ⟨h8, hlen⟩
    have hmem := hpre' (by omega)
    obtain ⟨hsome, hnone⟩ := val_checkBlock mem h8 hmem
    refine ⟨?_, hwithin.mpr ((within_checkBlock mem hlo h8 hmem).mpr fun hmarked => ?_), ?_⟩
    · rw [hval]
      by_cases hmarked : Marked (bytesAt mem p n)
      · rw [hsome hmarked]
        refine iff_of_true rfl (hframe.mpr (exists_vCreatePaket ?_ hmarked ?_))
        · rw [getD_bytesAt mem p (by omega)]
          exact hmem
        · rw [length_bytesAt]
          exact hlen hmarked
      · rw [hnone hmarked]
        refine iff_of_false (by simp) fun hf => hmarked ?_
        obtain ⟨xAddr, xCon, pData, -, hpacket⟩ := hframe.mp hf
        rw [hpacket]
        exact marked_vCreatePaket xAddr xCon pData
    · have := hlen hmarked
      omega
    · intro pack _
      exact within_parsePackAt dec index mem pack

/-- The package of a frame is what the frame was made of. -/
theorem putBytes_frame {mem : Nat → UInt8} {usBytesLen : UInt16} {front : List UInt8}
    (hfront : dlt645Pre ∉ front) {xAddr : Dlt645Addr} {xCon : UInt8} {pData : List UInt8}
    (h : block mem usBytesLen = front ++ vCreatePaket xAddr xCon pData) :
    ∃ p, (putBytes usBytesLen).val mem = some p ∧ p.xAddr = xAddr ∧ p.xCon = xCon ∧
      p.btLen = UInt8.ofNat pData.length ∧ bytesAt mem p.pData pData.length = pData := by
  obtain ⟨hle, hrest, hpre⟩ := val_findPre mem blockAt usBytesLen.toNat
  have hval : (putBytes usBytesLen).val mem =
      (checkBlock (blockAt + (findPre blockAt usBytesLen.toNat).val mem)
        (usBytesLen.toNat - (findPre blockAt usBytesLen.toNat).val mem)).val mem := rfl
  rw [← block, h, List.dropWhile_append_of_pos (fun b hb => by
    have hne : b ≠ dlt645Pre := fun he => hfront (he ▸ hb)
    simpa using hne)] at hrest
  have hpacket : vCreatePaket xAddr xCon pData =
      bytesAt mem (blockAt + (findPre blockAt usBytesLen.toNat).val mem)
        (usBytesLen.toNat - (findPre blockAt usBytesLen.toNat).val mem) := hrest
  have hlen := congrArg List.length hpacket
  rw [length_vCreatePaket, length_bytesAt] at hlen
  rw [hval]
  have hmem := hpre (by omega)
  generalize blockAt + (findPre blockAt usBytesLen.toNat).val mem = p at *
  generalize usBytesLen.toNat - (findPre blockAt usBytesLen.toNat).val mem = n at *
  have hget : ∀ k < n, mem (p + k) = (vCreatePaket xAddr xCon pData).getD k 0 := by
    intro k hk
    rw [hpacket, getD_bytesAt mem p hk]
  refine ⟨packageOf mem p, (val_checkBlock mem (by omega) hmem).1 ?_, ?_, ?_, ?_, ?_⟩
  · rw [← hpacket]
    exact marked_vCreatePaket xAddr xCon pData
  · unfold packageOf
    rw [hget 1 (by omega), hget 2 (by omega), hget 3 (by omega), hget 4 (by omega),
      hget 5 (by omega), hget 6 (by omega)]
    rfl
  · exact hget 8 (by omega)
  · exact hget 9 (by omega)
  · have hcut := take_bytesAt mem (p + 10) (k := pData.length) (n := n - 10) (by omega)
    rw [← drop_bytesAt, ← hpacket] at hcut
    show bytesAt mem (p + 10) pData.length = pData
    rw [← hcut]
    have hdrop : (vCreatePaket xAddr xCon pData).drop 10 =
        pData ++ [checkSum (frameHead xAddr xCon pData), dlt645Eom] := rfl
    rw [hdrop, List.take_left]

/-- 68, the address, 68, control, the length 5, the check and 16, without any data. -/
def noData : List UInt8 := [0x68, 1, 2, 3, 4, 5, 6, 0x68, 0x91, 5, 0x7B, 0x16]

/-- A decoder that has no numbers. -/
def noNumbers : Decoder Unit := ⟨fun _ => (), fun _ => (), fun _ _ => ()⟩

/-- The block without data is handed on, with five bytes behind it as its data. -/
theorem noData_accepted : ¬ ∀ (mem : Nat → UInt8) (usBytesLen : UInt16),
    AcceptsFrames noNumbers 0 mem usBytesLen := by
  intro h
  have hcalled := (h (fun i => noData.getD (i - blockAt) 0) 12).called
  have hblock : block (fun i => noData.getD (i - blockAt) 0) 12 = noData := by decide
  rw [hblock] at hcalled
  obtain ⟨xAddr, xCon, pData, -, hpacket⟩ := (isFrame_iff noData).mp (hcalled.mp (by decide))
  have hrest : noData.dropWhile (· ≠ dlt645Pre) = noData := rfl
  rw [hrest] at hpacket
  have hlen := congrArg List.length hpacket
  rw [length_vCreatePaket] at hlen
  have hnil : pData = [] := List.eq_nil_of_length_eq_zero (Nat.add_right_cancel hlen.symm)
  have h9 : (5 : UInt8) = UInt8.ofNat pData.length := congrArg (List.getD · 9 0) hpacket
  rw [hnil] at h9
  exact absurd h9 (by decide)

/-! ## The results -/

section Results

variable {V : Type} (dec : Decoder V) (index : Int)

/-- `Dlt645_PutBytes` with the result that is posted in it. -/
def putBytesResult (usBytesLen : UInt16) : Reading UInt8 (Option (Result V)) := do
  let pack ← putBytes usBytesLen
  match pack with
  | none => pure none
  | some p => parsePackAt dec index p

/-- A memory with the block, and 0 in front of it and behind it. -/
def memOf (bytes : List UInt8) (i : Nat) : UInt8 :=
  if i < blockAt then 0 else bytes.getD (i - blockAt) 0

theorem val_vPraseDataAt (mem : Nat → UInt8) (pData len : Nat) (mark : UInt32) :
    (vPraseDataAt dec pData len mark).val mem = vPraseData dec (bytesAt mem pData len) mark := by
  simp only [vPraseDataAt, val_ite, val_pure, val_bind, val_cells_bytesAt]
  unfold vPraseData
  dsimp only
  rw [length_bytesAt]
  by_cases h0 : len = 0
  · rw [if_pos h0, if_pos h0]
  rw [if_neg h0, if_neg h0]
  -- a mark of each kind asks for the length that both check
  by_cases h1 : mark ≤ 0x00440000
  · simp only [if_pos h1]
    split <;> rfl
  by_cases h2 : 0x02010100 ≤ mark ∧ mark ≤ 0x0201FF00
  · simp only [if_neg h1, if_pos h2]
    split <;> rfl
  by_cases h3 : 0x02020100 ≤ mark ∧ mark ≤ 0x0202FF00
  · simp only [if_neg h1, if_neg h2, if_pos h3]
    split <;> rfl
  by_cases h4 : 0x02030000 ≤ mark ∧ mark ≤ 0x0205FF00
  · simp only [if_neg h1, if_neg h2, if_neg h3, if_pos h4]
    split <;> rfl
  by_cases h5 : 0x02060000 ≤ mark ∧ mark ≤ 0x0206FF00
  · simp only [if_neg h1, if_neg h2, if_neg h3, if_neg h4, if_pos h5]
    split <;> rfl
  by_cases h6 : 0x02070100 ≤ mark ∧ mark ≤ 0x02070400
  · simp only [if_neg h1, if_neg h2, if_neg h3, if_neg h4, if_neg h5, if_pos h6]
    split <;> rfl
  simp only [if_neg h1, if_neg h2, if_neg h3, if_neg h4, if_neg h5, if_neg h6]

theorem val_copyData (mem : Nat → UInt8) (p : PackageAt) (len : UInt8) :
    (copyData p len : Reading UInt8 (Option (Result V))).val mem = none := by
  unfold copyData
  rw [val_ite]
  split
  · rfl
  · rfl

/-- The package of the address `p`, with the memory behind it as its data. -/
theorem val_parsePackAt (mem : Nat → UInt8) (p : PackageAt) (pack : Package)
    (haddr : pack.xAddr = p.xAddr) (hcon : pack.xCon = p.xCon) (hlen : pack.btLen = p.btLen)
    (hdata : ∀ k, pack.pData.getD k 0 = mem (p.pData + k)) :
    (parsePackAt dec index p).val mem = dlt645ParsePack dec index pack := by
  have hmark : pack.dataMark = word32 (bytesAt mem p.pData 4) - 0x33333333 := by
    unfold Package.dataMark word32
    rw [hdata, hdata, hdata, hdata]
    rfl
  have hbytes : pack.data (pack.btLen.toNat - 4) =
      bytesAt mem (p.pData + 4) (p.btLen.toNat - 4) := by
    unfold Package.data bytesAt
    rw [hlen, List.range'_eq_map_range, List.map_map]
    refine List.map_congr_left fun k _ => ?_
    rw [hdata, Function.comp_apply, Nat.add_assoc]
  unfold parsePackAt dlt645ParsePack
  rw [hcon]
  by_cases hok : conDir p.xCon = 1 ∧ conAck p.xCon = 0
  · rw [if_neg (by simp [hok]), if_pos hok]
    by_cases hread : conCode p.xCon = 0x11
    · rw [hread, if_neg (by decide), if_neg (by decide), if_pos rfl, hlen, val_ite]
      by_cases h4 : 4 ≤ p.btLen
      · rw [if_pos h4, if_pos ⟨rfl, h4⟩, ← hlen, val_bind, val_cells_bytesAt, val_bind, val_pure,
          val_vPraseDataAt, ← hmark, hlen, ← hbytes, haddr, hlen]
      · rw [if_neg h4, if_neg (by simp [h4])]
        rfl
    · simp only [val_ite, val_copyData, hread, if_false, val_pure, false_and, ite_self]
  · rw [if_pos (by rw [← not_and_or]; exact hok), if_neg hok, val_copyData]

theorem block_memOf (bytes : List UInt8) (h : bytes.length < 65536) :
    (UInt16.ofNat bytes.length).toNat = bytes.length ∧
      block (memOf bytes) (UInt16.ofNat bytes.length) = bytes := by
  have hlen : (UInt16.ofNat bytes.length).toNat = bytes.length := by
    rw [UInt16.toNat_ofNat']
    exact Nat.mod_eq_of_lt h
  refine ⟨hlen, ?_⟩
  unfold block bytesAt
  rw [hlen]
  apply List.ext_getElem?
  intro k
  rw [List.getElem?_map]
  by_cases hk : k < bytes.length
  · rw [List.getElem?_range' hk, List.getElem?_eq_getElem hk, Nat.one_mul, Option.map_some, memOf,
      if_neg (by omega), Nat.add_sub_cancel_left, List.getD_eq_getElem _ _ hk]
  · rw [List.getElem?_eq_none (by rw [List.length_range']; omega),
      List.getElem?_eq_none (by omega)]
    rfl

/-- On a block with nothing but 0 around it the calls post what `dlt645PutBytes` says. -/
theorem val_putBytesResult (bytes : List UInt8) (h : bytes.length < 65536) :
    (putBytesResult dec index (UInt16.ofNat bytes.length)).val (memOf bytes) =
      dlt645PutBytes dec index bytes := by
  obtain ⟨hlen, hblock⟩ := block_memOf bytes h
  obtain ⟨hle, hrest, hpre⟩ :=
    val_findPre (memOf bytes) blockAt (UInt16.ofNat bytes.length).toNat
  have hval : (putBytes (UInt16.ofNat bytes.length)).val (memOf bytes) =
      (checkBlock (blockAt + (findPre blockAt (UInt16.ofNat bytes.length).toNat).val (memOf bytes))
        ((UInt16.ofNat bytes.length).toNat -
          (findPre blockAt (UInt16.ofNat bytes.length).toNat).val (memOf bytes))).val
          (memOf bytes) := rfl
  rw [← block, hblock] at hrest
  generalize (findPre blockAt (UInt16.ofNat bytes.length).toNat).val (memOf bytes) = i at *
  rw [hlen] at hle hval hpre hrest
  -- the bytes from the start byte on, with 0 behind them
  generalize hr : bytes.dropWhile (· ≠ dlt645Pre) = rest at hrest
  have hn : rest.length = bytes.length - i := by rw [hrest, length_bytesAt]
  have hget : ∀ k, rest.getD k 0 = memOf bytes (blockAt + i + k) := by
    intro k
    rcases Nat.lt_or_ge k (bytes.length - i) with hk | hk
    · rw [hrest, getD_bytesAt _ _ hk]
    · rw [List.getD_eq_default _ _ (by omega), memOf, if_neg (by omega),
        List.getD_eq_default _ _ (by omega)]
  unfold putBytesResult dlt645PutBytes
  rw [val_bind, hval]
  dsimp only
  rw [hr]
  by_cases h8 : 8 ≤ rest.length
  · have hmem : memOf bytes (blockAt + i) = dlt645Pre := hpre (by omega)
    have h0 : rest.getD 0 0 = dlt645Pre := (hget 0).trans hmem
    obtain ⟨hsome, hnone⟩ := val_checkBlock (memOf bytes) (hn ▸ h8) hmem
    rw [← hrest] at hsome hnone
    by_cases hmarked : Marked rest
    · obtain ⟨h7, he, hc⟩ := hmarked
      have hmarks : ¬ (rest.getD 0 0 ≠ dlt645Pre ∨ rest.getD 7 0 ≠ dlt645Pre ∨
          rest.getD (rest.length - 1) 0 ≠ dlt645Eom) := by
        rw [h0, h7, he]
        simp
      rw [hsome ⟨h7, he, hc⟩, if_neg hmarks, if_neg (not_not.mpr hc)]
      refine val_parsePackAt dec index _ _ _ ?_ (hget 8) (hget 9) fun k => ?_
      · rw [hget, hget, hget, hget, hget, hget]
        rfl
      · show (rest.drop 10).getD k 0 = memOf bytes (blockAt + i + 10 + k)
        rw [List.getD_eq_getElem?_getD, List.getElem?_drop, ← List.getD_eq_getElem?_getD, hget]
        congr 1
        omega
    · rw [hnone hmarked]
      have hor : ¬ (rest.getD 0 0 ≠ dlt645Pre ∨ rest.getD 7 0 ≠ dlt645Pre ∨
          rest.getD (rest.length - 1) 0 ≠ dlt645Eom) →
          checkSum (rest.take (rest.length - 2)) ≠ rest.getD (rest.length - 2) 0 := by
        intro hno hc
        rw [not_or, not_or, not_not, not_not, not_not] at hno
        exact hmarked ⟨hno.2.1, hno.2.2, hc⟩
      show (none : Option (Result V)) = _
      split
      · rfl
      · next hno => rw [if_pos (hor hno)]
  · have h7 : rest.getD 7 0 = 0 := List.getD_eq_default _ _ (by omega)
    have hnone : (checkBlock (blockAt + i) (bytes.length - i)).val (memOf bytes) = none := by
      unfold checkBlock
      rw [val_bind, val_cell, val_ite]
      split
      · rfl
      · rw [val_bind, val_cell, ← hget 7, h7, if_pos (by decide)]
        rfl
    rw [hnone, if_pos (by rw [h7]; exact .inr (.inl (by decide)))]
    rfl

end Results

end K64Gateway.Dlt645
