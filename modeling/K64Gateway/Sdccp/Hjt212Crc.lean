import Mathlib
import K64Gateway.Lib.Framing
import K64Gateway.Sdccp.Hjt212

/-
  What `hjt212_GetCrc16` reads when `HJT212_PutBytes` has found an end mark: `ulLen` bytes behind
  the length field, whatever the four characters of that field are. The length is compared with
  the position only after the crc.

  Proved: the reads of a run stay in the receive buffer if and only if every complete frame of the
  stream declares at most 2042 bytes (`crcReads_inside_iff`).
-/

namespace K64Gateway.Hjt212

open CString Framing

/-! ## The reads of one call -/

/-- `lintDataLen = count;`, an `int`: from 2^31 on it is negative and the loop does not run. -/
def lintDataLen (count : UInt32) : Nat := if count.toNat < 2 ^ 31 then count.toNat else 0

/-- The indexes of `pBuffer` that `hjt212_GetCrc16((char *)&pBuffer[6], ulLen)` reads. -/
def crcReads (xPack : Package) : List Nat :=
  (List.range (lintDataLen (ulLen xPack.btLen))).map (6 + ·)

/-- The crc is made of the bytes at these indexes. -/
theorem hjt212GetCrc16_reads (mem : List UInt8) (xPack : Package)
    (h : ∀ i ∈ crcReads xPack, i < mem.length) :
    hjt212GetCrc16 (mem.drop 6) (ulLen xPack.btLen) =
      ((crcReads xPack).map fun i => mem.getD i 0).foldl crcByte 0xFFFF := by
  unfold hjt212GetCrc16
  rw [← lintDataLen]
  congr 1
  apply List.ext_getElem?
  intro k
  unfold crcReads at h ⊢
  rw [List.map_map, List.getElem?_map, List.getElem?_take]
  by_cases hk : k < lintDataLen (ulLen xPack.btLen)
  · have hin := h (6 + k) (List.mem_map.mpr ⟨k, List.mem_range.mpr hk, rfl⟩)
    rw [if_pos hk, List.getElem?_drop, List.getElem?_eq_getElem hin, List.getElem?_range hk]
    simp [hin]
  · rw [if_neg hk, List.getElem?_eq_none (by rw [List.length_range]; omega)]
    rfl

/-- The length that the four characters of the length field stand for, each taken as a digit: a
    character below `0` is a negative one. -/
def declaredLen (frame : List UInt8) : Int :=
  (((frame.getD 2 0).toNat : Int) - 48) * 1000 + (((frame.getD 3 0).toNat : Int) - 48) * 100 +
    (((frame.getD 4 0).toNat : Int) - 48) * 10 + (((frame.getD 5 0).toNat : Int) - 48)

/-- `ulLen` is the declared length modulo 2^32. -/
theorem toNat_ulLen (frame : List UInt8) :
    ((ulLen ((frame.drop 2).take 4)).toNat : Int) = declaredLen frame % 4294967296 := by
  have hget : ∀ k < 4, ((frame.drop 2).take 4).getD k 0 = frame.getD (2 + k) 0 := by
    intro k hk
    rw [List.getD_eq_getElem?_getD, List.getElem?_take_of_lt hk, List.getElem?_drop,
      List.getD_eq_getElem?_getD]
  have h48 : (48 : UInt32).toNat = 48 := rfl
  unfold ulLen declaredLen
  rw [hget 0 (by omega), hget 1 (by omega), hget 2 (by omega), hget 3 (by omega)]
  have h0 := UInt8.toNat_lt (frame.getD 2 0)
  have h1 := UInt8.toNat_lt (frame.getD 3 0)
  have h2 := UInt8.toNat_lt (frame.getD 4 0)
  have h3 := UInt8.toNat_lt (frame.getD 5 0)
  simp only [UInt32.toNat_add, UInt32.toNat_mul, UInt32.toNat_sub, UInt8.toNat_toUInt32, h48,
    show (1000 : UInt32).toNat = 1000 from rfl, show (100 : UInt32).toNat = 100 from rfl,
    show (10 : UInt32).toNat = 10 from rfl, Nat.add_zero, Nat.reduceAdd]
  omega

theorem declaredLen_bounds (frame : List UInt8) :
    -53328 ≤ declaredLen frame ∧ declaredLen frame ≤ 229977 := by
  have h0 := UInt8.toNat_lt (frame.getD 2 0)
  have h1 := UInt8.toNat_lt (frame.getD 3 0)
  have h2 := UInt8.toNat_lt (frame.getD 4 0)
  have h3 := UInt8.toNat_lt (frame.getD 5 0)
  unfold declaredLen
  omega

/-- A negative length reads nothing. -/
theorem lintDataLen_ulLen (frame : List UInt8) :
    lintDataLen (ulLen ((frame.drop 2).take 4)) = (declaredLen frame).toNat := by
  have hval := toNat_ulLen frame
  have hb := declaredLen_bounds frame
  unfold lintDataLen
  split <;> omega

/-- The reads of a package stay in the buffer exactly up to a declared length of 2042. -/
theorem crcReads_lt_iff {xPack : Package} {frame : List UInt8}
    (h : xPack.btLen = (frame.drop 2).take 4) :
    (∀ i ∈ crcReads xPack, i < hjt212BufSize) ↔ declaredLen frame ≤ 2042 := by
  unfold crcReads hjt212BufSize
  rw [h, lintDataLen_ulLen]
  simp only [List.mem_map, List.mem_range]
  constructor
  · intro hall
    by_contra hgt
    have := hall (6 + 2042) ⟨2042, by omega, rfl⟩
    omega
  · rintro hle i ⟨k, hk, rfl⟩
    omega

/-! ## The reads of a run -/

/-- The end marks in a stream, each with the package that is cut there. -/
def eomPack (beyond : List UInt8) (m : List UInt8 × Nat) : Package := package beyond m.1 m.2

/-- The packages passed on are those of the end marks that pass their check. -/
theorem hjt212PutBytes_marks (beyond bytes : List UInt8) :
    (hjt212PutBytes (hjt212Open beyond) bytes).2 =
      outOf (hjt212Format beyond) ((hjt212Open beyond).traced.putBytes bytes).2 :=
  ((hjt212Open beyond).traced_putBytes bytes).2.symm

/-- The reads of the crc stay in the receive buffer at every end mark. -/
def CrcReadsInside (beyond : List UInt8) (chunks : List (List UInt8)) : Prop :=
  (hjt212Open beyond).traced.Each chunks fun _ m =>
    ∀ i ∈ crcReads (eomPack beyond m), i < hjt212BufSize

/-- The frames that end in the stream declare a length that fits the buffer behind the head. -/
def DeclaresFit (beyond stream : List UInt8) : Prop :=
  ∀ x g t v, x <+: stream → Complete (hjt212Format beyond) x g t v →
    declaredLen (held (hjt212Format beyond) v) ≤ 2042

/-- The length field of the package is that of the complete frame. -/
theorem eomPack_btLen {beyond buf f : List UInt8} (hbuf : buf.take f.length = f)
    (hmin : 18 ≤ f.length) : (eomPack beyond (buf, f.length)).btLen = (f.drop 2).take 4 := by
  show (buf.drop 2).take 4 = _
  rw [← hbuf, List.drop_take, List.take_take, Nat.min_eq_left (by omega)]

theorem crcReads_inside_iff (beyond : List UInt8) (chunks : List (List UInt8)) :
    CrcReadsInside beyond chunks ↔ DeclaresFit beyond chunks.flatten := by
  unfold CrcReadsInside
  rw [Receiver.each_iff]
  constructor
  · intro h x g t v hx hc
    obtain ⟨v', b, rfl⟩ : ∃ v' b, v = v' ++ [b] :=
      (List.eq_nil_or_concat v).elim (fun hnil => absurd hnil hc.last.ne_nil)
        (fun ⟨v', b, hv⟩ => ⟨v', b, by rw [hv, List.concat_eq_append]⟩)
    have hcut : x = (g ++ (t ++ v')) ++ [b] := by
      rw [hc.cut]
      simp only [List.append_assoc]
    subst hcut
    obtain ⟨buf, hout, hbuf, hmin⟩ := hc.mark (s := hjt212Open beyond) rfl rfl
    refine (crcReads_lt_iff (eomPack_btLen hbuf hmin)).mp (h _ b hx _ ?_)
    rw [hout]
    exact List.mem_singleton_self _
  · intro h x b hx m hm
    obtain ⟨g, t, v, hc⟩ := exists_complete_of_mark (s := hjt212Open beyond) rfl rfl hm
    obtain ⟨buf, hout, hbuf, hmin⟩ := hc.mark (s := hjt212Open beyond) rfl rfl
    rw [hout, List.mem_singleton] at hm
    subst hm
    exact (crcReads_lt_iff (eomPack_btLen hbuf hmin)).mpr (h _ g t v hx hc)

/-- "##9999", ten bytes of data and check, and the end mark. -/
def longLength : List UInt8 :=
  hjt212Pre ++ chars ['9', '9', '9', '9'] ++ List.replicate 10 65 ++ hjt212Eom

theorem complete_longLength :
    Complete (hjt212Format []) longLength [] hjt212Pre (longLength.drop 2) where
  cut := rfl
  frames := .nil
  lock := firstLock_pre (hjt212Format [])
  last := by
    constructor
    · decide
    · decide

/-- The crc of a frame of eighteen bytes is made of 9999. -/
theorem crcReads_longLength :
    ¬ ∀ (beyond : List UInt8) (chunks : List (List UInt8)), CrcReadsInside beyond chunks := by
  intro h
  have hreads := (Receiver.each_iff _ [longLength] _).mp (h [] [longLength])
  have hc := complete_longLength
  obtain ⟨buf, hout, hbuf, hmin⟩ := Complete.mark (s := hjt212Open []) (x := longLength.dropLast)
    (b := 0x0a) rfl rfl hc
  have hinside := hreads _ _ (List.prefix_refl _) _ (hout ▸ List.mem_singleton_self _)
  have hle := (crcReads_lt_iff (eomPack_btLen hbuf hmin)).mp hinside
  exact absurd hle (by decide)

end K64Gateway.Hjt212
