import Mathlib
import K64Gateway.Sdccp.CcBjdc

/-
  What `CC_BJDC_PutBytes` passes on: every package that goes to `__CC_BJDC_ParsePack` is cut from
  the bytes received last, and the indices that are used on the receive buffer lie in it
  (`ccBjdcParsePack_sound`).
-/

namespace K64Gateway.CcBjdc

open CString Framing Aes LittleEndian

/-- A frame without its preamble: length, type and data, check and end mark. -/
def frameTail (body : List UInt8) : List UInt8 :=
  bytes32 (UInt32.ofNat body.length) ++ body ++
    bytes16 (ccGetCrc16 body (UInt32.ofNat body.length)) ++ bytes32 ccBjdcEom

/-- The stream `x` ends with a frame of at least four bytes, but for the preamble. Where the
    preamble was completed without a gap and the buffer not filled since, it stands in front. -/
def IsTailAt (x : List UInt8) (p : Package) : Prop :=
  ∃ body : List UInt8, 4 ≤ body.length ∧ p.ulLen = UInt32.ofNat body.length ∧
    frameTail body <:+ x ∧ ∃ g t v, Complete ccBjdcFormat x g t v ∧
      (t = bytes32 ccBjdcPre → v.length + 4 < ccBjdcBufSize → frameOf body <:+ x)

/-- The indices of `pBuffer` that are used for one byte. -/
def bufferIndices (s : Receiver ccBjdcFormat) (b : UInt8) : List Nat :=
  let s' := s.store b
  let nPos := s'.pos
  let ulLen := word32 (s'.buf.drop 4)
  let usCheck := word16 (s'.buf.drop (nPos - 6))
  s.pos :: match s.state with
  | .head => if nPos = 4 then List.range 4 else []
  | .eom =>
      if 8 ≤ nPos then
        List.range' (nPos - 4) 4 ++
          if word32 (s'.buf.drop (nPos - 4)) = ccBjdcEom ∧ 18 ≤ nPos then
            List.range 12 ++ List.range' (nPos - 6) 6 ++
              if ulLen + 14 = UInt32.ofNat nPos then
                List.range' 8 ulLen.toNat ++
                  if ccGetCrc16 (s'.buf.drop 8) ulLen = usCheck then
                    List.range' 12 (ulLen - 4).toNat ++ [12 + (ulLen - 4).toNat]
                  else []
              else []
          else []
      else []

/-! ## Indices -/

/-- A length that fits the position. -/
theorem ulLen_toNat {ulLen : UInt32} {nPos : Nat} (hmin : 18 ≤ nPos) (hlt : nPos < ccBjdcBufSize)
    (h : ulLen + 14 = UInt32.ofNat nPos) :
    ulLen.toNat = nPos - 14 ∧ (ulLen - 4).toNat = nPos - 18 := by
  unfold ccBjdcBufSize at hlt
  have hlen := congrArg UInt32.toNat h
  rw [UInt32.toNat_add, UInt32.toNat_ofNat', Nat.mod_eq_of_lt (a := nPos) (by omega),
    show (14 : UInt32).toNat = 14 from rfl] at hlen
  have hu := UInt32.toNat_lt ulLen
  have hul : ulLen.toNat = nPos - 14 := by omega
  refine ⟨hul, ?_⟩
  rw [UInt32.toNat_sub_of_le _ _ (by rw [UInt32.le_iff_toNat_le]; show 4 ≤ _; omega), hul]
  show nPos - 14 - 4 = _
  omega

/-- No index leaves the buffer. -/
theorem bufferIndices_lt (s : Receiver ccBjdcFormat) (b : UInt8) :
    ∀ i ∈ bufferIndices s b, i < ccBjdcBufSize := by
  have hpos : s.pos < ccBjdcBufSize := s.pos_lt
  have hpos' : (s.store b).pos < ccBjdcBufSize := (s.store b).pos_lt
  have hsize : ccBjdcBufSize = 2048 := rfl
  intro i hi
  unfold bufferIndices at hi
  dsimp only at hi
  rw [List.mem_cons] at hi
  rcases hi with rfl | hi
  · exact hpos
  · split at hi
    · split at hi
      · have := List.mem_range.mp hi
        omega
      · exact absurd hi List.not_mem_nil
    · split at hi
      · rw [List.mem_append] at hi
        rcases hi with hi | hi
        · have := List.mem_range'_1.mp hi
          omega
        · split at hi
          · next heom =>
            rw [List.mem_append, List.mem_append] at hi
            rcases hi with (hi | hi) | hi
            · have := List.mem_range.mp hi
              omega
            · have := List.mem_range'_1.mp hi
              omega
            · split at hi
              · next hlen =>
                obtain ⟨hul, hn⟩ := ulLen_toNat heom.2 hpos' hlen
                rw [List.mem_append] at hi
                rcases hi with hi | hi
                · have := List.mem_range'_1.mp hi
                  omega
                · split at hi
                  · rw [List.mem_append, List.mem_singleton] at hi
                    rcases hi with hi | hi
                    · have := List.mem_range'_1.mp hi
                      omega
                    · omega
                  · exact absurd hi List.not_mem_nil
              · exact absurd hi List.not_mem_nil
          · exact absurd hi List.not_mem_nil
      · exact absurd hi List.not_mem_nil

/-! ## The frame of a package -/

/-- A package that is passed on is the one of the bytes in front of the position. -/
theorem frameTail_of_mem {h rest : List UInt8} (hmin : 18 ≤ h.length)
    (hlt : h.length < ccBjdcBufSize) (heom : bytes32 ccBjdcEom <:+ h) {p : Package}
    (hp : p ∈ (ccBjdcFrame (h ++ rest) h.length).2) :
    ∃ body : List UInt8, 4 ≤ body.length ∧ p.ulLen = UInt32.ofNat body.length ∧
      frameTail body = h.drop 4 := by
  have hsize : ccBjdcBufSize = 2048 := rfl
  have hdrop : ∀ n ≤ h.length, (h ++ rest).drop n = h.drop n ++ rest := fun n hn =>
    List.drop_append_of_le_length hn
  unfold ccBjdcFrame at hp
  dsimp only at hp
  rw [hdrop 4 (by omega), hdrop 8 (by omega), hdrop (h.length - 6) (by omega),
    word32_append (by rw [List.length_drop]; omega),
    word16_append (by rw [List.length_drop]; omega)] at hp
  split at hp
  · next hok =>
    rw [List.mem_singleton] at hp
    obtain ⟨hul, -⟩ := ulLen_toNat hmin hlt hok.1
    have hbody : ((h.drop 8).take (h.length - 14)).length = h.length - 14 := by
      rw [List.length_take, List.length_drop]
      omega
    have hulLen : word32 (h.drop 4) = UInt32.ofNat (h.length - 14) := by
      rw [← hul, UInt32.ofNat_toNat]
    have hcrc : ccGetCrc16 ((h.drop 8).take (h.length - 14)) (UInt32.ofNat (h.length - 14)) =
        word16 (h.drop (h.length - 6)) := by
      rw [← hok.2, hulLen]
      unfold ccGetCrc16
      rw [← hulLen, hul, List.take_take, Nat.min_self,
        List.take_append_of_le_length (by rw [List.length_drop]; omega)]
    have hback : h.drop (h.length - 4) = bytes32 ccBjdcEom := by
      rw [List.suffix_iff_eq_drop] at heom
      exact heom.symm
    have h16 : (h.drop (h.length - 6)).take 2 ++ h.drop (h.length - 4) = h.drop (h.length - 6) := by
      conv_rhs => rw [← List.take_append_drop 2 (h.drop (h.length - 6)), List.drop_drop]
      rw [show h.length - 6 + 2 = h.length - 4 by omega]
    have h8 : (h.drop 8).take (h.length - 14) ++ h.drop (h.length - 6) = h.drop 8 := by
      conv_rhs => rw [← List.take_append_drop (h.length - 14) (h.drop 8), List.drop_drop]
      rw [show 8 + (h.length - 14) = h.length - 6 by omega]
    have h4 : (h.drop 4).take 4 ++ h.drop 8 = h.drop 4 := by
      conv_rhs => rw [← List.take_append_drop 4 (h.drop 4), List.drop_drop]
    refine ⟨(h.drop 8).take (h.length - 14), by omega, ?_, ?_⟩
    · rw [hp, hbody]
      exact hulLen
    · unfold frameTail
      rw [hbody, hcrc, ← hulLen, bytes32_word32 (by rw [List.length_drop]; omega),
        bytes16_word16 (by rw [List.length_drop]; omega), ← hback, List.append_assoc,
        List.append_assoc, h16, h8, h4]
  · exact absurd hp List.not_mem_nil

/-- Every package that is passed on is cut from the bytes received last, which are a frame but for
    its preamble, and no byte makes the function leave its buffer. -/
theorem ccBjdcParsePack_sound (chunks : List (List UInt8)) :
    ccBjdcOpen.Each chunks IsTailAt ∧
      ∀ cs c b c' cs', chunks = cs ++ (c ++ b :: c') :: cs' →
        ∀ i ∈ bufferIndices ((ccBjdcOpen.putChunks cs).1.putBytes c).1 b, i < ccBjdcBufSize := by
  refine ⟨?_, fun cs c b c' cs' _ => bufferIndices_lt _ b⟩
  rw [Receiver.each_iff]
  intro x b _ p hp
  obtain ⟨g, t, v, hcomplete⟩ := exists_complete rfl rfl hp
  obtain ⟨s', hpos, htake, hmin, hout⟩ := hcomplete.out (s := ccBjdcOpen) rfl rfl
  have hlt := s'.pos_lt
  rw [hpos] at hmin hlt htake
  rw [hout, hpos] at hp
  have hbuf : s'.buf = held ccBjdcFormat v ++ s'.buf.drop (held ccBjdcFormat v).length := by
    conv_lhs => rw [← List.take_append_drop (held ccBjdcFormat v).length s'.buf, htake]
  rw [hbuf] at hp
  have hframe : p ∈ (ccBjdcFrame (held ccBjdcFormat v ++
      s'.buf.drop (held ccBjdcFormat v).length) (held ccBjdcFormat v).length).2 := hp
  have heom : bytes32 ccBjdcEom <:+ held ccBjdcFormat v := eom_suffix_held hcomplete.last.1
  have hmin' : 18 ≤ (held ccBjdcFormat v).length := hmin
  obtain ⟨body, hbody, hulLen, htail⟩ := frameTail_of_mem hmin' hlt heom hframe
  have hv : v <:+ x ++ [b] := by
    rw [hcomplete.cut, ← List.append_assoc]
    exact List.suffix_append _ _
  have hprev : (bytes32 ccBjdcPre ++ v).length = v.length + 4 := by
    rw [List.length_append, Nat.add_comm]
    rfl
  have hfits : v.length + 4 < ccBjdcBufSize → frameTail body = v := by
    intro hlt
    have hheld : held ccBjdcFormat v = bytes32 ccBjdcPre ++ v := held_of_lt (hprev.trans_lt hlt)
    rw [htail, hheld]
    exact List.drop_left' rfl
  refine ⟨body, hbody, hulLen, ?_, g, t, v, hcomplete, fun ht hlt => ?_⟩
  · rcases Nat.lt_or_ge (v.length + 4) ccBjdcBufSize with hlt | hge
    · rw [hfits hlt]
      exact hv
    · have hheld : held ccBjdcFormat v <:+ v := held_suffix (le_of_le_of_eq hge hprev.symm)
      rw [htail]
      exact (List.drop_suffix 4 _).trans (hheld.trans hv)
  · have hframe : frameOf body = bytes32 ccBjdcPre ++ v := by
      rw [← hfits hlt]
      unfold frameOf frameTail
      simp only [List.append_assoc]
    rw [hframe]
    exact hcomplete.pre_iff.mpr ht

/-- The stream `x` ends with a frame whose length comes with its high byte first. -/
def IsBigEndianAt (x : List UInt8) : Prop :=
  ∃ body : List UInt8, bytes32 ccBjdcPre ++ (bytes32 (UInt32.ofNat body.length)).reverse ++ body ++
    bytes16 (ccGetCrc16 body (UInt32.ofNat body.length)) ++ bytes32 ccBjdcEom <:+ x

set_option maxRecDepth 8000 in
/-- The smallest frame is passed on, and the low byte of its length comes first. -/
theorem emptyBody_littleEndian :
    ¬ ccBjdcOpen.Each [frameOf emptyBody] fun x _ => IsBigEndianAt x := by
  intro h
  rw [Receiver.each_iff] at h
  have hout : ((ccBjdcOpen.putBytes ((frameOf emptyBody).take 17)).1.putByte 0x16).2.length = 1 :=
    rfl
  obtain ⟨p, hp⟩ := List.exists_mem_of_length_pos (Nat.lt_of_lt_of_eq Nat.zero_lt_one hout.symm)
  obtain ⟨body, hsuf⟩ := h ((frameOf emptyBody).take 17) 0x16 ⟨[], rfl⟩ p hp
  have hlen : (bytes32 ccBjdcPre ++ (bytes32 (UInt32.ofNat body.length)).reverse ++ body ++
      bytes16 (ccGetCrc16 body (UInt32.ofNat body.length)) ++ bytes32 ccBjdcEom).length =
        body.length + 14 := by
    simp only [List.length_append, List.length_reverse, bytes16, bytes32, List.length_cons,
      List.length_nil]
    omega
  have hle := hsuf.length_le
  rw [hlen] at hle
  rw [List.suffix_iff_eq_drop, hlen] at hsuf
  have hhead := congrArg (List.take 8) hsuf
  have htake : (bytes32 ccBjdcPre ++ (bytes32 (UInt32.ofNat body.length)).reverse ++ body ++
      bytes16 (ccGetCrc16 body (UInt32.ofNat body.length)) ++ bytes32 ccBjdcEom).take 8 =
        bytes32 ccBjdcPre ++ (bytes32 (UInt32.ofNat body.length)).reverse := by
    have h8 : (bytes32 ccBjdcPre ++ (bytes32 (UInt32.ofNat body.length)).reverse).length = 8 := rfl
    rw [List.append_assoc, List.append_assoc, List.take_left' h8]
  rw [htake] at hhead
  have hsmall : body.length ≤ 4 := Nat.le_of_add_le_add_right hle
  generalize body.length = n at hhead hsmall
  interval_cases n
  all_goals exact absurd hhead (by decide)

end K64Gateway.CcBjdc
