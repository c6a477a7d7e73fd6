import K64Gateway.Sdccp.Hjt212

/-
  What `HJT212_PutBytes` passes on: the streams in which every package that goes to
  `__HJT212_ParsePack` is one frame of the bytes received last (`hjt212ParsePack_sound`).
-/

namespace K64Gateway.Hjt212

open CString Framing

/-- The stream `x` ends with a frame, and the package has its length and its bytes. -/
def IsFrameAt (x : List UInt8) (p : Package) : Prop :=
  ∃ data : List UInt8, data.length ≤ 9999 ∧ frameOf data <:+ x ∧
    p.btLen = encodeLen data.length ∧ p.pData.take data.length = data

/-- The bytes `h` in front of an end mark pass the test of length and check. -/
def PassesTest (h : List UInt8) : Prop := (package [] h h.length).ok h.length = true

instance (h : List UInt8) : Decidable (PassesTest h) := by
  unfold PassesTest
  infer_instance

/-- `'0'` to `'9'` -/
def IsDigit (c : UInt8) : Prop := 48 ≤ c ∧ c ≤ 57

/-- At each end mark where what was received passes the test, the two bytes of the preamble came
    one after the other and the buffer has not been filled since, or else the buffer starts with
    a preamble all the same; and the length is four digits. -/
def WellFramed (beyond stream : List UInt8) : Prop :=
  ∀ x, x <+: stream → ∀ g t v, Complete (hjt212Format beyond) x g t v →
    PassesTest (held (hjt212Format beyond) v) →
      (if v.length + 2 < hjt212BufSize then t = hjt212Pre
        else hjt212Pre <+: held (hjt212Format beyond) v) ∧
        ∀ c ∈ ((held (hjt212Format beyond) v).drop 2).take 4, IsDigit c

/-! ## The package of what is in the buffer -/

theorem length_frameOf (data : List UInt8) : (frameOf data).length = data.length + 12 := by
  have h2 : hjt212Pre.length = 2 := rfl
  have h2' : hjt212Eom.length = 2 := rfl
  have h4 : (encodeLen data.length).length = 4 := rfl
  unfold frameOf
  simp only [List.length_append, length_usCheck]
  omega

/-- A frame of `n` bytes of data in its parts. -/
theorem split_frame {h : List UInt8} {n : Nat} (hlen : h.length = n + 12) :
    h = h.take 2 ++ (h.drop 2).take 4 ++ (h.drop 6).take n ++ (h.drop (h.length - 6)).take 4 ++
      h.drop (h.length - 2) := by
  have h1 : h.take 2 ++ (h.drop 2).take 4 = h.take 6 := List.take_add.symm
  have h2 : h.take 6 ++ (h.drop 6).take n = h.take (6 + n) := List.take_add.symm
  have h3 : h.take (6 + n) ++ (h.drop (6 + n)).take 4 = h.take (6 + n + 4) := List.take_add.symm
  rw [h1, h2, show h.length - 6 = 6 + n by omega, h3, show h.length - 2 = 6 + n + 4 by omega,
    List.take_append_drop]

/-- A length that fits the position. -/
theorem ulLen_toNat {btLen : List UInt8} {nPos : Nat} (hmin : 12 ≤ nPos) (hlt : nPos < 2 ^ 31)
    (h : ulLen btLen + 12 = UInt32.ofNat nPos) : (ulLen btLen).toNat = nPos - 12 := by
  have hlen := congrArg UInt32.toNat h
  rw [UInt32.toNat_add, UInt32.toNat_ofNat', Nat.mod_eq_of_lt (a := nPos) (by omega),
    show (12 : UInt32).toNat = 12 from rfl] at hlen
  have hu := UInt32.toNat_lt (ulLen btLen)
  omega

/-- The check reads no further than the length says. -/
theorem hjt212GetCrc16_append {l : List UInt8} {count : UInt32} (h : count.toNat ≤ l.length)
    (rest : List UInt8) : hjt212GetCrc16 (l ++ rest) count = hjt212GetCrc16 l count := by
  unfold hjt212GetCrc16
  split
  · rw [List.take_append_of_le_length h]
  · rw [List.take_zero, List.take_zero]

/-- The package is that of the bytes in front of the position. -/
theorem package_append {h : List UInt8} (hmin : 18 ≤ h.length) (beyond rest : List UInt8) :
    package beyond (h ++ rest) h.length =
      { package [] h h.length with pData := h.drop 6 ++ (rest ++ beyond) } := by
  have hdrop : ∀ n ≤ h.length, (h ++ rest).drop n = h.drop n ++ rest := fun n hn =>
    List.drop_append_of_le_length hn
  unfold package
  congr 1
  · exact List.take_append_of_le_length (by omega)
  · rw [hdrop 2 (by omega), List.take_append_of_le_length (by rw [List.length_drop]; omega)]
  · rw [hdrop 6 (by omega), List.append_assoc]
  · rw [hdrop _ (by omega), List.take_append_of_le_length (by rw [List.length_drop]; omega)]
  · rw [hdrop _ (by omega), List.take_append_of_le_length (by rw [List.length_drop]; omega)]

/-- Whether the package passes the test is up to the bytes in front of the position. -/
theorem ok_package {h : List UInt8} (hmin : 18 ≤ h.length) (hlt : h.length < hjt212BufSize)
    (beyond rest : List UInt8) :
    (package beyond (h ++ rest) h.length).ok h.length = true ↔ PassesTest h := by
  unfold hjt212BufSize at hlt
  rw [package_append hmin]
  unfold PassesTest Package.ok
  rw [Bool.and_eq_true, Bool.and_eq_true, decide_eq_true_eq, decide_eq_true_eq, decide_eq_true_eq]
  refine and_congr_right fun hlen => ?_
  have hn := ulLen_toNat (by omega) (by omega) hlen
  have hcount : (ulLen (package [] h h.length).btLen).toNat ≤ (h.drop 6).length := by
    rw [hn, List.length_drop]
    omega
  have hpData : (package [] h h.length).pData = h.drop 6 ++ [] := rfl
  dsimp only
  rw [hpData, hjt212GetCrc16_append hcount, hjt212GetCrc16_append hcount]

/-- Four digits are the decimal representation of their length. -/
theorem eq_encodeLen {btLen : List UInt8} (hlen : btLen.length = 4)
    (h : ∀ c ∈ btLen, IsDigit c) : btLen = encodeLen (ulLen btLen).toNat := by
  obtain ⟨a, b, c, d, rfl⟩ : ∃ a b c d, btLen = [a, b, c, d] := by
    match btLen, hlen with
    | [a, b, c, d], _ => exact ⟨a, b, c, d, rfl⟩
  have hval : ∀ e ∈ [a, b, c, d], ∃ n < 10, e = UInt8.ofNat (48 + n) ∧
      e.toUInt32 - 48 = UInt32.ofNat n := by
    intro e he
    obtain ⟨hle, hge⟩ := h e he
    rw [UInt8.le_iff_toNat_le] at hle hge
    have hle' : 48 ≤ e.toNat := hle
    have hge' : e.toNat ≤ 57 := hge
    have hdigit : ∀ n < 10, (UInt8.ofNat (48 + n)).toUInt32 - 48 = UInt32.ofNat n := by decide
    have heq : e = UInt8.ofNat (48 + (e.toNat - 48)) := by
      rw [Nat.add_sub_cancel' hle', UInt8.ofNat_toNat]
    refine ⟨e.toNat - 48, by omega, heq, ?_⟩
    conv_lhs => rw [heq]
    exact hdigit _ (by omega)
  obtain ⟨n3, h3, ha, ha'⟩ := hval a (by simp)
  obtain ⟨n2, h2, hb, hb'⟩ := hval b (by simp)
  obtain ⟨n1, h1, hc, hc'⟩ := hval c (by simp)
  obtain ⟨n0, h0, hd, hd'⟩ := hval d (by simp)
  have hul : (ulLen [a, b, c, d]).toNat = n3 * 1000 + n2 * 100 + n1 * 10 + n0 := by
    show ((a.toUInt32 - 48) * 1000 + (b.toUInt32 - 48) * 100 + (c.toUInt32 - 48) * 10 +
      (d.toUInt32 - 48)).toNat = _
    rw [ha', hb', hc', hd']
    simp only [UInt32.toNat_add, UInt32.toNat_mul, UInt32.toNat_ofNat',
      show (1000 : UInt32).toNat = 1000 from rfl, show (100 : UInt32).toNat = 100 from rfl,
      show (10 : UInt32).toNat = 10 from rfl]
    omega
  rw [hul]
  unfold encodeLen
  rw [show (n3 * 1000 + n2 * 100 + n1 * 10 + n0) / 1000 % 10 = n3 by omega,
    show (n3 * 1000 + n2 * 100 + n1 * 10 + n0) / 100 % 10 = n2 by omega,
    show (n3 * 1000 + n2 * 100 + n1 * 10 + n0) / 10 % 10 = n1 by omega,
    show (n3 * 1000 + n2 * 100 + n1 * 10 + n0) % 10 = n0 by omega, ha, hb, hc, hd]
  rfl

theorem isDigit_of_mem_encodeLen {n : Nat} {c : UInt8} (h : c ∈ encodeLen n) : IsDigit c := by
  have hall : ∀ d ∈ chars ['0', '1', '2', '3', '4', '5', '6', '7', '8', '9'],
      48 ≤ d ∧ d ≤ 57 := by decide +kernel
  exact hall c (mem_encodeLen h)

/-! ## Soundness -/

/-- A good package of `held` bytes that end the stream is one of a frame. -/
theorem isFrameAt_of_passes {x h rest beyond : List UInt8} (hmin : 18 ≤ h.length)
    (hlt : h.length < hjt212BufSize) (hpass : PassesTest h) (hsuf : h <:+ x)
    (hpre : hjt212Pre <+: h) (heom : hjt212Eom <:+ h) (hdigits : ∀ c ∈ (h.drop 2).take 4, IsDigit c) :
    IsFrameAt x (package beyond (h ++ rest) h.length) := by
  unfold hjt212BufSize at hlt
  have hpass' := hpass
  unfold PassesTest Package.ok at hpass'
  rw [Bool.and_eq_true, decide_eq_true_eq, decide_eq_true_eq] at hpass'
  obtain ⟨hlen, hcheck⟩ := hpass'
  have hbtLen : (package [] h h.length).btLen = (h.drop 2).take 4 := rfl
  have hpData : (package [] h h.length).pData = h.drop 6 ++ [] := rfl
  have hbtCheck : (package [] h h.length).btCheck = (h.drop (h.length - 6)).take 4 := rfl
  have hn := ulLen_toNat (by omega) (by omega) hlen
  rw [hbtLen] at hlen hn hcheck
  have hlen4 : ((h.drop 2).take 4).length = 4 := by
    rw [List.length_take, List.length_drop]
    omega
  have hdec := eq_encodeLen hlen4 hdigits
  rw [hn] at hdec
  have hdata : ((h.drop 6).take (h.length - 12)).length = h.length - 12 := by
    rw [List.length_take, List.length_drop]
    omega
  have hul : ulLen ((h.drop 2).take 4) = UInt32.ofNat (h.length - 12) := by
    rw [← hn, UInt32.ofNat_toNat]
  have hcrc : hjt212GetCrc16 (package [] h h.length).pData (ulLen ((h.drop 2).take 4)) =
      hjt212GetCrc16 ((h.drop 6).take (h.length - 12)) (UInt32.ofNat (h.length - 12)) := by
    have hsmall : (UInt32.ofNat (h.length - 12)).toNat = h.length - 12 := by
      rw [← hul, hn]
    rw [hpData, List.append_nil, hul]
    conv_lhs => rw [← List.take_append_drop (h.length - 12) (h.drop 6)]
    exact hjt212GetCrc16_append (by rw [hsmall, hdata]) _
  rw [hcrc, hbtCheck] at hcheck
  have hfront : h.take 2 = hjt212Pre := by
    rw [List.prefix_iff_eq_take] at hpre
    exact hpre.symm
  have hback : h.drop (h.length - 2) = hjt212Eom := by
    rw [List.suffix_iff_eq_drop] at heom
    exact heom.symm
  have hframe : frameOf ((h.drop 6).take (h.length - 12)) = h := by
    have hsplit := split_frame (h := h) (n := h.length - 12) (by omega)
    rw [hfront, hdec, hcheck, hback] at hsplit
    unfold frameOf
    rw [hdata]
    exact hsplit.symm
  refine ⟨(h.drop 6).take (h.length - 12), by rw [hdata]; omega, by rw [hframe]; exact hsuf, ?_, ?_⟩
  · rw [package_append hmin, hdata, ← hdec]
    exact hbtLen
  · rw [package_append hmin, hdata]
    dsimp only
    rw [List.take_append_of_le_length (by rw [List.length_drop]; omega)]

/-- The frame of a package is as long as what was in front of the position. -/
theorem length_of_isFrameAt {h rest beyond : List UInt8} (hmin : 18 ≤ h.length)
    (hlt : h.length < hjt212BufSize) (hpass : PassesTest h) {data : List UInt8}
    (hdata : data.length ≤ 9999)
    (hlen : (package beyond (h ++ rest) h.length).btLen = encodeLen data.length) :
    (frameOf data).length = h.length := by
  unfold hjt212BufSize at hlt
  unfold PassesTest Package.ok at hpass
  rw [Bool.and_eq_true, decide_eq_true_eq] at hpass
  have hn := ulLen_toNat (by omega) (by omega) hpass.1
  rw [package_append hmin] at hlen
  have hbtLen : (package [] h h.length).btLen = encodeLen data.length := hlen
  rw [hbtLen, ulLen_encodeLen hdata, UInt32.toNat_ofNat', Nat.mod_eq_of_lt (by omega)] at hn
  rw [length_frameOf, hn]
  omega

/-- Every package that is passed on is a frame of the bytes received last if and only if the
    stream is well framed. -/
theorem hjt212ParsePack_sound (beyond : List UInt8) (chunks : List (List UInt8)) :
    (hjt212Open beyond).Each chunks IsFrameAt ↔ WellFramed beyond chunks.flatten := by
  rw [Receiver.each_iff]
  have hmem : ∀ (s' : Receiver (hjt212Format beyond)) (h : List UInt8), s'.pos = h.length →
      s'.buf.take s'.pos = h → 18 ≤ h.length →
        (((hjt212Format beyond).frame s'.buf s'.pos).2 =
          if PassesTest h then [package beyond (h ++ s'.buf.drop h.length) h.length] else []) := by
    intro s' h hpos htake hmin
    have hlt := s'.pos_lt
    rw [hpos] at htake hlt
    have hbuf : s'.buf = h ++ s'.buf.drop h.length := by
      conv_lhs => rw [← List.take_append_drop h.length s'.buf, htake]
    show (hjt212Frame beyond s'.buf s'.pos).2 = _
    rw [hpos]
    unfold hjt212Frame
    dsimp only
    rw [← hbuf]
    by_cases hpass : PassesTest h
    · rw [if_pos hpass, if_pos]
      rw [hbuf]
      exact (ok_package hmin hlt beyond _).mpr hpass
    · rw [if_neg hpass, if_neg]
      rw [hbuf]
      exact fun hok => hpass ((ok_package hmin hlt beyond _).mp hok)
  constructor
  · intro hsound x hx g t v hcomplete hpass
    have hv : v <:+ x := by
      rw [hcomplete.cut, ← List.append_assoc]
      exact List.suffix_append _ _
    rcases List.eq_nil_or_concat x with rfl | ⟨x', b, rfl⟩
    · exact absurd (List.suffix_nil.mp hv) hcomplete.last.ne_nil
    · rw [List.concat_eq_append] at *
      obtain ⟨s', hpos, htake, hmin, hout⟩ := hcomplete.out (s := hjt212Open beyond) rfl rfl
      have hlt := s'.pos_lt
      rw [hpos] at hmin hlt
      rw [hmem s' _ hpos htake hmin, if_pos hpass] at hout
      have hsound' := hsound x' b hx
      rw [hout] at hsound'
      obtain ⟨data, hdata, hsuf, hlen, -⟩ := hsound' _ (List.mem_singleton_self _)
      have hlength := length_of_isFrameAt hmin hlt hpass hdata hlen
      rw [package_append hmin] at hlen
      have hdigits : ((held (hjt212Format beyond) v).drop 2).take 4 = encodeLen data.length := hlen
      refine ⟨?_, fun c hc => isDigit_of_mem_encodeLen (hdigits ▸ hc)⟩
      obtain ⟨rest, hrest⟩ : ∃ rest, frameOf data = hjt212Pre ++ rest := by
        refine ⟨encodeLen data.length ++ (data ++ (usCheck (hjt212GetCrc16 data
          (UInt32.ofNat data.length)) ++ hjt212Eom)), ?_⟩
        unfold frameOf
        simp only [List.append_assoc]
      have hprev : (hjt212Pre ++ v).length = v.length + 2 := by
        rw [List.length_append, Nat.add_comm]
        rfl
      split
      · next hfits =>
        have hheld : held (hjt212Format beyond) v = hjt212Pre ++ v :=
          held_of_lt (hprev.trans_lt hfits)
        rw [hheld, hrest, List.length_append, List.length_append] at hlength
        -- behind the two bytes of the preamble the frame is what was received
        have hrestv : rest = v := by
          refine suffix_eq (List.IsSuffix.trans ?_ hsuf) hv (by omega)
          rw [hrest]
          exact List.suffix_append _ _
        rw [hrest, hrestv] at hsuf
        exact hcomplete.pre_iff.mp hsuf
      · next hfull =>
        have hheld : held (hjt212Format beyond) v <:+ v :=
          held_suffix (le_of_le_of_eq (Nat.le_of_not_lt hfull) hprev.symm)
        rw [← suffix_eq hsuf (hheld.trans hv) hlength, hrest]
        exact List.prefix_append _ _
  · intro hwell x b hx p hp
    obtain ⟨g, t, v, hcomplete⟩ := exists_complete rfl rfl hp
    obtain ⟨s', hpos, htake, hmin, hout⟩ := hcomplete.out (s := hjt212Open beyond) rfl rfl
    have hlt := s'.pos_lt
    rw [hpos] at hmin hlt
    rw [hout, hmem s' _ hpos htake hmin] at hp
    by_cases hpass : PassesTest (held (hjt212Format beyond) v)
    · rw [if_pos hpass, List.mem_singleton] at hp
      obtain ⟨hfirst, hdigits⟩ := hwell _ hx g t v hcomplete hpass
      have heom : hjt212Eom <:+ held (hjt212Format beyond) v := eom_suffix_held hcomplete.last.1
      have hv : v <:+ x ++ [b] := by
        rw [hcomplete.cut, ← List.append_assoc]
        exact List.suffix_append _ _
      have hprev : (hjt212Pre ++ v).length = v.length + 2 := by
        rw [List.length_append, Nat.add_comm]
        rfl
      rw [hp]
      split at hfirst
      · next hfits =>
        have hheld : held (hjt212Format beyond) v = hjt212Pre ++ v :=
          held_of_lt (hprev.trans_lt hfits)
        refine isFrameAt_of_passes hmin hlt hpass ?_ ?_ heom hdigits
        · rw [hheld]
          exact hcomplete.pre_iff.mpr hfirst
        · rw [hheld]
          exact List.prefix_append _ _
      · next hfull =>
        have hheld : held (hjt212Format beyond) v <:+ v :=
          held_suffix (le_of_le_of_eq (Nat.le_of_not_lt hfull) hprev.symm)
        exact isFrameAt_of_passes hmin hlt hpass (hheld.trans hv) hfirst heom hdigits
    · rw [if_neg hpass] at hp
      exact absurd hp List.not_mem_nil

/-- A frame of `Hjt212Encode`, with a byte between the two of the preamble. -/
def brokenPre : List UInt8 := [35, 65] ++ (hjt212Encode dataResponse).drop 1

set_option maxRecDepth 8000 in
/-- The package of the broken frame is passed on, although the stream has no preamble. -/
theorem brokenPre_passed : ¬ (hjt212Open []).Each [brokenPre] IsFrameAt := by
  intro h
  rw [Receiver.each_iff] at h
  have hout : (((hjt212Open []).putBytes (brokenPre.take 26)).1.putByte 10).2.map Package.btLen =
      [encodeLen 14] := rfl
  obtain ⟨p, hp, hlen⟩ : ∃ p ∈ (((hjt212Open []).putBytes (brokenPre.take 26)).1.putByte 10).2,
      p.btLen = encodeLen 14 := by
    refine List.mem_map.mp ?_
    rw [hout]
    exact List.mem_singleton_self _
  obtain ⟨data, hdata, hsuf, hbtLen, -⟩ := h (brokenPre.take 26) 10 ⟨[], rfl⟩ p hp
  have hn : data.length = 14 := by
    rw [hlen] at hbtLen
    have hul : (ulLen (encodeLen 14)).toNat = (ulLen (encodeLen data.length)).toNat := by
      rw [hbtLen]
    rw [ulLen_encodeLen (by omega), ulLen_encodeLen hdata, UInt32.toNat_ofNat',
      UInt32.toNat_ofNat', Nat.mod_eq_of_lt (by omega), Nat.mod_eq_of_lt (by omega)] at hul
    exact hul.symm
  have hpre : (frameOf data).take 2 = hjt212Pre := rfl
  rw [List.suffix_iff_eq_drop, length_frameOf, hn] at hsuf
  rw [hsuf] at hpre
  exact absurd hpre (by decide)

end K64Gateway.Hjt212
