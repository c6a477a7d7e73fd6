import K64Gateway.Sdccp.Hjt212Pack

/-
  The message of an HJ/T 212 frame is not terminated: `strstr` and `sscanf` in
  `__HJT212_ParsePack` read on behind the frame, over what earlier traffic left in the receive
  buffer.

  Proved: exactly which valid frames have the same texts after all traffic
  (`hjt212_nonInterference`).
-/

namespace K64Gateway.Hjt212

open CString Framing TaggedText

/-- A frame that `HJT212_PutBytes` passes on: preamble, end mark at the end only, as far as the
    receiver looks for it, and a good length and check. -/
structure ValidFrame (f : List UInt8) : Prop where
  pre : hjt212Pre <+: f
  eom : hjt212Eom <:+ f
  long : 18 ≤ f.length
  fits : f.length < hjt212BufSize
  once : ∀ j < f.length, 18 ≤ j → ¬ hjt212Eom <:+ f.take j
  ok : (package [] f f.length).ok f.length = true

/-- After `g` the receiver is in its head state at position 0. -/
def AtHead (beyond g : List UInt8) : Prop :=
  (hjt212PutBytes (hjt212Open beyond) g).1.state = .head ∧
    (hjt212PutBytes (hjt212Open beyond) g).1.pos = 0

/-- The texts of the packages that `f` makes after `g`. -/
def textsAfter (beyond cfgPW g f : List UInt8) : List (List (List UInt8)) :=
  (hjt212PutBytes (hjt212PutBytes (hjt212Open beyond) g).1 f).2.map fun p =>
    (parsePack cfgPW p).1.texts

/-- The texts of `f` are the same after any two streams that leave the receiver at the start of
    its head state. -/
def NonInterferent (f : List UInt8) : Prop :=
  ∀ beyond cfgPW g₁ g₂, AtHead beyond g₁ → AtHead beyond g₂ →
    textsAfter beyond cfgPW g₁ f = textsAfter beyond cfgPW g₂ f

/-- The tag stands in the message, with a semicolon or `n` bytes behind it. -/
def ClosedField (tag : List UInt8) (n : Nat) (s : List UInt8) : Prop :=
  ∃ y, behind tag s = some y ∧ (semicolon ∈ y ∨ n ≤ y.length)

/-- Every field is in the message, up to the character or the length where reading it stops.
    For PW the seven bytes of its array are enough if a text is stored at `MN` afterwards; CP
    must be empty if it is read only when the string does not end with the frame. -/
structure SelfContained (s : List UInt8) : Prop where
  QN : ClosedField tagQN 20 s
  CN : ClosedField tagCN 7 s
  ST : ClosedField tagST 5 s
  PW : ClosedField tagPW 10 s ∨ ClosedField tagPW 7 s ∧
    ∃ y, behind tagMN s = some y ∧ y.head? ≠ some semicolon
  MN : ClosedField tagMN 14 s
  Flag : ClosedField tagFlag 3 s
  CP : ∃ y, behind tagCP s = some y ∧ (ampersand ∈ y ∨ 1024 ≤ y.length) ∧
    (8 < y.length ∨ y.head? = some ampersand)

/-! ## A message and what stands behind it -/

theorem readField_closed {tag : List UInt8} {n : Nat} {s : List UInt8} (h : ClosedField tag n s)
    (z : List UInt8) : readField tag n (s ++ z) = readField tag n s := by
  obtain ⟨y, hy, hclosed⟩ := h
  unfold readField
  rw [behind_append_of_some hy, hy]
  exact scanText_closed hclosed z

theorem scanText_head {n : Nat} {stop : UInt8} {y : List UInt8} (h : y.head? = some stop) :
    scanText n stop y = [] := by
  cases y with
  | nil => exact absurd h (by simp)
  | cons a y =>
    obtain rfl := Option.some.inj h
    simp [scanText]

theorem readCP_closed {s y : List UInt8} (hy : behind tagCP s = some y)
    (hclosed : ampersand ∈ y ∨ 1024 ≤ y.length)
    (hlen : 8 < y.length ∨ y.head? = some ampersand) (z : List UInt8) :
    (readCP (s ++ z)).getD [] = scanText 1024 ampersand y := by
  rw [readCP_eq, behind_append_of_some hy]
  dsimp only
  rw [scanText_closed hclosed]
  rcases hlen with h | h
  · rw [if_pos (by rw [List.length_append]; omega), Option.getD_some]
  · rw [scanText_head h]
    split <;> rfl

/-- What stands behind a message with all its fields changes none of them. -/
theorem SelfContained.texts_eq {s : List UInt8} (h : SelfContained s) (z : List UInt8) :
    (parseData (s ++ z)).texts = (parseData s).texts := by
  have hQN := readField_closed h.QN z
  have hCN := readField_closed h.CN z
  have hST := readField_closed h.ST z
  have hMN := readField_closed h.MN z
  have hFlag := readField_closed h.Flag z
  have hCP : (readCP (s ++ z)).getD [] = (readCP s).getD [] := by
    obtain ⟨y, hy, hclosed, hlen⟩ := h.CP
    have hs := readCP_closed hy hclosed hlen []
    rw [List.append_nil] at hs
    rw [readCP_closed hy hclosed hlen z, hs]
  have hPW : (readField tagPW 10 (s ++ z)).take 7 = (readField tagPW 10 s).take 7 ∧
      (readField tagMN 14 s = [] →
        (readField tagPW 10 (s ++ z)).drop 7 = (readField tagPW 10 s).drop 7) := by
    rcases h.PW with hpw | ⟨hpw, y, hy, hhead⟩
    · rw [readField_closed hpw z]
      exact ⟨rfl, fun _ => rfl⟩
    · refine ⟨?_, fun hnil => ?_⟩
      · rw [readField_take (by decide), readField_take (by decide), readField_closed hpw z]
      · -- `MN` has a text
        obtain ⟨y', hy', hclosed⟩ := h.MN
        obtain rfl : y = y' := Option.some.inj (hy.symm.trans hy')
        rw [readField, hy] at hnil
        rcases (scanText_eq_nil_iff (by decide) _ _).mp hnil with rfl | h'
        · rcases hclosed with hm | hm
          · exact absurd hm List.not_mem_nil
          · exact absurd hm (by decide)
        · exact absurd h' hhead
  simp only [Data.texts, parseData, hQN, hCN, hST, hMN, hFlag, hCP, hPW.1]
  split
  · next hnil => rw [hPW.2 hnil]
  · rfl

/-! ## A field that is open -/

/-- The bytes that an open field is continued with: text without a zero and an end mark. -/
def Tail (z : List UInt8) : Prop := (0 : UInt8) ∉ z ∧ (0x0d : UInt8) ∉ z

/-- No text behind the message changes its texts. -/
def Stable (s : List UInt8) : Prop :=
  ∀ z, Tail z → (parseData (s ++ z)).texts = (parseData s).texts

/-- The message of a frame ends with a line feed, so no tag starts in it and ends behind it. -/
theorem behind_append_of_none {tag s z : List UInt8} (hs : s.getLast? = some 0x0a)
    (htag : (0x0a : UInt8) ∉ tag) (h : behind tag s = none) :
    behind tag (s ++ z) = behind tag z := by
  obtain ⟨s, rfl⟩ := List.getLast?_eq_some_iff.mp hs
  rw [List.append_assoc, List.singleton_append, behind_sep htag]
  cases hs' : behind tag s with
  | none => rfl
  | some y =>
    rw [behind_append_of_some hs'] at h
    exact absurd h (by simp)

theorem ne_nil_of_behind {tag s y : List UInt8} (hne : tag ≠ []) (hs : s.getLast? = some 0x0a)
    (htag : (0x0a : UInt8) ∉ tag) (h : behind tag s = some y) : y ≠ [] := by
  rintro rfl
  obtain ⟨u, hu⟩ := behind_suffix h
  rw [List.append_nil] at hu
  rw [← hu, List.getLast?_append_of_ne_nil _ hne] at hs
  exact htag (List.mem_of_getLast? hs)

theorem readField_append_of_none {tag s : List UInt8} {n : Nat} (hn : 0 < n)
    (hs : s.getLast? = some 0x0a) (htag : (0x0a : UInt8) ∉ tag) (h : behind tag s = none) {c : UInt8}
    (hc : c ≠ semicolon) :
    readField tag n (s ++ (tag ++ [c, semicolon])) = [c] := by
  rw [readField, behind_append_of_none hs htag h, behind_self]
  have hmem : semicolon ∉ [c] := by simpa using Ne.symm hc
  exact (scanText_stop hmem []).trans (List.take_of_length_le hn)

theorem readField_of_open {tag s y : List UInt8} {n : Nat} (hy : behind tag s = some y)
    (hopen : semicolon ∉ y ∧ y.length < n) {c : UInt8} (hc : c ≠ semicolon) :
    readField tag n s = y ∧ readField tag n (s ++ [c]) = y ++ [c] := by
  have hmem : semicolon ∉ y ++ [c] := by
    simp [hopen.1, Ne.symm hc]
  unfold readField
  rw [behind_append_of_some hy, hy]
  dsimp only
  rw [scanText_of_not_mem hopen.1, scanText_of_not_mem hmem]
  refine ⟨List.take_of_length_le (by omega), List.take_of_length_le ?_⟩
  rw [List.length_append, List.length_singleton]
  omega

/-- A field that does not change whatever follows is closed. -/
theorem closedField_of_stable {tag s : List UInt8} {n : Nat} (hn : 0 < n)
    (hs : s.getLast? = some 0x0a)
    (htag : (0x0a : UInt8) ∉ tag ∧ (0 : UInt8) ∉ tag ∧ (0x0d : UInt8) ∉ tag)
    (h : ∀ z, Tail z → readField tag n (s ++ z) = readField tag n s) : ClosedField tag n s := by
  cases hy : behind tag s with
  | none =>
    have h0 := h (tag ++ [48, semicolon]) ⟨by simp [htag, semicolon], by simp [htag, semicolon]⟩
    rw [readField_append_of_none hn hs htag.1 hy (by decide), readField, hy] at h0
    exact absurd h0 (by simp)
  | some y =>
    by_contra hopen
    simp only [ClosedField, hy, Option.some.injEq, exists_eq_left', not_or, not_le] at hopen
    obtain ⟨h1, h2⟩ := readField_of_open hy hopen (c := 48) (by decide)
    have h0 := h [48] ⟨by decide, by decide⟩
    rw [h1, h2] at h0
    simp at h0

theorem texts_eq_iff (d d' : Data) : d.texts = d'.texts ↔ d.QN = d'.QN ∧ d.CN = d'.CN ∧
    d.ST = d'.ST ∧ d.PW = d'.PW ∧ d.MN = d'.MN ∧ d.Flag = d'.Flag ∧
      d.cp.getD [] = d'.cp.getD [] := by
  simp [Data.texts]

/-- A device number that does not change is closed: without a text of its own the array holds
    what PW left there, and a text of its own could be either of two. -/
theorem closedMN_of_stable {s : List UInt8} (hs : s.getLast? = some 0x0a)
    (h : ∀ z, Tail z → (parseData (s ++ z)).MN = (parseData s).MN) : ClosedField tagMN 14 s := by
  cases hy : behind tagMN s with
  | none =>
    have hread : ∀ c : UInt8, c ≠ semicolon → Tail [c] → [c] = (parseData s).MN := by
      intro c hc hz
      have hz' : Tail (tagMN ++ [c, semicolon]) := by
        simp only [Tail, List.mem_singleton] at hz
        simp [Tail, hz, tagMN, chars, semicolon]
      rw [← h _ hz']
      unfold parseData
      dsimp only
      rw [readField_append_of_none (by decide) hs (by decide) hy hc, if_neg (by simp)]
    have h0 := hread 48 (by decide) ⟨by decide, by decide⟩
    have h1 := hread 49 (by decide) ⟨by decide, by decide⟩
    exact absurd (h0.trans h1.symm) (by decide)
  | some y =>
    by_contra hopen
    simp only [ClosedField, hy, Option.some.injEq, exists_eq_left', not_or, not_le] at hopen
    have hne := ne_nil_of_behind (by decide) hs (by decide) hy
    obtain ⟨h1, h2⟩ := readField_of_open hy hopen (c := 48) (by decide)
    have h0 := h [48] ⟨by decide, by decide⟩
    unfold parseData at h0
    dsimp only at h0
    rw [h1, h2, if_neg hne, if_neg (by simp)] at h0
    simp at h0

/-- If the password is read only up to its array's end, the device number must cover the rest. -/
theorem closedPW_of_stable {s : List UInt8} (hs : s.getLast? = some 0x0a)
    (hpw : ∀ z, Tail z → (parseData (s ++ z)).PW = (parseData s).PW)
    (hmn : ∀ z, Tail z → (parseData (s ++ z)).MN = (parseData s).MN) :
    ClosedField tagPW 10 s ∨ ClosedField tagPW 7 s ∧
      ∃ y, behind tagMN s = some y ∧ y.head? ≠ some semicolon := by
  have hclosed : ClosedField tagPW 7 s := by
    refine closedField_of_stable (by decide) hs (by decide) fun z hz => ?_
    have h0 := hpw z hz
    unfold parseData at h0
    dsimp only at h0
    rwa [readField_take (by decide), readField_take (by decide)] at h0
  obtain ⟨y, hy, hyc⟩ := hclosed
  by_cases h10 : semicolon ∈ y ∨ 10 ≤ y.length
  · exact Or.inl ⟨y, hy, h10⟩
  · rw [not_or, not_le] at h10
    refine Or.inr ⟨⟨y, hy, hyc⟩, ?_⟩
    have hcMN := closedMN_of_stable hs hmn
    obtain ⟨x, hx, hxc⟩ := hcMN
    refine ⟨x, hx, fun hhead => ?_⟩
    -- without a device number the array holds the rest of the password
    obtain ⟨h1, h2⟩ := readField_of_open hy h10 (c := 48) (by decide)
    have hnil : readField tagMN 14 s = [] := by rw [readField, hx]; exact scanText_head hhead
    have h0 := hmn [48] ⟨by decide, by decide⟩
    unfold parseData at h0
    dsimp only at h0
    rw [readField_closed ⟨x, hx, hxc⟩, hnil, if_pos rfl, if_pos rfl, h1, h2,
      List.drop_append_of_le_length (hyc.resolve_left h10.1)] at h0
    simp at h0

theorem tail_replicate (n : Nat) : Tail (List.replicate n 48) := by
  constructor <;> (rw [List.mem_replicate]; exact fun h => absurd h.2 (by decide))

theorem closedCP_of_stable {s : List UInt8} (hs : s.getLast? = some 0x0a)
    (h : ∀ z, Tail z → (readCP (s ++ z)).getD [] = (readCP s).getD []) :
    ∃ y, behind tagCP s = some y ∧ (ampersand ∈ y ∨ 1024 ≤ y.length) ∧
      (8 < y.length ∨ y.head? = some ampersand) := by
  cases hy : behind tagCP s with
  | none =>
    have h0 := h (tagCP ++ [48, ampersand]) ⟨by decide, by decide⟩
    rw [readCP_eq, readCP_eq, behind_append_of_none hs (by decide) hy, behind_self, hy] at h0
    exact absurd h0 (by decide)
  | some y =>
    have hne := ne_nil_of_behind (by decide) hs (by decide) hy
    have hread : ∀ z, (readCP (s ++ z)).getD [] =
        if y.length + z.length = 8 then [] else scanText 1024 ampersand (y ++ z) := by
      intro z
      rw [readCP_eq, behind_append_of_some hy]
      dsimp only
      rw [List.length_append]
      by_cases h8 : y.length + z.length = 8
      · rw [if_pos h8, if_neg (by omega)]
        rfl
      · rw [if_neg h8, if_pos (by omega)]
        rfl
    have heq : ∀ z, Tail z → ∀ z', Tail z' →
        (if y.length + z.length = 8 then [] else scanText 1024 ampersand (y ++ z)) =
          if y.length + z'.length = 8 then [] else scanText 1024 ampersand (y ++ z') := by
      intro z hz z' hz'
      rw [← hread z, ← hread z', h z hz, h z' hz']
    refine ⟨y, rfl, ?_, ?_⟩
    · -- open: one more byte is read
      by_contra hopen
      rw [not_or, not_le] at hopen
      have hmem : ampersand ∉ y ++ [48] := by
        intro hm
        rcases List.mem_append.mp hm with hm | hm
        · exact hopen.1 hm
        · exact absurd hm (by decide)
      have h0 := heq [] ⟨by decide, by decide⟩ [48] ⟨by decide, by decide⟩
      rw [List.append_nil, scanText_of_not_mem hopen.1, scanText_of_not_mem hmem,
        List.take_of_length_le (by omega),
        List.take_of_length_le (by rw [List.length_append]; simp; omega)] at h0
      simp only [List.length_nil, List.length_singleton, Nat.add_zero] at h0
      by_cases h8 : y.length = 8
      · rw [if_pos h8, if_neg (by omega)] at h0
        simp at h0
      · rw [if_neg h8] at h0
        split at h0
        · exact hne h0
        · simp at h0
    · -- short: with eight bytes behind the tag nothing is read, with nine the text is
      by_contra hshort
      rw [not_or, not_lt] at hshort
      have h0 := heq _ (tail_replicate (8 - y.length)) _ (tail_replicate (9 - y.length))
      rw [List.length_replicate, List.length_replicate, if_pos (by omega), if_neg (by omega)] at h0
      rcases (scanText_eq_nil_iff (by decide) _ _).mp h0.symm with hnil | hhead
      · exact hne (List.append_eq_nil_iff.mp hnil).1
      · rw [List.head?_append_of_ne_nil _ hne] at hhead
        exact hshort.2 hhead

/-- A message whose texts do not change whatever follows has all its fields. -/
theorem selfContained_of_stable {s : List UInt8} (hs : s.getLast? = some 0x0a) (h : Stable s) :
    SelfContained s := by
  have hd := fun z hz => (texts_eq_iff _ _).mp (h z hz)
  exact {
    QN := closedField_of_stable (by decide) hs (by decide) fun z hz => (hd z hz).1
    CN := closedField_of_stable (by decide) hs (by decide) fun z hz => (hd z hz).2.1
    ST := closedField_of_stable (by decide) hs (by decide) fun z hz => (hd z hz).2.2.1
    PW := closedPW_of_stable hs (fun z hz => (hd z hz).2.2.2.1) fun z hz => (hd z hz).2.2.2.2.1
    MN := closedMN_of_stable hs fun z hz => (hd z hz).2.2.2.2.1
    Flag := closedField_of_stable (by decide) hs (by decide) fun z hz => (hd z hz).2.2.2.2.2.1
    CP := closedCP_of_stable hs fun z hz => (hd z hz).2.2.2.2.2.2 }

/-! ## What earlier traffic leaves behind a frame -/

/-- Bytes behind the frame do not change its length and check. -/
theorem ValidFrame.package_ok {f : List UInt8} (h : ValidFrame f) (beyond rest : List UInt8) :
    (package beyond (f ++ rest) f.length).ok f.length = true := by
  have hlong := h.long
  have hlt := h.fits
  unfold hjt212BufSize at hlt
  have hok := h.ok
  unfold Package.ok at hok ⊢
  rw [Bool.and_eq_true, decide_eq_true_eq, decide_eq_true_eq] at hok ⊢
  have hbtLen : ((f ++ rest).drop 2).take 4 = (f.drop 2).take 4 := by
    rw [List.drop_append_of_le_length (by omega),
      List.take_append_of_le_length (by rw [List.length_drop]; omega)]
  have hbtCheck : ((f ++ rest).drop (f.length - 6)).take 4 = (f.drop (f.length - 6)).take 4 := by
    rw [List.drop_append_of_le_length (by omega),
      List.take_append_of_le_length (by rw [List.length_drop]; omega)]
  have hul : (ulLen ((f.drop 2).take 4)).toNat = f.length - 12 := by
    have h12 := congrArg UInt32.toNat hok.1
    have hu := UInt32.toNat_lt (ulLen ((f.drop 2).take 4))
    rw [UInt32.toNat_add, UInt32.toNat_ofNat', Nat.mod_eq_of_lt (a := f.length) (by omega),
      show (12 : UInt32).toNat = 12 from rfl] at h12
    simp only [package] at h12
    omega
  have hcrc : ∀ z, hjt212GetCrc16 (f.drop 6 ++ z) (ulLen ((f.drop 2).take 4)) =
      hjt212GetCrc16 (f.drop 6) (ulLen ((f.drop 2).take 4)) := fun z => by
    unfold hjt212GetCrc16
    rw [hul, if_pos (by omega), List.take_append_of_le_length (by rw [List.length_drop]; omega)]
  simp only [package, List.append_nil] at hok ⊢
  rw [hbtLen, hbtCheck, List.drop_append_of_le_length (by omega), List.append_assoc, hcrc]
  exact hok

/-- A valid frame behind a stream that leaves the receiver at the start of its head state: one
    package, and the frame stands in front of the buffer of before. -/
theorem ValidFrame.putBytes {f : List UInt8} (h : ValidFrame f) {beyond g : List UInt8}
    (hg : AtHead beyond g) :
    (hjt212PutBytes (hjt212PutBytes (hjt212Open beyond) g).1 f).2 =
        [package beyond (f ++ (hjt212PutBytes (hjt212Open beyond) g).1.buf.drop f.length) f.length] ∧
      AtHead beyond (g ++ f) ∧ (hjt212PutBytes (hjt212Open beyond) (g ++ f)).1.buf =
        f ++ (hjt212PutBytes (hjt212Open beyond) g).1.buf.drop f.length := by
  have hend : EndAt (hjt212Format beyond) f := by
    refine ⟨h.eom, ?_⟩
    have hmod : f.length % (hjt212Format beyond).size = f.length := Nat.mod_eq_of_lt h.fits
    rw [hmod]
    exact h.long
  have hno : ∀ j < f.length, ¬ EndAt (hjt212Format beyond) (f.take j) := fun j hj hj' =>
    have hj'' := (endAt_take_iff hj h.fits).mp hj'
    h.once j hj hj''.2 hj''.1
  obtain ⟨s', hpos, hbuf, hfired⟩ :=
    putBytes_frame (s := (hjt212PutBytes (hjt212Open beyond) g).1) hg.2 h.pre hend hno h.fits
  have hframe : (hjt212Format beyond).frame s'.buf s'.pos = (s'.buf, [package beyond s'.buf s'.pos]) := by
    show hjt212Frame beyond s'.buf s'.pos = _
    unfold hjt212Frame
    dsimp only
    rw [hbuf, hpos, if_pos (h.package_ok beyond _)]
  have hout := hfired.out
  have hbuf' := hfired.buf
  rw [hframe] at hout hbuf'
  dsimp only at hout hbuf'
  unfold AtHead hjt212PutBytes at *
  rw [Receiver.putBytes_append]
  refine ⟨?_, ⟨hfired.state, hfired.pos⟩, ?_⟩
  · rw [hout, hbuf, hpos]
  · rw [hbuf', hbuf]

/-- The texts of a valid frame, from its bytes and what stands behind them. -/
theorem ValidFrame.textsAfter_eq {f : List UInt8} (h : ValidFrame f) {beyond g : List UInt8}
    (hg : AtHead beyond g) (cfgPW : List UInt8) :
    textsAfter beyond cfgPW g f = [(parseData (cstr (f.drop 6 ++
      ((hjt212PutBytes (hjt212Open beyond) g).1.buf.drop f.length ++ beyond)))).texts] := by
  have hlong := h.long
  have hdata : ∀ rest, (package beyond (f ++ rest) f.length).pData = f.drop 6 ++ (rest ++ beyond) :=
    fun rest => by
      unfold package
      dsimp only
      rw [List.drop_append_of_le_length (by omega), List.append_assoc]
  unfold textsAfter
  rw [(h.putBytes hg).1, List.map_singleton, parsePack_fst, hdata]

/-- The part of `z` that fits the buffer behind a frame of `n` bytes, and zeros. -/
def fill (n : Nat) (z : List UInt8) : List UInt8 :=
  z.take (hjt212BufSize - n) ++ List.replicate (hjt212BufSize - n - z.length) 0

/-- Letters that fill the buffer up to its end, with `fill n z` last. -/
def filler (n : Nat) (z : List UInt8) : List UInt8 := List.replicate (n - 2) 120 ++ fill n z

/-- The end of the frame of `filler`, which starts at the front of the buffer again. -/
def fillerEnd : List UInt8 := List.replicate 16 120 ++ hjt212Eom

/-- Traffic that leaves `z` in the buffer, behind the first `n` bytes. -/
def residue (n : Nat) (z : List UInt8) : List UInt8 := hjt212Pre ++ filler n z ++ fillerEnd

theorem length_fill {n : Nat} (z : List UInt8) : (fill n z).length = hjt212BufSize - n := by
  unfold fill
  rw [List.length_append, List.length_take, List.length_replicate]
  omega

theorem residue_spec {n : Nat} (h18 : 18 ≤ n) (hn : n ≤ hjt212BufSize) {z : List UInt8}
    (hz : (0x0d : UInt8) ∉ z) (beyond : List UInt8) :
    AtHead beyond (residue n z) ∧
      (hjt212PutBytes (hjt212Open beyond) (residue n z)).1.buf.drop n = fill n z := by
  have hpre2 : hjt212Pre.length = 2 := rfl
  have hw : ((hjt212Format beyond).pre ++ filler n z).length = (hjt212Format beyond).size := by
    show (hjt212Pre ++ filler n z).length = hjt212BufSize
    rw [filler, List.length_append, List.length_append, length_fill, List.length_replicate]
    omega
  have hno : NoEnd (hjt212Format beyond) (filler n z) := by
    intro j _ hend
    have hmem : (0x0d : UInt8) ∈ hjt212Pre ++ (filler n z).take j := 
      hend.1.subset (by decide : (0x0d : UInt8) ∈ hjt212Eom)
    have hnot : (0x0d : UInt8) ∉ filler n z := by
      unfold filler fill
      simp only [List.mem_append, List.mem_replicate, not_or]
      exact ⟨fun h => absurd h.2 (by decide), fun h => hz (List.mem_of_mem_take h),
        fun h => absurd h.2 (by decide)⟩
    rcases List.mem_append.mp hmem with h | h
    · exact absurd h (by decide)
    · exact hnot (List.mem_of_mem_take h)
  have hx : EndAt (hjt212Format beyond) fillerEnd := by
    refine ⟨List.suffix_append _ _, ?_⟩
    show 18 ≤ 18 % 2048
    decide
  have hxno : ∀ j, 0 < j → j < fillerEnd.length → ¬ EndAt (hjt212Format beyond) (fillerEnd.take j) := by
    intro j _ hj hend
    have hnone : ∀ j < 18, ¬ hjt212Eom <:+ fillerEnd.take j := by decide
    exact hnone j hj hend.1
  have hlt : fillerEnd.length < (hjt212Format beyond).size := by
    show 18 < 2048
    decide
  obtain ⟨s', hpos, hbuf, hfired⟩ :=
    putBytes_ring (s := hjt212Open beyond) rfl rfl hw hno hx hxno hlt
  have hkeep : ((hjt212Format beyond).frame s'.buf s'.pos).1 = s'.buf := by
    show (hjt212Frame beyond s'.buf s'.pos).1 = _
    unfold hjt212Frame
    dsimp only
    split <;> rfl
  have hrun : (hjt212PutBytes (hjt212Open beyond) (residue n z)).1 =
      ((Receiver.putBytes (Receiver.putBytes (hjt212Open beyond) (hjt212Pre ++ filler n z)).1
        fillerEnd)).1 := by
    unfold hjt212PutBytes residue
    rw [Receiver.putBytes_append]
  unfold AtHead
  rw [hrun]
  refine ⟨⟨hfired.state, hfired.pos⟩, ?_⟩
  -- the first eighteen bytes are those of the end of the frame
  have hdrop : (hjt212Pre ++ filler n z).drop n = fill n z := by
    rw [filler, ← List.append_assoc, List.drop_left']
    rw [List.length_append, List.length_replicate]
    omega
  have hbuf' := hfired.buf
  rw [hkeep, hbuf] at hbuf'
  have hend18 : fillerEnd.length = 18 := rfl
  refine (congrArg (List.drop n) hbuf').trans ?_
  rw [List.drop_append, List.drop_of_length_le (by omega), List.nil_append, List.drop_drop,
    show fillerEnd.length + (n - fillerEnd.length) = n by omega]
  exact hdrop

/-- With the right bytes behind the buffer, the string behind the frame is `z`. -/
theorem cstr_fill {n : Nat} {z : List UInt8} (hz : (0 : UInt8) ∉ z) :
    cstr (fill n z ++ z.drop (hjt212BufSize - n)) = z := by
  unfold fill
  rcases Nat.lt_or_ge z.length (hjt212BufSize - n) with h | h
  · rw [List.take_of_length_le (by omega), List.drop_of_length_le (by omega), List.append_nil,
      show hjt212BufSize - n - z.length = (hjt212BufSize - n - z.length - 1) + 1 by omega,
      List.replicate_succ, cstr_append_zero, cstr_of_not_mem hz]
  · rw [show hjt212BufSize - n - z.length = 0 by omega, List.replicate_zero, List.append_nil,
      List.take_append_drop, cstr_of_not_mem hz]

/-! ## Non-interference -/

theorem ValidFrame.getLast_eq {f : List UInt8} (h : ValidFrame f) :
    (f.drop 6).getLast? = some 0x0a := by
  have hlong := h.long
  have hsuf : hjt212Eom <:+ f.drop 6 := by
    refine List.suffix_of_suffix_length_le h.eom (List.drop_suffix 6 f) ?_
    rw [List.length_drop]
    show 2 ≤ _
    omega
  obtain ⟨u, hu⟩ := hsuf
  rw [← hu]
  exact List.getLast?_append_of_ne_nil _ (by decide)

theorem ValidFrame.stable {f : List UInt8} (h : ValidFrame f) (hni : NonInterferent f)
    (h0 : (0 : UInt8) ∉ f.drop 6) : Stable (f.drop 6) := by
  intro z hz
  obtain ⟨hhead, hdrop⟩ := residue_spec h.long (Nat.le_of_lt h.fits) hz.2
    (z.drop (hjt212BufSize - f.length))
  have hopen : AtHead (z.drop (hjt212BufSize - f.length)) [] := ⟨rfl, rfl⟩
  have heq := hni _ [] _ _ hhead hopen
  rw [h.textsAfter_eq hhead, h.textsAfter_eq hopen, hdrop] at heq
  have hzero : (hjt212PutBytes (hjt212Open (z.drop (hjt212BufSize - f.length))) []).1.buf.drop
      f.length = 0 :: List.replicate (hjt212BufSize - f.length - 1) 0 := drop_hjt212Open _ h.fits
  rw [hzero, List.cons_append, cstr_append_zero, cstr_of_not_mem h0, cstr_append_of_not_mem h0,
    cstr_fill hz.1] at heq
  exact List.head_eq_of_cons_eq heq

/-- The texts of a valid frame do not depend on the traffic before it if and only if its
    message holds a zero or is self-contained. -/
theorem hjt212_nonInterference (f : List UInt8) (h : ValidFrame f) :
    NonInterferent f ↔ (0 : UInt8) ∈ f.drop 6 ∨ SelfContained (f.drop 6) := by
  constructor
  · intro hni
    by_cases h0 : (0 : UInt8) ∈ f.drop 6
    · exact Or.inl h0
    · exact Or.inr (selfContained_of_stable h.getLast_eq (h.stable hni h0))
  · intro hself beyond cfgPW g₁ g₂ hg₁ hg₂
    rw [h.textsAfter_eq hg₁, h.textsAfter_eq hg₂]
    by_cases h0 : (0 : UInt8) ∈ f.drop 6
    · obtain ⟨u, v, huv, -⟩ := List.eq_append_cons_of_mem h0
      rw [huv]
      simp only [List.append_assoc, List.cons_append, cstr_append_zero]
    · have hs := hself.resolve_left h0
      rw [cstr_append_of_not_mem h0, cstr_append_of_not_mem h0, hs.texts_eq, hs.texts_eq]

/-! ## Frames of the gateway -/

/-- A frame of `Hjt212Encode` is valid. -/
theorem validFrame_hjt212Encode {x : Fields} (hx : x.NoCrLf) (hlong : 18 ≤ (hjt212Encode x).length)
    (hfits : (hjt212Encode x).length < hjt212BufSize) : ValidFrame (hjt212Encode x) where
  pre := hjt212Encode_front x
  eom := ⟨encodeFront x, rfl⟩
  long := hlong
  fits := hfits
  once := fun j hj _ => (delimited_hjt212Encode [] hx).once j hj
  ok := by
    have hframe := hjt212Frame_hjt212Encode [] [] x hfits
    unfold hjt212Frame at hframe
    dsimp only at hframe
    rw [List.append_nil] at hframe
    split at hframe
    · next hok => exact hok
    · exact absurd hframe (by simp)

/-- A command with all fields. -/
def command : Fields where
  QN := some (chars ['2', '0', '2', '4'])
  ST := some (chars ['3', '2'])
  CN := some (chars ['1', '0', '1', '1'])
  PW := some (chars ['1', '2', '3', '4', '5', '6'])
  MN := some (chars ['0', '1'])
  Flag := some (chars ['1'])
  CP := some []

theorem command_validFrame : ValidFrame (hjt212Encode command) := by
  refine validFrame_hjt212Encode ?_ (by decide) (by decide)
  intro s hs
  simp only [command, Option.some.injEq] at hs
  rcases hs with rfl | rfl | rfl | rfl | rfl | rfl <;> decide

/-- The command reads the same after all traffic. -/
theorem hjt212_nonInterference_command : NonInterferent (hjt212Encode command) :=
  (hjt212_nonInterference _ command_validFrame).mpr (Or.inr
    { QN := ⟨_, rfl, Or.inl (by decide)⟩
      CN := ⟨_, rfl, Or.inl (by decide)⟩
      ST := ⟨_, rfl, Or.inl (by decide)⟩
      PW := Or.inl ⟨_, rfl, Or.inl (by decide)⟩
      MN := ⟨_, rfl, Or.inl (by decide)⟩
      Flag := ⟨_, rfl, Or.inl (by decide)⟩
      CP := ⟨_, rfl, Or.inl (by decide), Or.inr rfl⟩ })

/-- The data response has no PW of its own: after the command it has the command's. -/
theorem dataResponse_interferes : ¬ ∀ f, ValidFrame f → NonInterferent f := by
  intro h
  have hvalid : ValidFrame (hjt212Encode dataResponse) :=
    validFrame_hjt212Encode dataResponse_noCrLf (by decide) (by decide)
  have hopen : AtHead [] [] := ⟨rfl, rfl⟩
  have hcommand := command_validFrame.putBytes hopen
  have heq := h _ hvalid [] [] [] _ hopen hcommand.2.1
  rw [hvalid.textsAfter_eq hopen, hvalid.textsAfter_eq hcommand.2.1, hcommand.2.2] at heq
  have hPW := ((texts_eq_iff _ _).mp (List.head_eq_of_cons_eq heq)).2.2.2.1
  exact absurd hPW (by decide +kernel)

end K64Gateway.Hjt212
