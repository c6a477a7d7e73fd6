import K64Gateway.Lib.TaggedText
import K64Gateway.Sdccp.Hjt212

/-
  `__HJT212_ParsePack` of `sdccp/hjt212.c`: the fields of a received package, each searched by
  its tag in the whole message, and what the gateway does with them.

  Proved: exactly which messages survive `Hjt212Encode`, `HJT212_PutBytes` and
  `__HJT212_ParsePack` (`hjt212_roundTrip`).
-/

namespace K64Gateway.Hjt212

open CString Framing TaggedText

/-! ## Parsing -/

/-- `HJT212_Data_t`: the texts in its arrays, and the string `cp`, if it is allocated. -/
structure Data where
  QN : List UInt8
  CN : List UInt8
  ST : List UInt8
  PW : List UInt8
  MN : List UInt8
  Flag : List UInt8
  cp : Option (List UInt8)
deriving DecidableEq

/-- `&` -/
def ampersand : UInt8 := 38

/-- `p = strstr(pBuf, tag)` and `sscanf(p + strlen(tag), "%n[^;]", ..)`, which stores nothing
    without a tag or a character. -/
def readField (tag : List UInt8) (n : Nat) (pBuf : List UInt8) : List UInt8 :=
  match behind tag pBuf with
  | some y => scanText n semicolon y
  | none => []

/-- `xData.cp`. The lengths are unsigned: `strlen(p) - 13 > 0` is `strlen(p) != 13`. -/
def readCP (pBuf : List UInt8) : Option (List UInt8) :=
  match strstr tagCP pBuf with
  | some p =>
      if p.length ≠ 13 then some (scanText 1024 ampersand (p.drop tagCP.length)) else none
  | none => none

/-- The fields of the message. `PW[7]` lies in front of `MN[15]`: a text of more than seven
    bytes at `PW` goes on in `MN`, and stays there if no text is stored at `MN` afterwards. -/
def parseData (pBuf : List UInt8) : Data :=
  let pw := readField tagPW 10 pBuf
  let mn := readField tagMN 14 pBuf
  { QN := readField tagQN 20 pBuf
    CN := readField tagCN 7 pBuf
    ST := readField tagST 5 pBuf
    PW := pw.take 7
    MN := if mn = [] then pw.drop 7 else mn
    Flag := readField tagFlag 3 pBuf
    cp := readCP pBuf }

/-- `eReRtn_t` -/
inductive ReRtn where
  | success
  | failed
  | passwdErr
deriving DecidableEq

/-- `eExeRtn_t` -/
inductive ExeRtn where
  | success
  | failed
  | noData
deriving DecidableEq

/-- The calls of `__HJT212_ParsePack`. -/
inductive Action where
  | reqRespons (rtn : ReRtn)
  | reportSystemTime
  | reqResult (rtn : ExeRtn)
  | mqSend (xData : Data)
deriving DecidableEq

def cmdRequestUploadTime : Int := 1011

/-- `__HJT212_ParsePack`: the fields and the calls. Of the commands only the request of the
    time does more than print; `cp` is freed before the fields are queued. -/
def parsePack (cfgPW : List UInt8) (pPack : Package) : Data × List Action :=
  let xData := parseData (cstr pPack.pData)
  if (cstr cfgPW).take 7 ≠ xData.PW then (xData, [.reqRespons .passwdErr])
  else
    let ulCmd := atoi xData.CN % 65536
    (xData, (if ulCmd = cmdRequestUploadTime then
        [.reqRespons .success, .reportSystemTime, .reqResult .success] else []) ++
      [.mqSend { xData with cp := none }])

@[simp] theorem parsePack_fst (cfgPW : List UInt8) (pPack : Package) :
    (parsePack cfgPW pPack).1 = parseData (cstr pPack.pData) := by
  unfold parsePack
  dsimp only
  split <;> rfl

/-- Only a package with the password is queued, and it is queued without its CP. -/
theorem mqSend_mem_parsePack (cfgPW : List UInt8) (pPack : Package) (d : Data) :
    .mqSend d ∈ (parsePack cfgPW pPack).2 ↔
      (cstr cfgPW).take 7 = (parsePack cfgPW pPack).1.PW ∧
        d = { (parsePack cfgPW pPack).1 with cp := none } := by
  rw [parsePack_fst]
  unfold parsePack
  dsimp only
  by_cases hpw : (cstr cfgPW).take 7 = (parseData (cstr pPack.pData)).PW
  · rw [if_neg (not_not.mpr hpw)]
    split <;> simp [hpw]
  · rw [if_pos hpw]
    simp [hpw]

/-- The texts of the fields; a `cp` that is not allocated is empty. -/
def Data.texts (d : Data) : List (List UInt8) :=
  [d.QN, d.CN, d.ST, d.PW, d.MN, d.Flag, d.cp.getD []]

/-! ## Messages -/

/-- A value of at most `n` characters that does not close its field. -/
def Value (n : Nat) (s : List UInt8) : Prop := s.length ≤ n ∧ (0 : UInt8) ∉ s ∧ semicolon ∉ s

/-- What `Hjt212Encode` is meant for: fields within their lengths that do not contain the
    characters they are closed with. -/
structure Message where
  QN : Option (List UInt8)
  ST : List UInt8
  CN : List UInt8
  PW : List UInt8
  MN : List UInt8
  Flag : Option UInt8
  CP : List UInt8
  QN_value : ∀ s ∈ QN, Value 17 s
  ST_value : Value 5 ST
  CN_value : Value 4 CN
  PW_value : Value 6 PW
  MN_value : Value 14 MN
  Flag_value : ∀ c ∈ Flag, Value 1 [c]
  CP_value : (0 : UInt8) ∉ CP ∧ ampersand ∉ CP ∧ NoCrLf CP

/-- The arguments of `Hjt212Encode`. -/
def Message.fields (m : Message) : Fields where
  QN := m.QN
  ST := some m.ST
  CN := some m.CN
  PW := some m.PW
  MN := some m.MN
  Flag := m.Flag.map fun c => [c]
  CP := some m.CP

def Message.texts (m : Message) : List (List UInt8) :=
  [m.QN.getD [], m.CN, m.ST, m.PW, m.MN, m.Flag.toList, m.CP]

/-- The fields in front of ST, CN, PW, MN, Flag and CP. -/
def Message.frontST (m : Message) : List (List UInt8 × List UInt8) :=
  (m.QN.map fun s => (tagQN, s)).toList

def Message.frontCN (m : Message) : List (List UInt8 × List UInt8) := m.frontST ++ [(tagST, m.ST)]

def Message.frontPW (m : Message) : List (List UInt8 × List UInt8) := m.frontCN ++ [(tagCN, m.CN)]

def Message.frontMN (m : Message) : List (List UInt8 × List UInt8) := m.frontPW ++ [(tagPW, m.PW)]

def Message.frontFlag (m : Message) : List (List UInt8 × List UInt8) := m.frontMN ++ [(tagMN, m.MN)]

def Message.frontCP (m : Message) : List (List UInt8 × List UInt8) :=
  m.frontFlag ++ (m.Flag.map fun c => (tagFlag, [c])).toList

/-- A fresh receiver passes the frame of `m` on once, and its fields are those of `m`. -/
def RoundTrip (beyond cfgPW : List UInt8) (m : Message) : Prop :=
  ∃ p, (hjt212PutBytes (hjt212Open beyond) (hjt212Encode m.fields)).2 = [p] ∧
    p.bytes = hjt212Encode m.fields ∧ (parsePack cfgPW p).1.texts = m.texts

/-- The field `v` is read right: if its tag stands in a value in front of it, then the first
    such value has `v` behind the tag, as far as the field is read. -/
def ReadsAs (tag : List UInt8) (n : Nat) (front : List (List UInt8 × List UInt8))
    (v : List UInt8) : Prop :=
  ∀ y ∈ firstBehind tag front, y.take n = v

/-- The field left out is read as empty: its tag stands in no value, or at the very end of the
    first value it stands in, or in front of a semicolon if that value is `cp`. -/
def ReadsEmpty (tag : List UInt8) (front : List (List UInt8 × List UInt8)) (cp : List UInt8) :
    Prop :=
  match firstBehind tag front with
  | some y => y = []
  | none => ∀ y ∈ behind tag cp, y.head? = some semicolon

/-- The message fits the receive buffer, is not cut by an end mark inside, and no tag inside a
    value leads the parser astray. -/
structure Message.Unambiguous (m : Message) : Prop where
  fits : (hjt212Encode m.fields).length < hjt212BufSize
  once : NoCrLf ((encodeData m.fields).drop 10)
  QN : m.QN = none → ReadsEmpty tagQN m.frontCP m.CP
  ST : ReadsAs tagST 5 m.frontST m.ST
  CN : ReadsAs tagCN 7 m.frontCN m.CN
  PW : ReadsAs tagPW 7 m.frontPW m.PW
  MN : ReadsAs tagMN 14 m.frontMN m.MN
  Flag : match m.Flag with
    | some c => ReadsAs tagFlag 3 m.frontFlag [c]
    | none => ReadsEmpty tagFlag m.frontCP m.CP
  CP : match behindFields semicolon tagCP m.frontCP (encodeCP (some m.CP)) with
    | some y => scanText 1024 ampersand y = m.CP
    | none => m.CP.length ≤ 1024

/-! ## Reading one field -/

theorem scanText_eq_nil_iff {n : Nat} (hn : 0 < n) (stop : UInt8) (m : List UInt8) :
    scanText n stop m = [] ↔ m = [] ∨ m.head? = some stop := by
  cases m with
  | nil => simp [scanText]
  | cons a m =>
    unfold scanText
    rw [List.take_eq_nil_iff]
    by_cases ha : a = stop
    · simp [ha]
    · have hbne : (a != stop) = true := by simpa using ha
      rw [List.takeWhile_cons, if_pos hbne]
      simp [ha]
      omega

/-- The parser reads the field behind `front`, or what a value in `front` has behind its tag. -/
theorem readField_joinFields {tag : List UInt8} (n : Nat) (htag : semicolon ∉ tag)
    {front : List (List UInt8 × List UInt8)}
    (hfront : ∀ f ∈ front, Apart f.1 tag ∧ semicolon ∉ f.2) {v : List UInt8}
    (hv : semicolon ∉ v) (rest : List UInt8) :
    readField tag n (joinFields semicolon front (tag ++ (v ++ semicolon :: rest))) =
      ((firstBehind tag front).getD v).take n := by
  unfold readField
  rw [behind_joinFields htag fun f hf => (hfront f hf).1]
  rcases behindFields_eq_some semicolon tag front (tag ++ (v ++ semicolon :: rest))
    with ⟨h1, h2⟩ | ⟨y, rest', h1, h2, -, f, hf, hy⟩
  · rw [h1, h2, behind_self, Option.none_or, Option.getD_none]
    exact scanText_stop hv rest
  · rw [h1, h2, Option.some_or, Option.getD_some]
    exact scanText_stop (fun h => (hfront f hf).2 (hy.subset h)) rest'

theorem readField_eq_iff {tag : List UInt8} {n : Nat} (htag : semicolon ∉ tag)
    {front : List (List UInt8 × List UInt8)}
    (hfront : ∀ f ∈ front, Apart f.1 tag ∧ semicolon ∉ f.2) {v : List UInt8}
    (hv : Value n v) (rest : List UInt8) :
    readField tag n (joinFields semicolon front (tag ++ (v ++ semicolon :: rest))) = v ↔
      ReadsAs tag n front v := by
  rw [readField_joinFields n htag hfront hv.2.2, ReadsAs]
  cases firstBehind tag front with
  | some y => simp
  | none => simp [List.take_of_length_le hv.1]

/-- The tag of a field left out is searched for in all values and in CP. -/
theorem readField_eq_nil_iff {tag : List UInt8} {n : Nat} (hn : 0 < n) (htag : semicolon ∉ tag)
    (hamp : ampersand ∉ tag) (hCP : Apart tagCP tag) {front : List (List UInt8 × List UInt8)}
    (hfront : ∀ f ∈ front, Apart f.1 tag ∧ semicolon ∉ f.2) (cp : List UInt8) {rest : List UInt8}
    (hrest : ¬ tag <:+: rest) :
    readField tag n (joinFields semicolon front (tagCP ++ (cp ++ ampersand :: rest))) = [] ↔
      ReadsEmpty tag front cp := by
  unfold readField ReadsEmpty
  rw [behind_joinFields htag fun f hf => (hfront f hf).1]
  rcases behindFields_eq_some semicolon tag front (tagCP ++ (cp ++ ampersand :: rest))
    with ⟨h1, h2⟩ | ⟨y, rest', h1, h2, -, f, hf, hy⟩
  · rw [h1, h2, Option.none_or, behind_apart hCP, behind_sep hamp, behind_eq_none_iff.mpr hrest]
    cases behind tag cp with
    | some y =>
      rw [scanText_eq_nil_iff hn]
      cases y with
      | nil => simp [ampersand, semicolon]
      | cons a y => simp
    | none => simp
  · rw [h1, h2, Option.some_or]
    dsimp only
    rw [scanText_stop fun h => (hfront f hf).2 (hy.subset h), List.take_eq_nil_iff]
    exact ⟨fun h => h.resolve_left (by omega), Or.inr⟩

theorem readField_take {k n : Nat} (h : k ≤ n) (tag pBuf : List UInt8) :
    (readField tag n pBuf).take k = readField tag k pBuf := by
  unfold readField
  cases behind tag pBuf with
  | some y => simp only [scanText, List.take_take, Nat.min_eq_left h]
  | none => exact List.take_nil

theorem readCP_eq (pBuf : List UInt8) :
    readCP pBuf = match behind tagCP pBuf with
      | some y => if y.length + 5 ≠ 13 then some (scanText 1024 ampersand y) else none
      | none => none := by
  unfold readCP behind
  cases h : strstr tagCP pBuf with
  | none => rfl
  | some p =>
    have hlen := (strstr_eq_some h).1.length_le
    have h5 : tagCP.length = 5 := rfl
    rw [Option.map_some]
    dsimp only
    rw [List.length_drop, show p.length - tagCP.length + 5 = p.length by omega]

theorem encodeCP_eq {cp : List UInt8} (h0 : (0 : UInt8) ∉ cp) :
    encodeCP (some cp) = tagCP ++ (cp ++ ampersand :: [ampersand]) := by
  rw [encodeCP, cstr_of_not_mem h0, List.append_assoc]
  rfl

/-- CP with six bytes, the check and the end mark, behind the data. -/
theorem readCP_eq_iff {front : List (List UInt8 × List UInt8)}
    (hfront : ∀ f ∈ front, Apart f.1 tagCP) {cp : List UInt8} (h0 : (0 : UInt8) ∉ cp)
    (hamp : ampersand ∉ cp) {z : List UInt8} (hz : z.length = 6) :
    (readCP (joinFields semicolon front (encodeCP (some cp)) ++ z)).getD [] = cp ↔
      match behindFields semicolon tagCP front (encodeCP (some cp)) with
      | some y => scanText 1024 ampersand y = cp
      | none => cp.length ≤ 1024 := by
  rw [← joinFields_append_tail, readCP_eq, behind_joinFields (by decide) hfront,
    behindFields_append_tail]
  rcases behindFields_eq_some semicolon tagCP front (encodeCP (some cp)) with
    ⟨-, h⟩ | ⟨y, rest, -, h, htail, -⟩
  · have hown : behind tagCP (encodeCP (some cp) ++ z) =
        some (cp ++ ampersand :: (ampersand :: z)) := by
      rw [encodeCP_eq h0, List.append_assoc, behind_self, List.append_assoc]
      rfl
    rw [h, Option.map_none, Option.none_or, hown]
    dsimp only
    rw [scanText_stop hamp, List.length_append, List.length_cons, List.length_cons, hz]
    by_cases hnil : cp = []
    · simp [hnil]
    · have hpos := List.length_pos_iff.mpr hnil
      rw [if_pos (by omega), Option.getD_some, List.take_eq_self_iff]
  · have hamp' : ampersand ∈ y ++ semicolon :: rest := by
      have hmem : ampersand ∈ encodeCP (some cp) := by simp [encodeCP_eq h0]
      exact List.mem_append_right _ (List.mem_cons_of_mem _ (htail.subset hmem))
    have hlen := htail.length_le
    rw [encodeCP_eq h0] at hlen
    rw [h, Option.map_some, Option.some_or]
    dsimp only
    rw [scanText_closed (Or.inl hamp'), if_pos, Option.getD_some]
    simp only [List.length_append, List.length_cons, hz] at hlen ⊢
    have h5 : tagCP.length = 5 := rfl
    omega

/-! ## The fields of a message -/

/-- The search for `tag` through `front` can only stop inside a value. -/
def Passes (tag : List UInt8) (front : List (List UInt8 × List UInt8)) : Prop :=
  ∀ f ∈ front, Apart f.1 tag ∧ semicolon ∉ f.2

theorem Passes.snoc {tag : List UInt8} {front : List (List UInt8 × List UInt8)}
    (h : Passes tag front) {t v : List UInt8} (ht : Apart t tag) (hv : semicolon ∉ v) :
    Passes tag (front ++ [(t, v)]) := by
  intro f hf
  rcases List.mem_append.mp hf with hf | hf
  · exact h f hf
  · rw [List.mem_singleton] at hf
    subst hf
    exact ⟨ht, hv⟩

theorem Message.frontST_passes (m : Message) {tag : List UInt8}
    (hQN : m.QN ≠ none → Apart tagQN tag) : Passes tag m.frontST := by
  intro f hf
  unfold frontST at hf
  cases h : m.QN with
  | none => simp [h] at hf
  | some s =>
    rw [h, Option.map_some, Option.toList_some, List.mem_singleton] at hf
    subst hf
    exact ⟨hQN (by simp [h]), (m.QN_value s h).2.2⟩

theorem Message.frontCN_passes (m : Message) {tag : List UInt8}
    (hQN : m.QN ≠ none → Apart tagQN tag) (h : Apart tagST tag) : Passes tag m.frontCN :=
  (m.frontST_passes hQN).snoc h m.ST_value.2.2

theorem Message.frontPW_passes (m : Message) {tag : List UInt8}
    (hQN : m.QN ≠ none → Apart tagQN tag) (h : Apart tagST tag ∧ Apart tagCN tag) :
    Passes tag m.frontPW :=
  (m.frontCN_passes hQN h.1).snoc h.2 m.CN_value.2.2

theorem Message.frontMN_passes (m : Message) {tag : List UInt8}
    (hQN : m.QN ≠ none → Apart tagQN tag)
    (h : (Apart tagST tag ∧ Apart tagCN tag) ∧ Apart tagPW tag) : Passes tag m.frontMN :=
  (m.frontPW_passes hQN h.1).snoc h.2 m.PW_value.2.2

theorem Message.frontFlag_passes (m : Message) {tag : List UInt8}
    (hQN : m.QN ≠ none → Apart tagQN tag)
    (h : ((Apart tagST tag ∧ Apart tagCN tag) ∧ Apart tagPW tag) ∧ Apart tagMN tag) :
    Passes tag m.frontFlag :=
  (m.frontMN_passes hQN h.1).snoc h.2 m.MN_value.2.2

theorem Message.frontCP_passes (m : Message) {tag : List UInt8}
    (hQN : m.QN ≠ none → Apart tagQN tag)
    (h : ((Apart tagST tag ∧ Apart tagCN tag) ∧ Apart tagPW tag) ∧ Apart tagMN tag)
    (hFlag : m.Flag ≠ none → Apart tagFlag tag) : Passes tag m.frontCP := by
  unfold frontCP
  cases hf : m.Flag with
  | none =>
    rw [Option.map_none, Option.toList_none, List.append_nil]
    exact m.frontFlag_passes hQN h
  | some c =>
    exact (m.frontFlag_passes hQN h).snoc (hFlag (by simp [hf])) (m.Flag_value c hf).2.2

theorem encodeField_value {n : Nat} {s : List UInt8} (h : Value n s) (tag : List UInt8) :
    encodeField tag n (some s) = tag ++ (s ++ [semicolon]) := by
  rw [encodeField, cstr_of_not_mem h.2.1, List.take_of_length_le h.1, List.append_assoc]

theorem Message.encodeData_fields (m : Message) :
    encodeData m.fields = joinFields semicolon m.frontCP (encodeCP (some m.CP)) := by
  have hQN : encodeField tagQN 17 m.QN = joinFields semicolon m.frontST [] := by
    cases h : m.QN with
    | none => simp [frontST, h, encodeField, joinFields]
    | some s => simp [frontST, h, encodeField_value (m.QN_value s h), joinFields]
  have hFlag : encodeFlag (m.Flag.map fun c => [c]) ++ encodeCP (some m.CP) =
      joinFields semicolon (m.Flag.map fun c => (tagFlag, [c])).toList (encodeCP (some m.CP)) := by
    cases m.Flag with
    | none => rfl
    | some c => simp [encodeFlag, joinFields]
  have hfront : ∀ tail, joinFields semicolon m.frontST tail =
      joinFields semicolon m.frontST [] ++ tail := fun tail => by
    rw [← joinFields_append_tail, List.nil_append]
  unfold encodeData frontCP frontFlag frontMN frontPW frontCN
  simp only [joinFields_append, joinFields, fields]
  rw [hfront, ← hQN, ← hFlag, encodeField_value m.ST_value, encodeField_value m.CN_value,
    encodeField_value m.PW_value, encodeField_value m.MN_value]
  simp only [List.append_assoc, List.cons_append, List.nil_append]

/-- The check and the end mark of the frame. -/
def Message.frameEnd (m : Message) : List UInt8 :=
  usCheck (hjt212GetCrc16 (encodeData m.fields) (UInt32.ofNat (encodeData m.fields).length)) ++
    hjt212Eom

/-- The string at `pData`: the data and the end of the frame. -/
def Message.text (m : Message) : List UInt8 := encodeData m.fields ++ m.frameEnd

/-- Where the field `v` stands in the message. -/
theorem Message.text_eq (m : Message) {front : List (List UInt8 × List UInt8)}
    {tag v : List UInt8} (h : front ++ [(tag, v)] <+: m.frontCP) :
    ∃ rest, m.text = joinFields semicolon front (tag ++ (v ++ semicolon :: rest)) := by
  unfold text
  rw [encodeData_fields, ← joinFields_append_tail]
  exact exists_joinFields semicolon h _

/-- Where CP stands in the message, with what is behind its first `&`. -/
theorem Message.text_eq_CP (m : Message) : ∃ rest, m.text =
      joinFields semicolon m.frontCP (tagCP ++ (m.CP ++ ampersand :: rest)) ∧ (61 : UInt8) ∉ rest := by
  refine ⟨ampersand :: m.frameEnd, ?_, ?_⟩
  · rw [text, encodeData_fields, ← joinFields_append_tail, encodeCP_eq m.CP_value.1,
      List.append_assoc, List.append_assoc]
    rfl
  · intro h
    rcases List.mem_cons.mp h with h | h
    · exact absurd h (by decide)
    · rcases List.mem_append.mp h with h | h
      · exact absurd (mem_usCheck h) (by decide)
      · exact absurd h (by decide)

theorem Message.readField_eq_iff (m : Message) {front : List (List UInt8 × List UInt8)}
    {tag v : List UInt8} {n : Nat} (h : front ++ [(tag, v)] <+: m.frontCP)
    (htag : semicolon ∉ tag) (hfront : Passes tag front) (hv : Value n v) :
    readField tag n m.text = v ↔ ReadsAs tag n front v := by
  obtain ⟨rest, htext⟩ := m.text_eq h
  rw [htext]
  exact Hjt212.readField_eq_iff htag hfront hv rest

theorem Message.readField_eq_nil_iff (m : Message) {tag : List UInt8} {n : Nat} (hn : 0 < n)
    (htag : semicolon ∉ tag ∧ ampersand ∉ tag ∧ (61 : UInt8) ∈ tag) (hCP : Apart tagCP tag)
    (hfront : Passes tag m.frontCP) :
    readField tag n m.text = [] ↔ ReadsEmpty tag m.frontCP m.CP := by
  obtain ⟨rest, htext, hrest⟩ := m.text_eq_CP
  rw [htext]
  exact Hjt212.readField_eq_nil_iff hn htag.1 htag.2.1 hCP hfront m.CP
    fun h => hrest (h.subset htag.2.2)

theorem Value.mono {k n : Nat} (h : k ≤ n) {s : List UInt8} (hs : Value k s) : Value n s :=
  ⟨hs.1.trans h, hs.2⟩

theorem Message.front_prefix (m : Message) : m.frontCN <+: m.frontCP ∧ m.frontPW <+: m.frontCP ∧
    m.frontMN <+: m.frontCP ∧ m.frontFlag <+: m.frontCP := by
  have h4 : m.frontFlag <+: m.frontCP := List.prefix_append _ _
  have h3 : m.frontMN <+: m.frontCP := (List.prefix_append _ _).trans h4
  have h2 : m.frontPW <+: m.frontCP := (List.prefix_append _ _).trans h3
  exact ⟨(List.prefix_append _ _).trans h2, h2, h3, h4⟩

theorem Message.readQN_eq_iff (m : Message) :
    readField tagQN 20 m.text = m.QN.getD [] ↔
      (m.QN = none → ReadsEmpty tagQN m.frontCP m.CP) := by
  cases hQN : m.QN with
  | none =>
    have hpass : Passes tagQN m.frontCP :=
      m.frontCP_passes (fun h => absurd hQN h) (by decide) fun _ => by decide
    simp only [Option.getD_none, forall_const]
    exact m.readField_eq_nil_iff (by decide) (by decide) (by decide) hpass
  | some s =>
    have hpre : [] ++ [(tagQN, s)] <+: m.frontCP := by
      have hfront : m.frontST = [] ++ [(tagQN, s)] := by simp [frontST, hQN]
      rw [← hfront]
      exact (List.prefix_append _ _).trans m.front_prefix.1
    have hval := (m.QN_value s hQN).mono (by decide : 17 ≤ 20)
    rw [Option.getD_some, m.readField_eq_iff hpre (by decide) (by simp [Passes]) hval]
    simp [ReadsAs, firstBehind]

theorem Message.readST_eq_iff (m : Message) :
    readField tagST 5 m.text = m.ST ↔ ReadsAs tagST 5 m.frontST m.ST :=
  m.readField_eq_iff m.front_prefix.1 (by decide) (m.frontST_passes fun _ => by decide) m.ST_value

theorem Message.readCN_eq_iff (m : Message) :
    readField tagCN 7 m.text = m.CN ↔ ReadsAs tagCN 7 m.frontCN m.CN :=
  m.readField_eq_iff m.front_prefix.2.1 (by decide)
    (m.frontCN_passes (fun _ => by decide) (by decide)) (m.CN_value.mono (by decide))

theorem Message.readPW_eq_iff (m : Message) :
    (readField tagPW 10 m.text).take 7 = m.PW ↔ ReadsAs tagPW 7 m.frontPW m.PW := by
  rw [readField_take (by decide)]
  exact m.readField_eq_iff m.front_prefix.2.2.1 (by decide)
    (m.frontPW_passes (fun _ => by decide) (by decide)) (m.PW_value.mono (by decide))

theorem Message.readMN_eq_iff (m : Message) :
    readField tagMN 14 m.text = m.MN ↔ ReadsAs tagMN 14 m.frontMN m.MN :=
  m.readField_eq_iff m.front_prefix.2.2.2 (by decide)
    (m.frontMN_passes (fun _ => by decide) (by decide)) m.MN_value

theorem Message.readFlag_eq_iff (m : Message) :
    readField tagFlag 3 m.text = m.Flag.toList ↔
      match m.Flag with
      | some c => ReadsAs tagFlag 3 m.frontFlag [c]
      | none => ReadsEmpty tagFlag m.frontCP m.CP := by
  cases hFlag : m.Flag with
  | none =>
    have hpass : Passes tagFlag m.frontCP :=
      m.frontCP_passes (fun _ => by decide) (by decide) fun h => absurd hFlag h
    exact m.readField_eq_nil_iff (by decide) (by decide) (by decide) hpass
  | some c =>
    have hpre : m.frontFlag ++ [(tagFlag, [c])] <+: m.frontCP := by simp [frontCP, hFlag]
    exact m.readField_eq_iff hpre (by decide) (m.frontFlag_passes (fun _ => by decide) (by decide))
      ((m.Flag_value c hFlag).mono (by decide))

theorem Message.readCP_eq_iff (m : Message) :
    (readCP m.text).getD [] = m.CP ↔
      match behindFields semicolon tagCP m.frontCP (encodeCP (some m.CP)) with
      | some y => scanText 1024 ampersand y = m.CP
      | none => m.CP.length ≤ 1024 := by
  have hpass : Passes tagCP m.frontCP :=
    m.frontCP_passes (fun _ => by decide) (by decide) fun _ => by decide
  rw [text, encodeData_fields]
  exact Hjt212.readCP_eq_iff (fun f hf => (hpass f hf).1) m.CP_value.1 m.CP_value.2.1 rfl

/-- The parser reads the texts of the message if it reads each field right. A password that is
    read right is too short to leave anything in `MN`. -/
theorem Message.parseData_texts_iff (m : Message) :
    (parseData m.text).texts = m.texts ↔
      readField tagQN 20 m.text = m.QN.getD [] ∧ readField tagCN 7 m.text = m.CN ∧
        readField tagST 5 m.text = m.ST ∧ (readField tagPW 10 m.text).take 7 = m.PW ∧
        readField tagMN 14 m.text = m.MN ∧ readField tagFlag 3 m.text = m.Flag.toList ∧
        (readCP m.text).getD [] = m.CP := by
  have hMN : (readField tagPW 10 m.text).take 7 = m.PW →
      (if readField tagMN 14 m.text = [] then (readField tagPW 10 m.text).drop 7
        else readField tagMN 14 m.text) = readField tagMN 14 m.text := by
    intro hPW
    have hlen := m.PW_value.1
    rw [← hPW, List.length_take] at hlen
    rw [List.drop_of_length_le (by omega)]
    split
    · next h => exact h.symm
    · rfl
  simp only [Data.texts, parseData, texts, List.cons.injEq, and_true]
  constructor
  · rintro ⟨h1, h2, h3, h4, h5, h6, h7⟩
    exact ⟨h1, h2, h3, h4, (hMN h4).symm.trans h5, h6, h7⟩
  · rintro ⟨h1, h2, h3, h4, h5, h6, h7⟩
    exact ⟨h1, h2, h3, h4, (hMN h4).trans h5, h6, h7⟩

theorem Message.parseData_iff (m : Message) :
    m.Unambiguous ↔ (hjt212Encode m.fields).length < hjt212BufSize ∧
      NoCrLf ((encodeData m.fields).drop 10) ∧ (parseData m.text).texts = m.texts := by
  rw [parseData_texts_iff, readQN_eq_iff, readCN_eq_iff, readST_eq_iff, readPW_eq_iff,
    readMN_eq_iff, readFlag_eq_iff, readCP_eq_iff]
  constructor
  · intro h
    exact ⟨h.fits, h.once, h.QN, h.CN, h.ST, h.PW, h.MN, h.Flag, h.CP⟩
  · rintro ⟨h1, h2, h3, h4, h5, h6, h7, h8, h9⟩
    exact ⟨h1, h2, h3, h5, h4, h6, h7, h8, h9⟩

/-! ## Receiving a message -/

theorem zero_not_mem_encodeField {tag : List UInt8} (htag : (0 : UInt8) ∉ tag) (n : Nat)
    (s : Option (List UInt8)) : (0 : UInt8) ∉ encodeField tag n s := by
  cases s with
  | none => exact List.not_mem_nil
  | some s =>
    have hs : (0 : UInt8) ∉ (cstr s).take n := fun h => zero_not_mem_cstr s (List.mem_of_mem_take h)
    simp [encodeField, htag, hs, semicolon]

theorem Message.zero_not_mem_text (m : Message) : (0 : UInt8) ∉ m.text := by
  have hFlag : (0 : UInt8) ∉ encodeFlag m.fields.Flag := by
    cases h : m.Flag with
    | none => simp [fields, h, encodeFlag]
    | some c =>
      have hc := (m.Flag_value c h).2.1
      simpa [fields, h, encodeFlag, tagFlag, chars, semicolon] using hc
  have hCP : (0 : UInt8) ∉ encodeCP m.fields.CP := by
    show (0 : UInt8) ∉ encodeCP (some m.CP)
    have hcp := m.CP_value.1
    simp [encodeCP_eq hcp, hcp, tagCP, chars, ampersand]
  have hend : (0 : UInt8) ∉ m.frameEnd := by
    intro h
    rcases List.mem_append.mp h with h | h
    · exact absurd (mem_usCheck h) (by decide)
    · exact absurd h (by decide)
  have h1 := zero_not_mem_encodeField (by decide : (0 : UInt8) ∉ tagQN) 17 m.fields.QN
  have h2 := zero_not_mem_encodeField (by decide : (0 : UInt8) ∉ tagST) 5 m.fields.ST
  have h3 := zero_not_mem_encodeField (by decide : (0 : UInt8) ∉ tagCN) 4 m.fields.CN
  have h4 := zero_not_mem_encodeField (by decide : (0 : UInt8) ∉ tagPW) 6 m.fields.PW
  have h5 := zero_not_mem_encodeField (by decide : (0 : UInt8) ∉ tagMN) 14 m.fields.MN
  simp only [text, encodeData, List.mem_append, h1, h2, h3, h4, h5, hFlag, hCP, hend, or_self,
    not_false_eq_true]

/-- A frame that holds an end mark where one is looked for is cut there, and nothing that is
    passed on has its length. -/
theorem bytes_ne_of_early {beyond f : List UInt8} {j : Nat} (hj : j < f.length)
    (hlt : f.length < hjt212BufSize) (hpre : hjt212Pre <+: f)
    (hend : EndAt (hjt212Format beyond) (f.take j)) {p : Package}
    (hp : p ∈ (hjt212PutBytes (hjt212Open beyond) f).2) : p.bytes.length ≠ f.length := by
  classical
  have hex : ∃ i, EndAt (hjt212Format beyond) (f.take i) := ⟨j, hend⟩
  have hij := Nat.find_min' hex hend
  have hfirst := Nat.find_spec hex
  have hmin : ∀ i < Nat.find hex, ¬ EndAt (hjt212Format beyond) (f.take i) :=
    fun i hi => Nat.find_min hex hi
  generalize Nat.find hex = i at hij hfirst hmin
  have hlen : (f.take i).length = i := by
    rw [List.length_take]
    omega
  have h18 : 18 ≤ i := by
    have h := hfirst.2
    rw [hlen] at h
    exact le_trans h (Nat.mod_le _ _)
  have hpre' : hjt212Pre <+: f.take i := List.prefix_take_iff.mpr ⟨hpre, by
    have : hjt212Pre.length = 2 := rfl
    omega⟩
  have hno : ∀ k < (f.take i).length, ¬ EndAt (hjt212Format beyond) ((f.take i).take k) := by
    intro k hk
    rw [hlen] at hk
    rw [List.take_take, Nat.min_eq_left (by omega)]
    exact hmin k hk
  have hlt' : (f.take i).length < (hjt212Format beyond).size := by
    rw [hlen]
    exact lt_of_le_of_lt (by omega) hlt
  obtain ⟨s', hpos, -, hfired⟩ := putBytes_frame (s := hjt212Open beyond) rfl hpre' hfirst hno hlt'
  rw [hlen] at hpos
  unfold hjt212PutBytes at hp
  rw [← List.take_append_drop i f, Receiver.putBytes_append] at hp
  rcases List.mem_append.mp hp with hp | hp
  · rw [hfired.out] at hp
    rw [length_bytes s'.buf_length (by omega) s'.pos_lt hp]
    omega
  · obtain ⟨s'', hp', hmin', hle⟩ := mem_putBytes hp
    rw [hfired.pos, List.length_drop] at hle
    rw [length_bytes s''.buf_length hmin' s''.pos_lt hp']
    omega

theorem noCrLf_iff {l : List UInt8} : NoCrLf l ↔ ¬ hjt212Eom <:+: l := by
  refine ⟨fun h hin => not_noCrLf_of_infix hin h, fun h => ?_⟩
  refine List.isChain_iff_forall_rel_of_append_cons_cons.mpr ?_
  rintro a b l₁ l₂ rfl ⟨rfl, rfl⟩
  exact h ⟨l₁, l₂, by simp [hjt212Eom]⟩

theorem endAt_take_iff {beyond f : List UInt8} {j : Nat} (hj : j < f.length)
    (hlt : f.length < hjt212BufSize) :
    EndAt (hjt212Format beyond) (f.take j) ↔ hjt212Eom <:+ f.take j ∧ 18 ≤ j := by
  have hmod : (f.take j).length % (hjt212Format beyond).size = j := by
    rw [List.length_take, Nat.min_eq_left (by omega)]
    exact Nat.mod_eq_of_lt (by unfold hjt212BufSize at hlt; show j < 2048; omega)
  unfold EndAt
  rw [hmod]
  rfl

theorem Message.ten_le_encodeData (m : Message) : 10 ≤ (encodeData m.fields).length := by
  have hCP : (encodeCP m.fields.CP).length = 5 + m.CP.length + 2 := by
    show (encodeCP (some m.CP)).length = _
    rw [encodeCP_eq m.CP_value.1]
    simp only [List.length_append, List.length_cons, List.length_nil]
    have : tagCP.length = 5 := rfl
    omega
  have hST : (encodeField tagST 5 m.fields.ST).length = 3 + m.ST.length + 1 := by
    show (encodeField tagST 5 (some m.ST)).length = _
    rw [encodeField_value m.ST_value]
    simp only [List.length_append, List.length_cons, List.length_nil]
    have : tagST.length = 3 := rfl
    omega
  unfold encodeData
  simp only [List.length_append]
  omega

/-- The frame behind its first sixteen bytes. -/
theorem Message.drop_hjt212Encode (m : Message) :
    (hjt212Encode m.fields).drop 16 = (encodeData m.fields).drop 10 ++ m.frameEnd := by
  have h6 : (hjt212Pre ++ encodeLen (encodeData m.fields).length).length = 6 := rfl
  rw [hjt212Encode_eq, encodeFront, List.append_assoc, List.append_assoc, ← frameEnd,
    show (16 : Nat) = 6 + 10 from rfl, ← List.drop_drop, List.drop_left' h6,
    List.drop_append_of_le_length m.ten_le_encodeData]

/-- Without an end mark in the data there is none in front of the frame's last byte. -/
theorem Message.drop_clean (m : Message) (h : NoCrLf ((encodeData m.fields).drop 10)) :
    ∃ body, (hjt212Encode m.fields).drop 16 = body ++ [0x0a] ∧ NoCrLf body := by
  refine ⟨(encodeData m.fields).drop 10 ++ (usCheck (hjt212GetCrc16 (encodeData m.fields)
    (UInt32.ofNat (encodeData m.fields).length)) ++ [0x0d]), ?_, ?_⟩
  · rw [m.drop_hjt212Encode, frameEnd, List.append_assoc, List.append_assoc]
    rfl
  · refine h.append (NoCrLf.append ?_ (List.isChain_singleton _) (Or.inr (by decide))) ?_
    · exact noCrLf_of_not_mem fun h => absurd (mem_usCheck h) (by decide)
    · refine Or.inr fun h => ?_
      rcases List.mem_append.mp (List.mem_of_head? h) with h | h
      · exact absurd (mem_usCheck h) (by decide)
      · exact absurd h (by decide)

/-- A frame is cut early exactly if its data have an end mark behind the tenth byte. -/
theorem Message.early_iff (m : Message) (beyond : List UInt8)
    (hlt : (hjt212Encode m.fields).length < hjt212BufSize) :
    (∃ j < (hjt212Encode m.fields).length,
      EndAt (hjt212Format beyond) ((hjt212Encode m.fields).take j)) ↔
    ¬ NoCrLf ((encodeData m.fields).drop 10) := by
  constructor
  · rintro ⟨j, hj, hend⟩ hno
    obtain ⟨hsuf, h18⟩ := (endAt_take_iff hj hlt).mp hend
    obtain ⟨body, hbody, hclean⟩ := m.drop_clean hno
    -- the end mark is whole behind the first sixteen bytes
    have htail : hjt212Eom <:+ ((hjt212Encode m.fields).drop 16).take (j - 16) := by
      rw [← List.drop_take]
      refine List.suffix_of_suffix_length_le hsuf (List.drop_suffix 16 _) ?_
      rw [List.length_drop, List.length_take]
      show 2 ≤ _
      omega
    have hshort : (hjt212Encode m.fields).length - 16 = body.length + 1 := by
      rw [← List.length_drop, hbody, List.length_append, List.length_singleton]
    rw [hbody, List.take_append_of_le_length (by omega)] at htail
    exact not_noCrLf_of_infix (htail.isInfix.trans (List.take_prefix _ _).isInfix) hclean
  · intro hno
    rw [noCrLf_iff, not_not] at hno
    obtain ⟨u, v, huv⟩ := hno
    have hlen := length_hjt212Encode m.fields
    have hten := m.ten_le_encodeData
    have hjlt : 16 + u.length + 2 < (hjt212Encode m.fields).length := by
      have h := congrArg List.length huv
      simp only [List.length_append, List.length_drop] at h
      have : hjt212Eom.length = 2 := rfl
      omega
    refine ⟨16 + u.length + 2, hjlt, (endAt_take_iff hjlt hlt).mpr ⟨?_, by omega⟩⟩
    have htake : ((hjt212Encode m.fields).take (16 + u.length + 2)).drop 16 = u ++ hjt212Eom := by
      rw [List.drop_take, m.drop_hjt212Encode, ← huv, List.append_assoc (u ++ hjt212Eom)]
      refine List.take_left' ?_
      rw [List.length_append]
      show u.length + 2 = _
      omega
    exact (htake ▸ List.suffix_append u hjt212Eom).trans (List.drop_suffix 16 _)

/-! ## The round trip -/

/-- What a fresh receiver passes on for a frame that fits and is not cut early. -/
theorem Message.hjt212PutBytes_out (m : Message) (beyond : List UInt8)
    (hlt : (hjt212Encode m.fields).length < hjt212BufSize)
    (hno : NoCrLf ((encodeData m.fields).drop 10)) :
    ∃ p, (hjt212PutBytes (hjt212Open beyond) (hjt212Encode m.fields)).2 = [p] ∧
      p.bytes = hjt212Encode m.fields ∧ cstr p.pData = m.text := by
  have hearly : ∀ j < (hjt212Encode m.fields).length,
      ¬ EndAt (hjt212Format beyond) ((hjt212Encode m.fields).take j) := fun j hj hend =>
    (m.early_iff beyond hlt).mp ⟨j, hj, hend⟩ hno
  have hend : EndAt (hjt212Format beyond) (hjt212Encode m.fields) := by
    refine ⟨⟨encodeFront m.fields, rfl⟩, ?_⟩
    have hmod : (hjt212Encode m.fields).length % (hjt212Format beyond).size =
        (hjt212Encode m.fields).length := Nat.mod_eq_of_lt hlt
    have hlen := length_hjt212Encode m.fields
    have hten := m.ten_le_encodeData
    rw [hmod]
    show 18 ≤ _
    omega
  obtain ⟨s', hpos, hbuf, hfired⟩ :=
    putBytes_frame (s := hjt212Open beyond) rfl (hjt212Encode_front _) hend
    hearly hlt
  have hout := hfired.out
  rw [hbuf, hpos] at hout
  have hframe := congrArg Prod.snd (hjt212Frame_hjt212Encode beyond
    ((hjt212Open beyond).buf.drop (hjt212Encode m.fields).length) m.fields hlt)
  refine ⟨_, hout.trans hframe, bytes_package_hjt212Encode beyond _ hlt, ?_⟩
  have htext : ∀ z, encodeData m.fields ++ (usCheck (hjt212GetCrc16 (encodeData m.fields)
      (UInt32.ofNat (encodeData m.fields).length)) ++ (hjt212Eom ++ z)) = m.text ++ z := fun z => by
    simp only [text, frameEnd, List.append_assoc]
  -- the byte behind the frame is still zero
  rw [package_hjt212Encode, drop_hjt212Open beyond hlt]
  dsimp only
  rw [htext, List.cons_append, cstr_append_zero, cstr_of_not_mem m.zero_not_mem_text]

theorem Message.roundTrip_iff (m : Message) (beyond cfgPW : List UInt8) :
    RoundTrip beyond cfgPW m ↔ (hjt212Encode m.fields).length < hjt212BufSize ∧
      NoCrLf ((encodeData m.fields).drop 10) ∧ (parseData m.text).texts = m.texts := by
  constructor
  · rintro ⟨p, hout, hbytes, htexts⟩
    have hmem : p ∈ (hjt212PutBytes (hjt212Open beyond) (hjt212Encode m.fields)).2 := by
      rw [hout]
      exact List.mem_cons_self
    obtain ⟨s', hp, hmin, -⟩ := mem_putBytes hmem
    have hlen := length_bytes s'.buf_length hmin s'.pos_lt hp
    rw [hbytes] at hlen
    have hlt : (hjt212Encode m.fields).length < hjt212BufSize := by
      rw [hlen]
      exact s'.pos_lt
    have hno : NoCrLf ((encodeData m.fields).drop 10) := by
      by_contra hno
      obtain ⟨j, hj, hend⟩ := (m.early_iff beyond hlt).mpr hno
      exact bytes_ne_of_early hj hlt (hjt212Encode_front _) hend hmem (by rw [hbytes])
    obtain ⟨q, hq, -, hdata⟩ := m.hjt212PutBytes_out beyond hlt hno
    obtain rfl : p = q := by
      rw [hout] at hq
      exact List.head_eq_of_cons_eq hq
    rw [parsePack_fst, hdata] at htexts
    exact ⟨hlt, hno, htexts⟩
  · rintro ⟨hlt, hno, htexts⟩
    obtain ⟨p, hout, hbytes, hdata⟩ := m.hjt212PutBytes_out beyond hlt hno
    refine ⟨p, hout, hbytes, ?_⟩
    rw [parsePack_fst, hdata]
    exact htexts

/-- A message survives encoding, receiving and parsing if and only if it is unambiguous. -/
theorem hjt212_roundTrip (beyond cfgPW : List UInt8) (m : Message) :
    RoundTrip beyond cfgPW m ↔ m.Unambiguous := by
  rw [m.roundTrip_iff, m.parseData_iff]

/-- A report of one sensor without Flag, as the gateway sends it. -/
def sensorReport : Message where
  QN := none
  ST := chars ['3', '2']
  CN := chars ['2', '0', '1', '1']
  PW := chars ['1', '2', '3', '4', '5', '6']
  MN := chars ['0', '1']
  Flag := none
  CP := chars ['D', 'a', 't', 'a', 'T', 'i', 'm', 'e', '=', '1', ';', 'a', '-', 'R', 't', 'd', '=',
    '7', ',', 'a', '-', 'F', 'l', 'a', 'g', '=', 'N']
  QN_value := by simp
  ST_value := by unfold Value; decide
  CN_value := by unfold Value; decide
  PW_value := by unfold Value; decide
  MN_value := by unfold Value; decide
  Flag_value := by simp
  CP_value := by decide

/-- The sensor's flag in CP is taken for the Flag of the message. -/
theorem sensorReport_flag : ¬ ∀ m : Message, RoundTrip [] [] m := by
  intro h
  have hunamb := sensorReport.parseData_iff.mpr ((sensorReport.roundTrip_iff [] []).mp (h sensorReport))
  have hflag : ∀ y ∈ behind tagFlag sensorReport.CP, y.head? = some semicolon := hunamb.Flag
  have hN : behind tagFlag sensorReport.CP = some (chars ['N']) := by decide
  exact absurd (hflag _ hN) (by decide)

end K64Gateway.Hjt212
