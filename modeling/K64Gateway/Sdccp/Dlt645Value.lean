import K64Gateway.Lib.Strtod
import K64Gateway.Sdccp.Dlt645

/-
  The numbers of `vPraseData` in exact arithmetic: `DataToDouble` and `__DataToDouble` write the
  bytes of a data field, each less 0x33, as hexadecimal digits into a text and read it with `atof`.

  `__DataToDouble` asks for the sign with `&&` where it takes it off with `&`, so every field whose
  last byte is not 0 is negative; the second reactive group is never read with its sign. Proved:
  for every identifier that carries a sign, exactly which fields are decoded right
  (`decodes_iff`).
-/

namespace K64Gateway.Dlt645

open CString Strtod

/-! ## The texts -/

/-- `%02x` of a byte. -/
def hexDigitx (n : UInt8) : UInt8 := if n < 10 then 48 + n else 87 + n

def hex02x (b : UInt8) : List UInt8 := [hexDigitx (b / 16), hexDigitx (b % 16)]

/-- `pData[i] = pData[i] - 0x33` -/
def unmask (pData : List UInt8) : List UInt8 := pData.map (· - 0x33)

/-- `sprintf(datas,"%02x..",pData[len-1],..,pData[0])` for one to four bytes; for others `datas`
    stays empty. -/
def hexText (pData : List UInt8) : List UInt8 :=
  if 1 ≤ pData.length ∧ pData.length ≤ 4 then pData.reverse.flatMap hex02x else []

/-- `DataToDouble` -/
def dataToDouble (pData : List UInt8) : ℚ := strtod (hexText (unmask pData))

/-- The bytes with the sign bit of the last one taken off, `pData[len-1]&0x7f`. -/
def dropSign (pData : List UInt8) : List UInt8 :=
  pData.modify (pData.length - 1) (· &&& 0x7f)

/-- `__DataToDouble`: a minus where `pData[len-1] && 0x80`. -/
def signedToDouble (pData : List UInt8) : ℚ :=
  let data := unmask pData
  strtod ((if data.getD (data.length - 1) 0 ≠ 0 then [45] else []) ++ hexText (dropSign data))

/-- The numbers of `vPraseData`, without rounding. -/
def exactDecoder : Decoder ℚ where
  dataToDouble := dataToDouble
  signedToDouble := signedToDouble
  div x n := x / n

/-! ## The identifiers that carry a sign -/

/-- The total active energy, the two total reactive energies, the currents and the powers. -/
inductive Group where
  | active
  | reactive1
  | reactive2
  | current
  | power
deriving DecidableEq

/-- The identifiers, from the first to the last one. -/
def Group.marks : Group → UInt32 × UInt32
  | active => (0x00000000, 0x00000400)
  | reactive1 => (0x00030000, 0x00030400)
  | reactive2 => (0x00040000, 0x00040400)
  | current => (0x02020100, 0x0202FF00)
  | power => (0x02030000, 0x0205FF00)

/-- The bytes of a field. -/
def Group.len : Group → Nat
  | active | reactive1 | reactive2 => 4
  | current | power => 3

/-- What the number is divided by. -/
def Group.scale : Group → Nat
  | active | reactive1 | reactive2 => 100
  | current => 1000
  | power => 10000

/-- Two decimal digits. -/
def Bcd (b : UInt8) : Prop := b / 16 < 10 ∧ b % 16 < 10

def bcdValue (b : UInt8) : Nat := 10 * (b / 16).toNat + (b % 16).toNat

/-- A data field of an identifier with a sign: the digits, the low ones first, and the top byte with
    the sign in its highest bit, all offset by 0x33. -/
structure SignedField where
  mark : UInt32
  group : Group
  low : List UInt8
  top : UInt8
  mark_ge : group.marks.1 ≤ mark
  mark_le : mark ≤ group.marks.2
  length_low : low.length + 1 = group.len
  bcd_low : ∀ b ∈ low, Bcd b
  bcd_top : Bcd (top &&& 0x7f)

/-- The bytes as they are received. -/
def SignedField.pData (x : SignedField) : List UInt8 := (x.low ++ [x.top]).map (· + 0x33)

/-- The sign bit. -/
def SignedField.negative (x : SignedField) : Prop := 0x80 ≤ x.top

instance (x : SignedField) : Decidable x.negative := inferInstanceAs (Decidable (_ ≤ _))

/-- The number of the digits, the bytes from the highest to the lowest. -/
def magnitude (bytes : List UInt8) : Nat := bytes.foldr (fun b n => bcdValue b + 100 * n) 0

/-- The number that the field stands for. -/
def SignedField.value (x : SignedField) : ℚ :=
  (if x.negative then -1 else 1) * (magnitude (x.low ++ [x.top &&& 0x7f]) : ℚ) / x.group.scale

/-- The field is decoded to its number. -/
def SignedField.Decodes (x : SignedField) : Prop :=
  vPraseData exactDecoder x.pData x.mark = some x.value

/-- Where the second reactive group is not negative, and the others are negative or have two zeros
    in front. -/
def SignedField.SignRead (x : SignedField) : Prop :=
  match x.group with
  | .reactive2 => ¬ x.negative
  | _ => x.negative ∨ x.top = 0

/-! ## Decimal digits -/

theorem hexDigitx_of_lt {n : UInt8} (h : n < 10) :
    isDigit (hexDigitx n) = true ∧ (hexDigitx n).toNat - 48 = n.toNat := by
  have hlt : n.toNat < 10 := UInt8.lt_iff_toNat_lt.mp h
  have hval : (48 + n).toNat = 48 + n.toNat := by
    rw [UInt8.toNat_add]
    exact Nat.mod_eq_of_lt (by show 48 + n.toNat < 256; omega)
  unfold hexDigitx isDigit
  rw [if_pos h, Bool.and_eq_true, decide_eq_true_eq, decide_eq_true_eq, UInt8.le_iff_toNat_le,
    UInt8.le_iff_toNat_le, hval]
  refine ⟨⟨?_, ?_⟩, ?_⟩
  · show 48 ≤ 48 + n.toNat
    omega
  · show 48 + n.toNat ≤ 57
    omega
  · omega

theorem hex02x_of_bcd {b : UInt8} (h : Bcd b) :
    (∀ c ∈ hex02x b, isDigit c = true) ∧ ofDigits (hex02x b) = bcdValue b := by
  obtain ⟨hdiv, hval⟩ := hexDigitx_of_lt h.1
  obtain ⟨hmod, hval'⟩ := hexDigitx_of_lt h.2
  constructor
  · intro c hc
    simp only [hex02x, List.mem_cons, List.not_mem_nil, or_false] at hc
    rcases hc with rfl | rfl
    · exact hdiv
    · exact hmod
  · have hcut : hex02x b = [hexDigitx (b / 16)] ++ [hexDigitx (b % 16)] := rfl
    rw [hcut, ofDigits_append, ofDigits_singleton, ofDigits_singleton, hval, hval', bcdValue,
      List.length_singleton, pow_one, Nat.mul_comm]

/-- The text of decimal digits is their number. -/
theorem hexText_of_bcd {bytes : List UInt8} (h : ∀ b ∈ bytes, Bcd b) :
    (∀ c ∈ bytes.reverse.flatMap hex02x, isDigit c = true) ∧
      ofDigits (bytes.reverse.flatMap hex02x) = magnitude bytes := by
  induction bytes with
  | nil => exact ⟨nofun, rfl⟩
  | cons b bytes ih =>
    obtain ⟨hdigits, hval⟩ := ih fun c hc => h c (List.mem_cons_of_mem b hc)
    obtain ⟨hdigits', hval'⟩ := hex02x_of_bcd (h b List.mem_cons_self)
    rw [List.reverse_cons, List.flatMap_append, List.flatMap_singleton]
    constructor
    · intro c hc
      rcases List.mem_append.mp hc with hc | hc
      · exact hdigits c hc
      · exact hdigits' c hc
    · have h2 : (hex02x b).length = 2 := rfl
      rw [ofDigits_append, hval, hval', h2]
      show magnitude bytes * 10 ^ 2 + bcdValue b = bcdValue b + 100 * magnitude bytes
      omega

theorem magnitude_append (bytes : List UInt8) (b : UInt8) :
    magnitude (bytes ++ [b]) = magnitude bytes + 100 ^ bytes.length * bcdValue b := by
  induction bytes with
  | nil => simp [magnitude]
  | cons c bytes ih =>
    show bcdValue c + 100 * magnitude (bytes ++ [b]) = _
    rw [ih, List.length_cons, pow_succ]
    show _ = bcdValue c + 100 * magnitude bytes + _
    ring

theorem bcdValue_pos {b : UInt8} (h : b ≠ 0) : 0 < bcdValue b := by
  have hne : b.toNat ≠ 0 := fun h0 => h (UInt8.toNat_inj.mp h0)
  have hdiv : (b / 16).toNat = b.toNat / 16 := UInt8.toNat_div b 16
  have hmod : (b % 16).toNat = b.toNat % 16 := UInt8.toNat_mod b 16
  unfold bcdValue
  omega

theorem magnitude_pos (bytes : List UInt8) {b : UInt8} (h : b ≠ 0) :
    0 < magnitude (bytes ++ [b]) := by
  rw [magnitude_append]
  have hpow : 0 < 100 ^ bytes.length := Nat.pow_pos (by decide)
  have := Nat.mul_pos hpow (bcdValue_pos h)
  omega

/-- The texts of a field of decimal digits, with and without a minus. -/
theorem strtod_hexText {low : List UInt8} {t : UInt8} (hlen : low.length + 1 ≤ 4)
    (hlow : ∀ b ∈ low, Bcd b) (ht : Bcd t) :
    strtod (hexText (low ++ [t])) = magnitude (low ++ [t]) ∧
      strtod ([45] ++ hexText (low ++ [t])) = -(magnitude (low ++ [t]) : ℚ) := by
  have hall : ∀ b ∈ low ++ [t], Bcd b := by
    intro b hb
    rcases List.mem_append.mp hb with hb | hb
    · exact hlow b hb
    · rw [List.mem_singleton.mp hb]
      exact ht
  obtain ⟨hdigits, hval⟩ := hexText_of_bcd hall
  have htext : hexText (low ++ [t]) = (low ++ [t]).reverse.flatMap hex02x := by
    unfold hexText
    rw [if_pos]
    rw [List.length_append, List.length_singleton]
    omega
  have hunsigned : unsigned (hexText (low ++ [t])) = magnitude (low ++ [t]) := by
    rw [htext, ← hval, ← unsigned_whole hdigits stops_nil (by simp), List.append_nil]
  obtain ⟨c, s, hc⟩ : ∃ c s, hexText (low ++ [t]) = c :: s := by
    rw [htext, List.reverse_append]
    exact ⟨_, _, rfl⟩
  have hcdigit : isDigit c = true := hdigits c (by rw [← htext, hc]; exact List.mem_cons_self)
  constructor
  · rw [← hunsigned, hc]
    exact strtod_of_digit hcdigit s
  · rw [← hunsigned]
    rfl

/-- No text of bytes begins with a sign. -/
theorem strtod_hexText_nonneg (bytes : List UInt8) : 0 ≤ strtod (hexText bytes) := by
  have hhead : ∀ b : UInt8, isSpace (hexDigitx (b / 16)) = false ∧ hexDigitx (b / 16) ≠ 45 ∧
      hexDigitx (b / 16) ≠ 43 := by
    intro b
    have hall : ∀ n < 16, isSpace (hexDigitx (UInt8.ofNat n)) = false ∧
        hexDigitx (UInt8.ofNat n) ≠ 45 ∧ hexDigitx (UInt8.ofNat n) ≠ 43 := by decide
    have hlt : (b / 16).toNat < 16 := by
      rw [UInt8.toNat_div]
      exact Nat.div_lt_of_lt_mul b.toNat_lt
    have := hall _ hlt
    rwa [UInt8.ofNat_toNat] at this
  unfold hexText
  split
  · cases hr : bytes.reverse with
    | nil => exact le_refl 0
    | cons b rest =>
      obtain ⟨hspace, hminus, hplus⟩ := hhead b
      show 0 ≤ strtod (hexDigitx (b / 16) :: hexDigitx (b % 16) :: rest.flatMap hex02x)
      unfold strtod
      rw [List.dropWhile_cons_of_neg (by rw [hspace]; simp)]
      simp only [List.head?_cons, Option.some.injEq, hminus, hplus, if_false]
      exact unsigned_nonneg _
  · exact le_refl 0

/-! ## The decoded numbers -/

namespace SignedField

variable (x : SignedField)

theorem unmask_pData : unmask x.pData = x.low ++ [x.top] := by
  unfold unmask pData
  rw [List.map_map]
  conv_rhs => rw [← List.map_id (x.low ++ [x.top])]
  refine List.map_congr_left fun b _ => ?_
  exact UInt8.add_sub_cancel b 0x33

theorem length_pData : x.pData.length = x.group.len := by
  unfold pData
  rw [List.length_map, List.length_append, List.length_singleton, x.length_low]

theorem len_le : x.group.len ≤ 4 := by
  cases x.group <;> decide

/-- What `vPraseData` divides. -/
def raw : ℚ :=
  match x.group with
  | .reactive2 => dataToDouble x.pData
  | _ => signedToDouble x.pData

theorem vPraseData_group {V : Type} (dec : Decoder V) :
    vPraseData dec x.pData x.mark = some (dec.div (match x.group with
      | .reactive2 => dec.dataToDouble x.pData
      | _ => dec.signedToDouble x.pData) x.group.scale) := by
  have hlen := x.length_pData
  have hge := UInt32.le_iff_toNat_le.mp x.mark_ge
  have hle := UInt32.le_iff_toNat_le.mp x.mark_le
  unfold vPraseData
  simp only [hlen, UInt32.le_iff_toNat_le, UInt32.reduceToNat]
  generalize x.group = g at hge hle ⊢
  generalize x.mark.toNat = m at hge hle ⊢
  generalize dec.dataToDouble x.pData = unsigned
  generalize dec.signedToDouble x.pData = signed
  cases g
  all_goals simp only [Group.marks, Group.len, Group.scale, UInt32.reduceToNat] at hge hle ⊢
  case active => rw [if_neg (by omega), if_pos (by omega), if_pos trivial, if_pos (.inl hle)]
  case reactive1 =>
    rw [if_neg (by omega), if_pos (by omega), if_pos trivial, if_pos (.inr (.inl ⟨hge, hle⟩))]
  case reactive2 => rw [if_neg (by omega), if_pos (by omega), if_pos trivial, if_neg (by omega)]
  case current =>
    rw [if_neg (by omega), if_neg (by omega), if_neg (by omega), if_pos ⟨hge, hle⟩, if_pos trivial]
  case power =>
    rw [if_neg (by omega), if_neg (by omega), if_neg (by omega), if_neg (by omega),
      if_pos ⟨hge, hle⟩, if_pos trivial]

theorem vPraseData_eq : vPraseData exactDecoder x.pData x.mark = some (x.raw / x.group.scale) := by
  rw [x.vPraseData_group]
  unfold raw
  cases x.group <;> rfl

theorem raw_reactive2 (h : x.group = .reactive2) :
    x.raw = strtod (hexText (x.low ++ [x.top])) := by
  unfold raw
  rw [h]
  show strtod (hexText (unmask x.pData)) = _
  rw [x.unmask_pData]

theorem raw_signed (h : x.group ≠ .reactive2) :
    x.raw = strtod ((if x.top ≠ 0 then [45] else []) ++
      hexText (x.low ++ [x.top &&& 0x7f])) := by
  have hraw : x.raw = signedToDouble x.pData := by
    unfold raw
    cases hg : x.group
    all_goals first | rfl | exact absurd hg h
  have hlen : (x.low ++ [x.top]).length - 1 = x.low.length := by
    rw [List.length_append, List.length_singleton, Nat.add_sub_cancel]
  have htop : (x.low ++ [x.top]).getD x.low.length 0 = x.top := by
    rw [List.getD_eq_getElem?_getD, List.getElem?_append_right (Nat.le_refl _), Nat.sub_self]
    rfl
  have hdrop : dropSign (x.low ++ [x.top]) = x.low ++ [x.top &&& 0x7f] := by
    unfold dropSign
    rw [hlen, List.modify_eq_take_drop, List.take_left, List.drop_left]
    rfl
  rw [hraw]
  unfold signedToDouble
  dsimp only
  rw [x.unmask_pData, hlen, htop, hdrop]

/-- The field is decoded to its number if the two are equal before the division. -/
theorem decodes_iff_raw : x.Decodes ↔
    x.raw = (if x.negative then -1 else 1) * (magnitude (x.low ++ [x.top &&& 0x7f]) : ℚ) := by
  have hscale : (x.group.scale : ℚ) ≠ 0 := by
    cases x.group <;> simp [Group.scale]
  unfold Decodes value
  rw [x.vPraseData_eq, Option.some.injEq]
  exact div_left_inj' hscale

end SignedField

/-- The digits of a byte without its sign bit. -/
theorem sign_off (t : UInt8) : (¬ 0x80 ≤ t → t &&& 0x7f = t) ∧
    (0x80 ≤ t → t &&& 0x7f = 0 → t = 0x80) := by
  have hall : ∀ n < 256, (¬ 0x80 ≤ UInt8.ofNat n → UInt8.ofNat n &&& 0x7f = UInt8.ofNat n) ∧
      (0x80 ≤ UInt8.ofNat n → UInt8.ofNat n &&& 0x7f = 0 → UInt8.ofNat n = 0x80) := by
    decide +kernel
  have := hall t.toNat t.toNat_lt
  rwa [UInt8.ofNat_toNat] at this

theorem decodes_iff (x : SignedField) : x.Decodes ↔ x.SignRead := by
  have hlen : x.low.length + 1 ≤ 4 := by
    rw [x.length_low]
    exact x.len_le
  obtain ⟨hpos, hneg⟩ := strtod_hexText hlen x.bcd_low x.bcd_top
  obtain ⟨hoff, hoff'⟩ := sign_off x.top
  rw [x.decodes_iff_raw]
  by_cases hg : x.group = .reactive2
  · have hread : x.SignRead ↔ ¬ x.negative := by
      unfold SignedField.SignRead
      rw [hg]
    rw [hread, x.raw_reactive2 hg]
    by_cases hn : x.negative
    · -- the number that is read is not negative, and not 0 where the digits are
      refine iff_of_false (fun heq => ?_) (not_not.mpr hn)
      rw [if_pos hn] at heq
      have hnonneg := strtod_hexText_nonneg (x.low ++ [x.top])
      have hmag : (0 : ℚ) ≤ magnitude (x.low ++ [x.top &&& 0x7f]) := Nat.cast_nonneg _
      by_cases hzero : x.top &&& 0x7f = 0
      · have htop := hoff' hn hzero
        have hread := (strtod_hexText (t := x.top) hlen x.bcd_low (by
          rw [htop]
          exact ⟨by decide, by decide⟩)).1
        have hposMag : (0 : ℚ) < magnitude (x.low ++ [x.top]) :=
          Nat.cast_pos.mpr (magnitude_pos x.low (by rw [htop]; decide))
        rw [hread] at heq
        linarith
      · have hposMag : (0 : ℚ) < magnitude (x.low ++ [x.top &&& 0x7f]) :=
          Nat.cast_pos.mpr (magnitude_pos x.low hzero)
        linarith
    · refine iff_of_true ?_ hn
      rw [if_neg hn, one_mul, ← hpos, hoff hn]
  · have hread : x.SignRead ↔ x.negative ∨ x.top = 0 := by
      unfold SignedField.SignRead
      cases hgroup : x.group
      all_goals first | rfl | exact absurd hgroup hg
    rw [hread, x.raw_signed hg]
    by_cases hz : x.top = 0
    · have hn : ¬ x.negative := by
        unfold SignedField.negative
        rw [hz]
        decide
      refine iff_of_true ?_ (.inr hz)
      rw [if_neg (not_not.mpr hz), if_neg hn, one_mul, List.nil_append, hpos]
    · rw [if_pos hz, hneg]
      by_cases hn : x.negative
      · refine iff_of_true ?_ (.inl hn)
        rw [if_pos hn, neg_one_mul]
      · refine iff_of_false (fun heq => ?_) (fun h => h.elim hn hz)
        have hposMag : (0 : ℚ) < magnitude (x.low ++ [x.top &&& 0x7f]) :=
          Nat.cast_pos.mpr (magnitude_pos x.low (by rw [hoff hn]; exact hz))
        rw [if_neg hn, one_mul] at heq
        linarith

/-- A current of 123.456 A, without the sign bit. -/
def forwardCurrent : SignedField where
  mark := 0x02020100
  group := .current
  low := [0x56, 0x34]
  top := 0x12
  mark_ge := by decide
  mark_le := by decide
  length_low := rfl
  bcd_low := by
    intro b hb
    simp only [List.mem_cons, List.not_mem_nil, or_false] at hb
    rcases hb with rfl | rfl
    · exact ⟨by decide, by decide⟩
    · exact ⟨by decide, by decide⟩
  bcd_top := ⟨by decide, by decide⟩

/-- It is decoded to -123.456 A. -/
theorem forwardCurrent_negative : ¬ ∀ x : SignedField, x.Decodes := by
  intro h
  have heq := forwardCurrent.decodes_iff_raw.mp (h forwardCurrent)
  have hneg : strtod ([45] ++ hexText ([0x56, 0x34] ++ [0x12])) =
      -(magnitude ([0x56, 0x34] ++ [0x12]) : ℚ) :=
    (strtod_hexText (by decide) forwardCurrent.bcd_low ⟨by decide, by decide⟩).2
  have hraw : forwardCurrent.raw = strtod ([45] ++ hexText ([0x56, 0x34] ++ [0x12])) :=
    forwardCurrent.raw_signed (by decide)
  have hsign : ¬ forwardCurrent.negative := by decide
  have hmag : magnitude ([0x56, 0x34] ++ [0x12]) = 123456 := rfl
  have hmag' : magnitude (forwardCurrent.low ++ [forwardCurrent.top &&& 0x7f]) = 123456 := rfl
  rw [hraw, hneg, if_neg hsign, hmag, hmag'] at heq
  norm_num at heq

end K64Gateway.Dlt645
