import Mathlib

/-
  The conversion of a filtered value to mA in `vGetAdcValue` of `drivers/ad7689/ad7689.c`, over
  exact rationals.

  Two lines meet at the middle point of the calibration, but one is left for the other at the code
  32768, which is the middle point of the default calibration alone. Values in front of the gate at
  4 mA are 0, also where the line is below 0 behind it.

  Proved: the conversion is monotone exactly if the lines do not fall at 32768 and the first code
  behind the gate does not lie before the zero of its line (`fMeasure_monotone_iff`).
-/

namespace K64Gateway.AdcConvert

/-! ## The conversion -/

/-- `eRangeType_t` -/
inductive RangeType where
  | range4_20MA
  | range0_20MA
  | range0_5V
  | range1_5V
deriving DecidableEq

/-- `s_CalValue_t` -/
structure CalValue where
  fMeterValue : ℚ
  usAdcValue : Int

/-- `s_CalEntry_t`, without the factor, which is not used. -/
structure CalEntry where
  xMin : CalValue
  xMiddle : CalValue
  xMax : CalValue

/-- `s_AdcValue_t` -/
structure AdcValue where
  usEngUnit : Int
  fMeasure : ℚ
  usBinaryUnit : Int
  fPercentUnit : ℚ
  fMeterUnit : ℚ

/-- The value that is below 4 mA by the middle point. -/
def Gated (cal : CalEntry) (usAdcVal : Nat) : Prop :=
  (usAdcVal : ℚ) < cal.xMiddle.usAdcValue / cal.xMiddle.fMeterValue * 4

instance decidableGated (cal : CalEntry) (usAdcVal : Nat) : Decidable (Gated cal usAdcVal) :=
  inferInstanceAs (Decidable (_ < _))

/-- The first `switch`. -/
def gate (eHardwareRangeType eSoftwareType : RangeType) (cal : CalEntry) (usAdcVal : Nat) : Nat :=
  if eSoftwareType = .range4_20MA ∧ eHardwareRangeType = .range0_20MA ∧ Gated cal usAdcVal then 0
  else usAdcVal

/-- The line through two points of the calibration, with the difference to the first one taken
    from the larger of both codes. -/
def piece (first second : CalValue) (usAdcVal : Nat) : ℚ :=
  if first.usAdcValue ≤ usAdcVal then
    let TmpVal : ℚ := (usAdcVal : ℚ) - first.usAdcValue
    first.fMeterValue + TmpVal * (second.fMeterValue - first.fMeterValue) /
      (second.usAdcValue - first.usAdcValue)
  else
    let TmpVal : ℚ := first.usAdcValue - (usAdcVal : ℚ)
    first.fMeterValue - TmpVal * (second.fMeterValue - first.fMeterValue) /
      (second.usAdcValue - first.usAdcValue)

/-- `fMeterVal` for `Range_4_20MA`. -/
def meterVal (cal : CalEntry) (usAdcVal : Nat) : ℚ :=
  if 0 < usAdcVal ∧ usAdcVal ≤ 32768 then piece cal.xMin cal.xMiddle usAdcVal
  else if 32768 < usAdcVal then piece cal.xMiddle cal.xMax usAdcVal
  else 0

/-- `vGetAdcValue` from the filtered value on. -/
def vGetAdcValue (eHardwareRangeType eSoftwareType : RangeType) (ext_min ext_max factor : ℚ)
    (cal : CalEntry) (usAdcVal : Nat) (pVal : AdcValue) : AdcValue :=
  let usAdcVal := gate eHardwareRangeType eSoftwareType cal usAdcVal
  let pVal := { pVal with usEngUnit := usAdcVal, usBinaryUnit := usAdcVal }
  match eSoftwareType with
  | .range4_20MA =>
      let fMeterVal := meterVal cal usAdcVal
      if 4 ≤ fMeterVal then
        { pVal with
          fMeasure := fMeterVal
          fPercentUnit := (fMeterVal - 4) / (20 - 4)
          fMeterUnit := (ext_max - ext_min) * (fMeterVal - 4) / (20 - 4) + ext_min + factor }
      else
        { pVal with
          fMeasure := fMeterVal
          fPercentUnit := 0
          fMeterUnit := ext_min + factor }
  | .range0_20MA => pVal
  | .range0_5V => pVal
  | .range1_5V => pVal

/-! ## Calibrations -/

/-- A calibration whose points ascend. -/
structure Calibration extends CalEntry where
  adc_low : xMin.usAdcValue < xMiddle.usAdcValue
  adc_high : xMiddle.usAdcValue < xMax.usAdcValue
  meter_low : xMin.fMeterValue < xMiddle.fMeterValue
  meter_high : xMiddle.fMeterValue < xMax.fMeterValue
  meter_nonneg : 0 ≤ xMin.fMeterValue

/-- mA per code between two points. -/
def slope (first second : CalValue) : ℚ :=
  (second.fMeterValue - first.fMeterValue) / (second.usAdcValue - first.usAdcValue)

/-- The code at which the line through two points is at 0 mA. -/
def zeroCode (first second : CalValue) : ℚ :=
  first.usAdcValue - first.fMeterValue / slope first second

/-- The two points whose line is taken for a code. -/
def points (cal : CalEntry) (usAdcVal : Nat) : CalValue × CalValue :=
  if usAdcVal ≤ 32768 then (cal.xMin, cal.xMiddle) else (cal.xMiddle, cal.xMax)

/-- The upper line is not below the lower one where it takes its place. -/
def JoinOk (cal : CalEntry) : Prop :=
  ¬ Gated cal 32768 →
    (32768 - cal.xMiddle.usAdcValue) * slope cal.xMin cal.xMiddle ≤
      (32769 - cal.xMiddle.usAdcValue) * slope cal.xMiddle cal.xMax

/-- The first code that passes the gate does not lie before the zero of its line. -/
def GateOk (cal : CalEntry) : Prop :=
  ∀ c : Nat, 1 ≤ c → c < 65535 → Gated cal c → ¬ Gated cal (c + 1) →
    zeroCode (points cal (c + 1)).1 (points cal (c + 1)).2 ≤ ((c + 1 : Nat) : ℚ)

/-! ## Lines -/

/-- Two points that ascend. -/
structure Ascends (first second : CalValue) : Prop where
  adc : first.usAdcValue < second.usAdcValue
  meter : first.fMeterValue < second.fMeterValue

section
variable {first second : CalValue}

theorem piece_eq (usAdcVal : Nat) :
    piece first second usAdcVal =
      first.fMeterValue + ((usAdcVal : ℚ) - first.usAdcValue) * slope first second := by
  unfold piece slope
  dsimp only
  split <;> ring

theorem slope_pos (h : Ascends first second) : 0 < slope first second := by
  have hadc : (first.usAdcValue : ℚ) < second.usAdcValue := by exact_mod_cast h.adc
  exact div_pos (sub_pos.mpr h.meter) (sub_pos.mpr hadc)

/-- The second point lies on the line. -/
theorem second_on_line (h : Ascends first second) :
    second.fMeterValue = first.fMeterValue +
      (second.usAdcValue - first.usAdcValue) * slope first second := by
  have hadc : (first.usAdcValue : ℚ) < second.usAdcValue := by exact_mod_cast h.adc
  rw [slope, mul_div_cancel₀ _ (sub_ne_zero.mpr hadc.ne')]
  ring

theorem piece_le_succ (h : Ascends first second) (c : Nat) :
    piece first second c ≤ piece first second (c + 1) := by
  have hslope := slope_pos h
  rw [piece_eq, piece_eq]
  push_cast
  nlinarith

theorem zero_le_piece_iff (h : Ascends first second) (c : Nat) :
    0 ≤ piece first second c ↔ zeroCode first second ≤ c := by
  have hslope := slope_pos h
  rw [piece_eq, zeroCode, sub_le_comm, le_div_iff₀ hslope]
  constructor
  · intro hpiece
    linarith
  · intro hzero
    linarith

end

/-! ## From one code to the next -/

/-- The measured value for a filtered value, at a hardware range of 0 to 20 mA. -/
def measured (cal : CalEntry) (usAdcVal : Nat) : ℚ :=
  if Gated cal usAdcVal then 0
  else piece (points cal usAdcVal).1 (points cal usAdcVal).2 usAdcVal

theorem fMeasure_eq (ext_min ext_max factor : ℚ) (cal : CalEntry) {usAdcVal : Nat}
    (hpos : 1 ≤ usAdcVal) (pVal : AdcValue) :
    (vGetAdcValue .range0_20MA .range4_20MA ext_min ext_max factor cal usAdcVal pVal).fMeasure =
      measured cal usAdcVal := by
  have hvalue : (vGetAdcValue .range0_20MA .range4_20MA ext_min ext_max factor cal usAdcVal
      pVal).fMeasure = meterVal cal (gate .range0_20MA .range4_20MA cal usAdcVal) := by
    unfold vGetAdcValue
    dsimp only
    split <;> rfl
  rw [hvalue, gate, measured]
  by_cases hgated : Gated cal usAdcVal
  · rw [if_pos ⟨rfl, rfl, hgated⟩, if_pos hgated]
    rfl
  · rw [if_neg fun h => hgated h.2.2, if_neg hgated, meterVal, points]
    by_cases hlow : usAdcVal ≤ 32768
    · rw [if_pos ⟨hpos, hlow⟩, if_pos hlow]
    · rw [if_neg fun h => hlow h.2, if_pos (Nat.lt_of_not_le hlow), if_neg hlow]

theorem Gated.of_le {cal : CalEntry} {a b : Nat} (hle : a ≤ b) (h : Gated cal b) :
    Gated cal a :=
  lt_of_le_of_lt (by exact_mod_cast hle) h

section
variable (cal : Calibration)

theorem Calibration.low : Ascends cal.xMin cal.xMiddle := ⟨cal.adc_low, cal.meter_low⟩

theorem Calibration.high : Ascends cal.xMiddle cal.xMax := ⟨cal.adc_high, cal.meter_high⟩

theorem ascends_points (c : Nat) :
    Ascends (points cal.toCalEntry c).1 (points cal.toCalEntry c).2 := by
  unfold points
  split
  · exact cal.low
  · exact cal.high

/-- At the change of the lines. -/
theorem join_iff :
    piece cal.xMin cal.xMiddle 32768 ≤ piece cal.xMiddle cal.xMax 32769 ↔
      (32768 - cal.xMiddle.usAdcValue) * slope cal.xMin cal.xMiddle ≤
        (32769 - cal.xMiddle.usAdcValue) * slope cal.xMiddle cal.xMax := by
  have hmiddle := second_on_line cal.low
  rw [piece_eq, piece_eq]
  push_cast
  constructor
  · intro h
    linarith
  · intro h
    linarith

/-- What it takes that the measured value does not fall from `c` to `c + 1`: at the gate, at the
    change of the lines and elsewhere. -/
theorem measured_succ_iff (c : Nat) :
    measured cal.toCalEntry c ≤ measured cal.toCalEntry (c + 1) ↔
      (Gated cal.toCalEntry c → ¬ Gated cal.toCalEntry (c + 1) →
        zeroCode (points cal.toCalEntry (c + 1)).1 (points cal.toCalEntry (c + 1)).2 ≤
          ((c + 1 : Nat) : ℚ)) ∧
      (c = 32768 → ¬ Gated cal.toCalEntry c →
        (32768 - cal.xMiddle.usAdcValue) * slope cal.xMin cal.xMiddle ≤
          (32769 - cal.xMiddle.usAdcValue) * slope cal.xMiddle cal.xMax) := by
  unfold measured
  by_cases hc : Gated cal.toCalEntry c
  · rw [if_pos hc]
    by_cases hnext : Gated cal.toCalEntry (c + 1)
    · rw [if_pos hnext]
      exact iff_of_true (le_refl _) ⟨fun _ h => absurd hnext h, fun _ h => absurd hc h⟩
    · rw [if_neg hnext, zero_le_piece_iff (ascends_points cal (c + 1))]
      exact ⟨fun h => ⟨fun _ _ => h, fun _ h => absurd hc h⟩, fun h => h.1 hc hnext⟩
  · have hnext : ¬ Gated cal.toCalEntry (c + 1) := fun h => hc (h.of_le (Nat.le_succ c))
    rw [if_neg hc, if_neg hnext]
    by_cases hjoin : c = 32768
    · subst hjoin
      have hlow : points cal.toCalEntry 32768 = (cal.xMin, cal.xMiddle) := if_pos (le_refl _)
      have hhigh : points cal.toCalEntry (32768 + 1) = (cal.xMiddle, cal.xMax) :=
        if_neg (by omega)
      rw [hlow, hhigh]
      refine (join_iff cal).trans ⟨fun h => ⟨fun h' => absurd h' hc, fun _ _ => h⟩,
        fun h => h.2 rfl hc⟩
    · have hsame : points cal.toCalEntry (c + 1) = points cal.toCalEntry c := by
        unfold points
        by_cases hle : c ≤ 32768
        · rw [if_pos hle, if_pos (by omega)]
        · rw [if_neg hle, if_neg (by omega)]
      rw [hsame]
      exact iff_of_true (piece_le_succ (ascends_points cal c) c)
        ⟨fun h => absurd h hc, fun h => absurd h hjoin⟩

/-- A function does not fall on a range if it does not fall from one number to the next. -/
theorem le_of_le_succ {f : Nat → ℚ} {lo hi : Nat}
    (h : ∀ c, lo ≤ c → c < hi → f c ≤ f (c + 1)) {a b : Nat} (ha : lo ≤ a) (hab : a ≤ b)
    (hb : b ≤ hi) : f a ≤ f b := by
  induction hab with
  | refl => exact le_refl _
  | @step b hab ih => exact (ih (by omega)).trans (h b (Nat.le_trans ha hab) (by omega))

/-- The measured value is monotone in the filtered one, exactly if the lines do not fall where one
    takes the place of the other, and the first code that passes the gate does not lie before the
    zero of its line. -/
theorem fMeasure_monotone_iff (ext_min ext_max factor : ℚ) (pVal : AdcValue) :
    (∀ a b : Nat, 1 ≤ a → a ≤ b → b ≤ 65535 →
      (vGetAdcValue .range0_20MA .range4_20MA ext_min ext_max factor cal.toCalEntry a
          pVal).fMeasure ≤
        (vGetAdcValue .range0_20MA .range4_20MA ext_min ext_max factor cal.toCalEntry b
          pVal).fMeasure) ↔
      JoinOk cal.toCalEntry ∧ GateOk cal.toCalEntry := by
  have hvalue : ∀ {c : Nat}, 1 ≤ c → (vGetAdcValue .range0_20MA .range4_20MA ext_min ext_max
      factor cal.toCalEntry c pVal).fMeasure = measured cal.toCalEntry c := fun hc =>
    fMeasure_eq ext_min ext_max factor cal.toCalEntry hc pVal
  constructor
  · intro h
    have hstep : ∀ c, 1 ≤ c → c < 65535 →
        measured cal.toCalEntry c ≤ measured cal.toCalEntry (c + 1) := fun c hc hlt => by
      rw [← hvalue hc, ← hvalue (Nat.le_add_left 1 c)]
      exact h c (c + 1) hc (Nat.le_succ c) hlt
    refine ⟨fun hopen => ?_, fun c hc hlt hgated hopen => ?_⟩
    · exact ((measured_succ_iff cal 32768).mp (hstep _ (by omega) (by omega))).2 rfl hopen
    · exact ((measured_succ_iff cal c).mp (hstep c hc hlt)).1 hgated hopen
  · rintro ⟨hjoin, hgate⟩ a b ha hab hb
    rw [hvalue ha, hvalue (ha.trans hab)]
    refine le_of_le_succ (f := measured cal.toCalEntry) (fun c hc hlt => ?_) ha hab hb
    refine (measured_succ_iff cal c).mpr ⟨hgate c hc hlt, ?_⟩
    rintro rfl hopen
    exact hjoin hopen

end

/-- A calibration at 4, 12 and 20 mA. -/
def cal41220 : Calibration where
  xMin := ⟨4, 13107⟩
  xMiddle := ⟨12, 39321⟩
  xMax := ⟨20, 65000⟩
  adc_low := by decide
  adc_high := by decide
  meter_low := by norm_num
  meter_high := by norm_num
  meter_nonneg := by norm_num

/-- The measured value falls from 32768 to 32769. -/
theorem cal41220_falls : ¬ ∀ a b : Nat, 1 ≤ a → a ≤ b → b ≤ 65535 →
    (vGetAdcValue .range0_20MA .range4_20MA 0 100 0 cal41220.toCalEntry a
        ⟨0, 0, 0, 0, 0⟩).fMeasure ≤
      (vGetAdcValue .range0_20MA .range4_20MA 0 100 0 cal41220.toCalEntry b
        ⟨0, 0, 0, 0, 0⟩).fMeasure := by
  intro h
  have hle := h 32768 32769 (by omega) (by omega) (by omega)
  rw [fMeasure_eq _ _ _ _ (by omega), fMeasure_eq _ _ _ _ (by omega),
    measured_succ_iff cal41220 32768] at hle
  have hopen : ¬ Gated cal41220.toCalEntry 32768 := by
    norm_num [Gated, cal41220]
  have hjoin := hle.2 rfl hopen
  norm_num [cal41220, slope] at hjoin

end K64Gateway.AdcConvert
