import K64Gateway.Backup.CfgJson

/-
  The analog inputs, `board/cfg/analog_cfg.c`.

  Proved: an input that is restored from its own export is the same exactly if its interval is the
  number of its range (`jsonAnalogCfg_restore`).
-/

namespace K64Gateway.Backup

open CString Cjson

variable {R : Type} [CNumber R]

/-- `analog_cfg_t` -/
structure AnalogCfg (R : Type) where
  enable : Bool
  interval : UInt32
  range : UInt8
  unit : UInt8
  extRangeMin : R
  extRangeMax : R
  factor : R

/-- `prvDefalutAnalogCfgs`: `Range_4_20MA` and `Unit_Eng`. -/
def AnalogCfg.default : AnalogCfg R where
  enable := false
  interval := 0
  range := 0
  unit := 0
  extRangeMin := CNumber.ofInt 0
  extRangeMax := CNumber.ofInt 0
  factor := CNumber.ofInt 0

/-- `setAnalogCfgWithJson` on its channel. -/
def setAnalogCfg (pCfg : Item R) (g : AnalogCfg R) : AnalogCfg R :=
  let en := intAt pCfg (chars ['e', 'n'])
  let it := intAt pCfg (chars ['i', 't'])
  let rg := intAt pCfg (chars ['r', 'g'])
  let ut := intAt pCfg (chars ['u', 't'])
  { enable := setFlag en g.enable
    -- The source stores the range here, not the interval.
    interval := if 0 ≤ it then UInt32.ofInt rg else g.interval
    range := setIf rg UInt8.ofNat g.range
    unit := setIf ut UInt8.ofNat g.unit
    extRangeMin := CNumber.toFloat (getDouble pCfg (chars ['e', 'i']) g.extRangeMin)
    extRangeMax := CNumber.toFloat (getDouble pCfg (chars ['e', 'a']) g.extRangeMax)
    factor := CNumber.toFloat (getDouble pCfg (chars ['e', 'c']) g.factor) }

/-- `jsonAnalogCfg`, with the values that are measured, `mv` and `eg`. -/
def jsonAnalogCfg (n : Nat) (mv eg : R) (g : AnalogCfg R) : Item R :=
  .object [(chars ['n'], number n), (chars ['e', 'n'], number g.enable.toNat),
    (chars ['i', 't'], number g.interval.toNat), (chars ['r', 'g'], number g.range.toNat),
    (chars ['u', 't'], number g.unit.toNat), (chars ['e', 'i'], .number g.extRangeMin),
    (chars ['e', 'a'], .number g.extRangeMax), (chars ['e', 'c'], .number g.factor),
    (chars ['m', 'v'], .number mv), (chars ['e', 'g'], .number eg)]

/-- The limits are of the type `float`. -/
structure AnalogCfg.Ok (g : AnalogCfg R) : Prop where
  extRangeMin : CNumber.toFloat g.extRangeMin = g.extRangeMin
  extRangeMax : CNumber.toFloat g.extRangeMax = g.extRangeMax
  factor : CNumber.toFloat g.factor = g.factor

theorem AnalogCfg.ok_default : (AnalogCfg.default : AnalogCfg R).Ok :=
  ⟨CNumber.toFloat_zero, CNumber.toFloat_zero, CNumber.toFloat_zero⟩

theorem setAnalogCfg_ok (pCfg : Item R) (g : AnalogCfg R) : (setAnalogCfg pCfg g).Ok :=
  ⟨CNumber.toFloat_toFloat _, CNumber.toFloat_toFloat _, CNumber.toFloat_toFloat _⟩

/-- What a channel becomes by the export of another one. -/
theorem setAnalogCfg_json {a : AnalogCfg R} (h : a.Ok) (n : Nat) (mv eg : R) (b : AnalogCfg R) :
    setAnalogCfg (jsonAnalogCfg n mv eg a) b =
      { a with interval := UInt32.ofNat a.range.toNat } := by
  have hen : intAt (jsonAnalogCfg n mv eg a) (chars ['e', 'n']) = a.enable.toNat :=
    intAt_number (by have := a.enable.toNat_le; omega) rfl
  have hrg : intAt (jsonAnalogCfg n mv eg a) (chars ['r', 'g']) = a.range.toNat :=
    intAt_number (by have := a.range.toNat_lt; omega) rfl
  have hut : intAt (jsonAnalogCfg n mv eg a) (chars ['u', 't']) = a.unit.toNat :=
    intAt_number (by have := a.unit.toNat_lt; omega) rfl
  have hit : 0 ≤ intAt (jsonAnalogCfg n mv eg a) (chars ['i', 't']) := by
    by_cases hlt : a.interval.toNat < 2147483648
    · rw [intAt_number hlt rfl]
      exact Int.natCast_nonneg _
    · rw [intAt_number_large (Nat.le_of_not_lt hlt) a.interval.toNat_lt rfl]
      decide
  have hnat : UInt32.ofInt (a.range.toNat : Int) = UInt32.ofNat a.range.toNat := by
    have hrange := a.range.toNat_lt
    show UInt32.ofNat ((a.range.toNat : Int) % 2 ^ 32).toNat = _
    rw [Int.emod_eq_of_lt (Int.natCast_nonneg _) (by omega), Int.toNat_natCast]
  have hei : getDouble (jsonAnalogCfg n mv eg a) (chars ['e', 'i']) b.extRangeMin = a.extRangeMin :=
    rfl
  have hea : getDouble (jsonAnalogCfg n mv eg a) (chars ['e', 'a']) b.extRangeMax = a.extRangeMax :=
    rfl
  have hec : getDouble (jsonAnalogCfg n mv eg a) (chars ['e', 'c']) b.factor = a.factor := rfl
  unfold setAnalogCfg
  dsimp only
  rw [hen, hrg, hut, if_pos hit, hei, hea, hec, h.extRangeMin, h.extRangeMax, h.factor,
    setFlag_toNat, setIf_natCast, setIf_natCast, UInt8.ofNat_toNat, UInt8.ofNat_toNat, hnat]

/-- The slip in the setter shows in every channel whose interval is another number. -/
theorem jsonAnalogCfg_restore [ExactNumber R] {a : AnalogCfg R} (h : a.Ok) (n : Nat) (mv eg : R)
    (b : AnalogCfg R) :
    jsonAnalogCfg n mv eg (setAnalogCfg (jsonAnalogCfg n mv eg a) b) = jsonAnalogCfg n mv eg a ↔
      a.interval.toNat = a.range.toNat := by
  have hrange := a.range.toNat_lt
  have hnat : (UInt32.ofNat a.range.toNat).toNat = a.range.toNat :=
    UInt32.toNat_ofNat_of_lt' (by show a.range.toNat < 4294967296; omega)
  rw [setAnalogCfg_json h]
  constructor
  · intro heq
    have hnumber : (number ((UInt32.ofNat a.range.toNat).toNat : Int) : Item R) =
        number (a.interval.toNat : Int) :=
      Option.some.inj (congrArg (fun item => getObjectItem item (chars ['i', 't'])) heq)
    rw [hnat] at hnumber
    exact ((number_inj (by omega) a.interval.toNat_lt).mp hnumber).symm
  · intro heq
    have hsame : UInt32.ofNat a.range.toNat = a.interval := by
      rw [← heq, UInt32.ofNat_toNat]
    rw [hsame]

end K64Gateway.Backup
