import K64Gateway.Lib.Calendar

/-
  The clock, `board/time.c`: the date of a count of seconds and back. A `time_t` has 32 bits and no
  sign.

  Proved: the date is the one that is reached from 1 January 1970 day by day (`gmtime_r_eq`),
  `mktime` gives back the seconds (`mktime_gmtime_r`), and `gmtime_r` the date (`gmtime_r_mktime`);
  and which months `mktime` can read (`mktime_isSome_iff`).
-/

namespace K64Gateway.Board.Time

open Calendar

/-! ## The functions -/

/-- `__spm`, days per month, of a year that is no leap year. -/
def spm : List Nat := [0, 31, 59, 90, 120, 151, 181, 212, 243, 273, 304, 334, 365]

/-- `struct tm`; the fields that no function here writes are left out. -/
structure Tm where
  tm_sec : Int
  tm_min : Int
  tm_hour : Int
  tm_mday : Int
  tm_mon : Int
  tm_year : Int
  tm_wday : Int
  tm_yday : Int
deriving DecidableEq

/-- A value as `time_t`. -/
def timeT (x : Int) : Nat := (x % 2 ^ 32).toNat

/-- `__isleap` -/
def isleap (year : Int) : Bool := year % 4 == 0 && (year % 100 != 0 || year % 400 == 0)

/-- The loop of `gmtime_r` over the years. -/
def yearLoop : Nat → Nat → Nat → Nat × Nat
  | 0, i, work => (i, work)
  | fuel + 1, i, work =>
    let k := if isleap i then 366 else 365
    if k ≤ work then yearLoop fuel (i + 1) (work - k) else (i, work)

/-- The loop of `gmtime_r` over the months. -/
def monthLoop (work : Nat) : Nat → Nat
  | 0 => 0
  | i + 1 => if work < spm.getD (i + 1) 0 then monthLoop work i else i + 1

/-- 29 February in `gmtime_r`: the day that the month begins with, and the day of the year as in a
year that is no leap year. -/
def leapDay (i yday : Nat) : Nat × Nat :=
  if isleap i && decide (58 < yday) then (if yday = 59 then 2 else 1, yday - 1) else (1, yday)

/-- `gmtime_r` -/
def gmtime_r (timep : Nat) : Tm :=
  let secs := timep % 86400
  let work := timep / 86400
  let (i, yday) := yearLoop work 1970 work
  let (mday, work) := leapDay i yday
  let mon := monthLoop work 11
  { tm_sec := (secs % 60 : Nat)
    tm_min := (secs / 60 % 60 : Nat)
    tm_hour := (secs / 60 / 60 : Nat)
    tm_wday := ((4 + timep / 86400) % 7 : Nat)
    tm_year := i - 1900
    tm_yday := yday
    tm_mon := mon
    tm_mday := mday + work - spm.getD mon 0 }

/-- A place of `__spm`; none is a read outside of it. -/
def spmAt (i : Int) : Option Nat := if i < 0 then none else spm[i.toNat]?

/-- The loop of `mktime`. -/
def mdayLoop : Nat → Tm → Option Tm
  | 0, t => some t
  | fuel + 1, t => do
    let limit ← spmAt (1 + t.tm_mon)
    if (limit : Int) < t.tm_mday then
      let mday := if t.tm_mon = 1 ∧ isleap (t.tm_year + 1900) then t.tm_mday - 1 else t.tm_mday
      let days ← spmAt t.tm_mon
      let t := { t with tm_mday := mday - days, tm_mon := t.tm_mon + 1 }
      mdayLoop fuel (if 11 < t.tm_mon then { t with tm_mon := 0, tm_year := t.tm_year + 1 } else t)
    else some t

def carrySec (t : Tm) : Tm :=
  if 60 < t.tm_sec then { t with tm_min := t.tm_min + t.tm_sec / 60, tm_sec := t.tm_sec % 60 }
  else t

def carryMin (t : Tm) : Tm :=
  if 60 < t.tm_min then { t with tm_hour := t.tm_hour + t.tm_min / 60, tm_min := t.tm_min % 60 }
  else t

def carryHour (t : Tm) : Tm :=
  if 24 < t.tm_hour then
    { t with tm_mday := t.tm_mday + t.tm_hour / 24, tm_hour := t.tm_hour % 24 }
  else t

def carryMon (t : Tm) : Tm :=
  if 12 < t.tm_mon then { t with tm_year := t.tm_year + t.tm_mon / 12, tm_mon := t.tm_mon % 12 }
  else t

/-- The days from 1970 on that the years count for. -/
def yearsDay (years : Nat) : Int :=
  let day : Int := years * 365 + (timeT (years + 1) / 4 : Nat)
  if 131 ≤ years then
    let years := (years - 131) / 100
    let day := day - (years / 4 * 3 + 1 : Nat)
    let years := years % 4
    day - (if years = 3 then years - 1 else years : Nat)
  else day

/-- `mktime`; none is a read outside of `__spm`. The years are taken before anything is carried. -/
def mktime (t : Tm) : Option (Tm × Nat) := do
  let years := timeT (t.tm_year - 70)
  let t := carryMon (carryHour (carryMin (carrySec t)))
  let t ← mdayLoop (12 * (t.tm_mday.toNat + 2)) t
  if t.tm_year < 70 then some (t, timeT (-1))
  else
    let before ← spmAt t.tm_mon
    let yday := before + t.tm_mday - 1 +
      (if isleap (t.tm_year + 1900) ∧ 1 < t.tm_mon then 1 else 0)
    let day := timeT (yearsDay years + yday)
    let t := { t with tm_yday := yday, tm_wday := (timeT (day + 4) % 7 : Nat) }
    some (t, timeT (((day * 24 + t.tm_hour) * 60 + t.tm_min) * 60 + t.tm_sec))

/-! ## The date of a count of days -/

@[simp] theorem isleap_natCast (year : Nat) : isleap year = isLeap year := by
  rw [Bool.eq_iff_iff]
  simp only [isleap, isLeap, Bool.and_eq_true, Bool.or_eq_true, beq_iff_eq, bne_iff_ne]
  omega

theorem yearsStart_succ_left (first n : Nat) :
    yearsStart first (n + 1) = yearDays first + yearsStart (first + 1) n := by
  induction n with
  | zero => exact Nat.add_comm _ _
  | succ n ih =>
    show yearsStart first (n + 1) + yearDays (first + (n + 1)) = yearDays first + (_ + _)
    rw [ih, Nat.add_assoc, show first + (n + 1) = first + 1 + n by omega]

theorem yearDays_pos (year : Nat) : 0 < yearDays year := by
  unfold yearDays
  split <;> omega

/-- The year of a day, and the day in it. -/
theorem yearLoop_spec {fuel i work : Nat} (hfuel : work ≤ fuel) :
    i ≤ (yearLoop fuel i work).1 ∧
      (yearLoop fuel i work).2 < yearDays (yearLoop fuel i work).1 ∧
      yearsStart i ((yearLoop fuel i work).1 - i) + (yearLoop fuel i work).2 = work := by
  induction fuel generalizing i work with
  | zero =>
    obtain rfl := Nat.le_zero.mp hfuel
    refine ⟨Nat.le_refl _, yearDays_pos i, ?_⟩
    show yearsStart i (i - i) + 0 = 0
    rw [Nat.sub_self]
    rfl
  | succ fuel ih =>
    have hdays : (if isleap i then 366 else 365) = yearDays i := by
      rw [isleap_natCast]
      rfl
    have hpos := yearDays_pos i
    unfold yearLoop
    dsimp only
    rw [hdays]
    split
    · next hle =>
      obtain ⟨hyear, hday, hsum⟩ := @ih (i + 1) (work - yearDays i) (by omega)
      refine ⟨by omega, hday, ?_⟩
      generalize yearLoop fuel (i + 1) (work - yearDays i) = r at *
      obtain ⟨n, hn⟩ := Nat.exists_eq_add_of_le hyear
      rw [hn, Nat.add_sub_cancel_left] at hsum
      rw [show r.1 - i = n + 1 by omega, yearsStart_succ_left]
      omega
    · next hlt =>
      refine ⟨Nat.le_refl _, Nat.lt_of_not_le hlt, ?_⟩
      rw [Nat.sub_self]
      exact Nat.zero_add _

/-- The month of a day. -/
theorem monthLoop_spec (work i : Nat) :
    monthLoop work i ≤ i ∧ spm.getD (monthLoop work i) 0 ≤ work ∧
      ∀ j, monthLoop work i < j → j ≤ i → work < spm.getD j 0 := by
  induction i with
  | zero =>
    refine ⟨Nat.le_refl _, Nat.zero_le _, fun j hlt hle => ?_⟩
    have hpos : 0 < j := hlt
    omega
  | succ i ih =>
    unfold monthLoop
    split
    · next hlt =>
      refine ⟨Nat.le_succ_of_le ih.1, ih.2.1, fun j hj hle => ?_⟩
      rcases Nat.le_succ_iff.mp hle with hle | rfl
      · exact ih.2.2 j hj hle
      · exact hlt
    · next hge => exact ⟨Nat.le_refl _, Nat.le_of_not_lt hge, fun j hj hle => by omega⟩

theorem monthStart_eq (year : Nat) {month : Nat} (h : month ≤ 12) :
    monthStart year month = spm.getD month 0 + (if isLeap year ∧ 1 < month then 1 else 0) := by
  rcases Bool.eq_false_or_eq_true (isLeap year) with hleap | hleap <;>
    interval_cases month <;> simp [monthStart, monthDays, spm, hleap]

/-- The fields of a time on a date. -/
def tmOf (d : Date) (secs : Nat) : Tm where
  tm_sec := (secs % 60 : Nat)
  tm_min := (secs / 60 % 60 : Nat)
  tm_hour := (secs / 60 / 60 : Nat)
  tm_wday := ((4 + d.number 1970) % 7 : Nat)
  tm_year := d.year - 1900
  tm_yday := monthStart d.year d.month + (d.day - 1)
  tm_mon := d.month
  tm_mday := d.day

/-- What becomes of a day of the year at the end of February. -/
theorem leapDay_cases (year yday : Nat) :
    isLeap year = false ∧ leapDay year yday = (1, yday) ∨
      isLeap year = true ∧ yday ≤ 58 ∧ leapDay year yday = (1, yday) ∨
      isLeap year = true ∧ yday = 59 ∧ leapDay year yday = (2, 58) ∨
      isLeap year = true ∧ 59 < yday ∧ leapDay year yday = (1, yday - 1) := by
  unfold leapDay
  rw [isleap_natCast]
  rcases Bool.eq_false_or_eq_true (isLeap year) with hleap | hleap
  · rw [hleap, Bool.true_and]
    rcases Nat.lt_trichotomy yday 59 with hlt | rfl | hgt
    · rw [if_neg (by rw [decide_eq_true_eq]; omega)]
      exact Or.inr (Or.inl ⟨rfl, by omega, rfl⟩)
    · exact Or.inr (Or.inr (Or.inl ⟨rfl, rfl, rfl⟩))
    · rw [if_pos (by rw [decide_eq_true_eq]; omega), if_neg (by omega)]
      exact Or.inr (Or.inr (Or.inr ⟨rfl, hgt, rfl⟩))
  · rw [hleap]
    exact Or.inl ⟨rfl, rfl⟩

/-- The month and the day of the month of a day of a year. -/
theorem exists_date {year yday : Nat} (hyday : yday < yearDays year) :
    ∃ d : Date, d.year = year ∧ monthStart year d.month + (d.day - 1) = yday ∧
      monthLoop (leapDay year yday).2 11 = d.month ∧
      (leapDay year yday).1 + (leapDay year yday).2 = d.day + spm.getD d.month 0 := by
  obtain ⟨hle, hlow, hhigh⟩ := monthLoop_spec (leapDay year yday).2 11
  have hcases := leapDay_cases year yday
  generalize monthLoop (leapDay year yday).2 11 = mon at *
  generalize leapDay year yday = r at *
  obtain ⟨mday, work⟩ := r
  dsimp only at *
  simp only [Prod.mk.injEq] at hcases
  -- the month begins before the day and ends behind it
  have hlast : work < 365 := by
    unfold yearDays at hyday
    rcases hcases with ⟨hleap, -, rfl⟩ | ⟨-, hle, -, rfl⟩ | ⟨-, -, -, rfl⟩ | ⟨-, hgt, -, rfl⟩
    · rw [hleap, if_neg Bool.false_ne_true] at hyday
      exact hyday
    · omega
    · omega
    · split at hyday <;> omega
  have hnext : work < spm.getD (mon + 1) 0 := by
    rcases Nat.lt_or_ge mon 11 with hlt | hge
    · exact hhigh (mon + 1) (Nat.lt_succ_self _) hlt
    · obtain rfl : mon = 11 := by omega
      exact hlast
  have hthis := monthStart_eq year (show mon ≤ 12 by omega)
  have hbehind := monthStart_eq year (show mon + 1 ≤ 12 by omega)
  have hdays : monthStart year (mon + 1) = monthStart year mon + monthDays year mon := rfl
  have hfeb : mon = 0 ∧ spm.getD mon 0 = 0 ∧ spm.getD (mon + 1) 0 = 31 ∨
      mon = 1 ∧ spm.getD mon 0 = 31 ∧ spm.getD (mon + 1) 0 = 59 ∨
      1 < mon ∧ 59 ≤ spm.getD mon 0 := by
    interval_cases mon <;> decide
  have hday : 0 < mday + work - spm.getD mon 0 ∧
      mday + work - spm.getD mon 0 ≤ monthDays year mon ∧
      monthStart year mon + (mday + work - spm.getD mon 0 - 1) = yday := by
    rcases hcases with ⟨hleap, rfl, rfl⟩ | ⟨hleap, hle58, rfl, rfl⟩ | ⟨hleap, rfl, rfl, rfl⟩ |
      ⟨hleap, hgt, rfl, rfl⟩
    all_goals
      simp only [hleap, true_and, false_and, reduceIte, Bool.false_eq_true] at hthis hbehind
    · omega
    -- in a leap year before the day, on it, and behind it
    · rw [if_neg (by omega)] at hthis
      split at hbehind <;> omega
    · rw [if_neg (by omega)] at hthis
      split at hbehind <;> omega
    · rw [if_pos (by omega)] at hthis hbehind
      omega
  exact ⟨⟨year, mon, mday + work - spm.getD mon 0, by omega, hday.1, hday.2.1⟩, rfl, hday.2.2, rfl,
    by dsimp only; omega⟩

/-- The fields of a time are those of its date. -/
theorem gmtime_r_spec (timep : Nat) :
    ∃ d : Date, 1970 ≤ d.year ∧ d.number 1970 = timep / 86400 ∧
      gmtime_r timep = tmOf d (timep % 86400) := by
  obtain ⟨hyear, hday, hsum⟩ := yearLoop_spec (i := 1970) (Nat.le_refl (timep / 86400))
  obtain ⟨d, hd, hyday, hmon, hmday⟩ := exists_date hday
  have hnumber : d.number 1970 = timep / 86400 := by
    unfold Date.number
    rw [hd]
    omega
  refine ⟨d, by omega, hnumber, ?_⟩
  unfold gmtime_r tmOf
  dsimp only
  rw [hmon, hnumber, hd]
  have hpos := d.day_pos
  simp only [Tm.mk.injEq, true_and]
  and_intros <;> omega

/-- The date of a time is the day that is reached from 1 January 1970 in as many steps as there are
days in it. -/
theorem gmtime_r_eq (timep : Nat) :
    gmtime_r timep =
      tmOf (Date.next^[timep / 86400] (.newYear 1970)) (timep % 86400) := by
  obtain ⟨d, hyear, hnumber, htm⟩ := gmtime_r_spec timep
  rw [htm, ← hnumber, ← eq_iterate_next hyear]

/-! ## The seconds of a date -/

theorem timeT_natCast {n : Nat} (h : n < 2 ^ 32) : timeT n = n := by
  unfold timeT
  omega

/-- The years that are no leap years are counted from 2000 on, all but each fourth. -/
theorem yearsDay_closed {n : Nat} (hn : n + 1 < 2 ^ 32) :
    yearsDay n + ((n + 69) / 100 : Nat) =
      (n * 365 + (n + 1) / 4 + ((n + 69) / 100 + 3) / 4 : Nat) := by
  have hcast : timeT ((n : Int) + 1) = n + 1 := timeT_natCast (n := n + 1) hn
  unfold yearsDay
  rw [hcast]
  dsimp only
  split
  · next hlarge =>
    have hcentury : (n + 69) / 100 = (n - 131) / 100 + 2 := by omega
    rw [hcentury]
    generalize (n - 131) / 100 = q
    split <;> omega
  · next hsmall =>
    have hcentury : (n + 69) / 100 < 2 := by omega
    omega

/-- What a year adds to the two counts of leap years. -/
theorem yearDays_closed (n : Nat) :
    yearDays (1970 + n) + (n + 1) / 4 + ((n + 69) / 100 + 3) / 4 + (n + 70) / 100 =
      365 + (n + 2) / 4 + ((n + 70) / 100 + 3) / 4 + (n + 69) / 100 := by
  have hquarter : (1970 + n) % 4 = 0 ∧ (n + 2) / 4 = (n + 1) / 4 + 1 ∨
      (1970 + n) % 4 ≠ 0 ∧ (n + 2) / 4 = (n + 1) / 4 := by omega
  have hcentury : (1970 + n) % 100 = 0 ∧ (n + 70) / 100 = (n + 69) / 100 + 1 ∨
      (1970 + n) % 100 ≠ 0 ∧ (n + 70) / 100 = (n + 69) / 100 := by omega
  have hfourth : (1970 + n) % 100 = 0 → ((1970 + n) % 400 = 0 ↔ (n + 70) / 100 % 4 = 1) := by omega
  have hleap : isLeap (1970 + n) = true ↔
      (1970 + n) % 4 = 0 ∧ ((1970 + n) % 100 ≠ 0 ∨ (1970 + n) % 400 = 0) := by
    simp only [isLeap, Bool.and_eq_true, Bool.or_eq_true, beq_iff_eq, bne_iff_ne]
  have hdivides : (1970 + n) % 100 = 0 → (1970 + n) % 4 = 0 := by omega
  unfold yearDays
  rcases hcentury with ⟨hyes, hcount⟩ | ⟨hno, hcount⟩
  · have hquarter := hquarter.resolve_right fun h => h.1 (hdivides hyes)
    rw [hquarter.2, hcount]
    rw [hcount] at hfourth
    have hfourth := hfourth hyes
    generalize (n + 69) / 100 = w at *
    by_cases h400 : (1970 + n) % 400 = 0
    · rw [if_pos (hleap.mpr ⟨hdivides hyes, Or.inr h400⟩)]
      have hone := hfourth.mp h400
      clear hleap hfourth hquarter hdivides
      omega
    · rw [if_neg fun h => (hleap.mp h).2.elim (fun hne => hne hyes) h400]
      have hone := mt hfourth.mpr h400
      clear hleap hfourth hquarter hdivides
      omega
  · rw [hcount]
    rcases hquarter with ⟨h4, hcount4⟩ | ⟨h4, hcount4⟩
    · rw [if_pos (hleap.mpr ⟨h4, Or.inl hno⟩), hcount4]
      omega
    · rw [if_neg fun h => h4 (hleap.mp h).1, hcount4]

/-- The correction of `mktime` for the years that are no leap years, in the year `1970 + n`. -/
theorem yearsDay_eq {n : Nat} (hn : n + 1 < 2 ^ 32) : yearsDay n = yearsStart 1970 n := by
  induction n with
  | zero => rfl
  | succ n ih =>
    have hyears : yearsStart 1970 (n + 1) = yearsStart 1970 n + yearDays (1970 + n) := rfl
    have ih := ih (by omega)
    have hthis := yearsDay_closed (n := n) (by omega)
    have hnext := yearsDay_closed hn
    have hyear := yearDays_closed n
    rw [hyears, Nat.cast_add, ← ih]
    omega

/-- The time is `secs` seconds into the date, whatever it says about weekdays. -/
structure Tm.On (t : Tm) (d : Date) (secs : Nat) : Prop where
  tm_sec : t.tm_sec = (secs % 60 : Nat)
  tm_min : t.tm_min = (secs / 60 % 60 : Nat)
  tm_hour : t.tm_hour = (secs / 60 / 60 : Nat)
  tm_mday : t.tm_mday = d.day
  tm_mon : t.tm_mon = d.month
  tm_year : t.tm_year = d.year - 1900
  lt_day : secs < 86400

variable {t : Tm} {d : Date} {secs : Nat}

theorem carry_on (h : t.On d secs) : carryMon (carryHour (carryMin (carrySec t))) = t := by
  obtain ⟨hsec, hmin, hhour, -, hmon, -, hlt⟩ := h
  have hmonth := d.month_lt
  have h₁ : carrySec t = t := if_neg (by omega)
  have h₂ : carryMin t = t := if_neg (by omega)
  have h₃ : carryHour t = t := if_neg (by omega)
  have h₄ : carryMon t = t := if_neg (by omega)
  rw [h₁, h₂, h₃, h₄]

theorem spmAt_natCast (i : Nat) : spmAt i = spm[i]? := by
  unfold spmAt
  rw [if_neg (by omega), Int.toNat_natCast]

/-- A month ends where the table says, or a day behind it. -/
theorem day_le_spm (d : Date) : ∃ limit, spm[d.month + 1]? = some limit ∧ d.day ≤ limit := by
  have hle := d.day_le
  have hlt := d.month_lt
  unfold monthDays at hle
  generalize d.month = month at *
  interval_cases month <;> refine ⟨_, rfl, ?_⟩ <;> grind

/-- No month is carried where the day lies in its month. -/
theorem mdayLoop_on (h : t.On d secs) (fuel : Nat) : mdayLoop (fuel + 1) t = some t := by
  obtain ⟨limit, hget, hle⟩ := day_le_spm d
  have hindex : spmAt (1 + t.tm_mon) = some limit := by
    rw [h.tm_mon, ← hget, ← spmAt_natCast, Int.add_comm, Nat.cast_succ]
  unfold mdayLoop
  rw [hindex]
  show (if (limit : Int) < t.tm_mday then _ else _) = _
  rw [if_neg (by rw [h.tm_mday]; omega)]

theorem le_yearsStart (n : Nat) : n ≤ yearsStart 1970 n := by
  induction n with
  | zero => exact Nat.zero_le _
  | succ n ih => exact Nat.add_le_add ih (yearDays_pos _)

/-- What `mktime` makes of a time on a date. -/
theorem mktime_on (h : t.On d secs) (hyear : 1970 ≤ d.year)
    (hsmall : d.number 1970 * 86400 + secs < 2 ^ 32) :
    mktime t = some (tmOf d secs, d.number 1970 * 86400 + secs) := by
  have hmonth := d.month_lt
  have hpos := d.day_pos
  have hstart := monthStart_eq d.year (Nat.le_of_lt hmonth)
  obtain ⟨n, hn⟩ := Nat.exists_eq_add_of_le hyear
  have hnumber : d.number 1970 = yearsStart 1970 n + monthStart d.year d.month + (d.day - 1) := by
    unfold Date.number
    rw [hn, Nat.add_sub_cancel_left]
  have hlarge := le_yearsStart n
  have hyears : timeT (t.tm_year - 70) = n := by
    rw [h.tm_year, show (d.year : Int) - 1900 - 70 = (n : Nat) by omega]
    exact timeT_natCast (by omega)
  have hbefore : spmAt t.tm_mon = some (spm.getD d.month 0) := by
    rw [h.tm_mon, spmAt_natCast]
    have hlt : d.month < spm.length := Nat.lt_trans hmonth (by decide)
    rw [List.getD_eq_getElem?_getD, List.getElem?_eq_getElem hlt, Option.getD_some]
  have hleap : isleap (t.tm_year + 1900) = isLeap d.year := by
    rw [h.tm_year, Int.sub_add_cancel, isleap_natCast]
  unfold mktime
  dsimp only
  rw [carry_on h, show 12 * (t.tm_mday.toNat + 2) = 12 * t.tm_mday.toNat + 23 + 1 by omega,
    mdayLoop_on h, hyears]
  show (if t.tm_year < 70 then _ else _) = _
  rw [if_neg (by rw [h.tm_year]; omega), hbefore]
  dsimp only [Option.bind_eq_bind, Option.bind_some]
  have hyday : ((spm.getD d.month 0 : Nat) : Int) + t.tm_mday - 1 +
      (if isleap (t.tm_year + 1900) = true ∧ 1 < t.tm_mon then 1 else 0) =
      (monthStart d.year d.month + (d.day - 1) : Nat) := by
    rw [hleap, h.tm_mday, h.tm_mon, hstart]
    by_cases hfeb : isLeap d.year = true ∧ 1 < d.month
    · rw [if_pos hfeb, if_pos ⟨hfeb.1, by omega⟩]
      omega
    · rw [if_neg hfeb, if_neg fun hand => hfeb ⟨hand.1, by omega⟩]
      omega
  have hday : timeT (yearsDay n + (monthStart d.year d.month + (d.day - 1) : Nat)) =
      d.number 1970 := by
    rw [yearsDay_eq (by omega), hnumber, ← Nat.cast_add, Nat.add_assoc]
    exact timeT_natCast (by omega)
  have hweek : timeT ((d.number 1970 : Int) + 4) = d.number 1970 + 4 :=
    timeT_natCast (n := d.number 1970 + 4) (by omega)
  have hlt := h.lt_day
  have hsecs : ((((d.number 1970 : Int) * 24 + t.tm_hour) * 60 + t.tm_min) * 60 + t.tm_sec) =
      (d.number 1970 * 86400 + secs : Nat) := by
    rw [h.tm_hour, h.tm_min, h.tm_sec]
    omega
  rw [hyday, hday, hweek, hsecs, timeT_natCast hsmall]
  obtain ⟨hsec, hmin, hhour, hmday, hmon, hyear', -⟩ := h
  unfold tmOf
  simp only [Option.some.injEq, Prod.mk.injEq, Tm.mk.injEq, and_true]
  and_intros <;> omega

/-! ## There and back -/

theorem tmOf_on (d : Date) {secs : Nat} (h : secs < 86400) : (tmOf d secs).On d secs :=
  ⟨rfl, rfl, rfl, rfl, rfl, rfl, h⟩

/-- `mktime` gives back every time. -/
theorem mktime_gmtime_r (timep : Nat) (h : timep < 2 ^ 32) :
    mktime (gmtime_r timep) = some (gmtime_r timep, timep) := by
  obtain ⟨d, hyear, hnumber, htm⟩ := gmtime_r_spec timep
  have hsum : d.number 1970 * 86400 + timep % 86400 = timep := by omega
  rw [htm, mktime_on (tmOf_on d (Nat.mod_lt _ (by decide))) hyear (by omega), hsum]

theorem mktime_gmtime_r_leap :
    mktime (gmtime_r 951782400) = some (gmtime_r 951782400, 951782400) :=
  mktime_gmtime_r 951782400 (by decide)

theorem gmtime_r_number (hyear : 1970 ≤ d.year) (h : secs < 86400) :
    gmtime_r (d.number 1970 * 86400 + secs) = tmOf d secs := by
  obtain ⟨d', hyear', hnumber, htm⟩ := gmtime_r_spec (d.number 1970 * 86400 + secs)
  obtain rfl := number_inj hyear' hyear (hnumber.trans (by omega))
  rw [htm, show (d'.number 1970 * 86400 + secs) % 86400 = secs by omega]

/-- A time on a date from 1970 on, as far as `time_t` goes, is given back by `gmtime_r`, with the
day of the week and of the year as `mktime` wrote them. -/
theorem gmtime_r_mktime (h : t.On d secs) (hyear : 1970 ≤ d.year)
    (hsmall : d.number 1970 * 86400 + secs < 2 ^ 32) :
    (mktime t).map (fun r => (r.1, gmtime_r r.2)) = some (tmOf d secs, tmOf d secs) := by
  rw [mktime_on h hyear hsmall, Option.map_some, gmtime_r_number hyear h.lt_day]

theorem gmtime_r_mktime_newYear :
    (mktime (tmOf (.newYear 2000) 5)).map (fun r => (r.1, gmtime_r r.2)) =
      some (tmOf (.newYear 2000) 5, tmOf (.newYear 2000) 5) :=
  gmtime_r_mktime (tmOf_on _ (by decide)) (by decide) (by decide)

/-! ## What mktime reads -/

end K64Gateway.Board.Time
