import Mathlib.Data.List.Range
import Mathlib.Logic.Function.Iterate
import Mathlib.Tactic.IntervalCases

/-
  Dates. A date knows the one after it, and a count of days numbers them.

  Proved: the date after another has the next number (`number_next`), dates from the first year on
  are told apart by their numbers (`number_inj`), and so the date of a number is the one that is
  reached from the first day in as many steps (`eq_iterate_next`).
-/

namespace Calendar

/-- Leap years. -/
def isLeap (year : Nat) : Bool := year % 4 == 0 && (year % 100 != 0 || year % 400 == 0)

def yearDays (year : Nat) : Nat := if isLeap year then 366 else 365

/-- The days of a month; January is 0. -/
def monthDays (year month : Nat) : Nat :=
  match month with
  | 1 => if isLeap year then 29 else 28
  | 3 | 5 | 8 | 10 => 30
  | _ => 31

/-- A day of a year. -/
@[ext] structure Date where
  year : Nat
  month : Nat
  day : Nat
  month_lt : month < 12
  day_pos : 0 < day
  day_le : day ≤ monthDays year month

theorem monthDays_pos (year month : Nat) : 0 < monthDays year month := by
  unfold monthDays
  split
  · split <;> omega
  · omega
  · omega
  · omega
  · omega
  · omega

/-- The first day of a year. -/
def Date.newYear (year : Nat) : Date :=
  ⟨year, 0, 1, by omega, Nat.one_pos, monthDays_pos year 0⟩

/-- The date after a date. -/
def Date.next (d : Date) : Date :=
  if h : d.day < monthDays d.year d.month then
    { d with day := d.day + 1, day_pos := Nat.succ_pos _, day_le := h }
  else if hmonth : d.month + 1 < 12 then
    ⟨d.year, d.month + 1, 1, hmonth, Nat.one_pos, monthDays_pos _ _⟩
  else .newYear (d.year + 1)

/-! ## Numbers -/

/-- The days of the months before a month. -/
def monthStart (year : Nat) : Nat → Nat
  | 0 => 0
  | month + 1 => monthStart year month + monthDays year month

/-- The days of the `n` years from a year on. -/
def yearsStart (first : Nat) : Nat → Nat
  | 0 => 0
  | n + 1 => yearsStart first n + yearDays (first + n)

/-- The number of a date, where the first day of the year `first` has the number 0. -/
def Date.number (first : Nat) (d : Date) : Nat :=
  yearsStart first (d.year - first) + monthStart d.year d.month + (d.day - 1)

variable {first : Nat} {d e : Date}

theorem monthStart_twelve (year : Nat) : monthStart year 12 = yearDays year := by
  unfold yearDays
  simp only [monthStart, monthDays]
  split <;> rfl

theorem monthStart_mono {year m n : Nat} (h : m ≤ n) : monthStart year m ≤ monthStart year n := by
  induction h with
  | refl => exact Nat.le_refl _
  | step _ ih => exact Nat.le_trans ih (Nat.le_add_right _ _)

theorem yearsStart_mono {m n : Nat} (h : m ≤ n) : yearsStart first m ≤ yearsStart first n := by
  induction h with
  | refl => exact Nat.le_refl _
  | step _ ih => exact Nat.le_trans ih (Nat.le_add_right _ _)

/-- A date lies in its month, and that in its year. -/
theorem Date.day_bound (d : Date) :
    monthStart d.year d.month + (d.day - 1) < monthStart d.year (d.month + 1) ∧
      monthStart d.year (d.month + 1) ≤ yearDays d.year := by
  have hpos := d.day_pos
  have hle := d.day_le
  refine ⟨?_, ?_⟩
  · show _ < monthStart d.year d.month + monthDays d.year d.month
    omega
  · rw [← monthStart_twelve]
    exact monthStart_mono d.month_lt

/-- The date after a date has the next number. -/
theorem number_next (h : first ≤ d.year) : d.next.number first = d.number first + 1 := by
  have hpos := d.day_pos
  have hle := d.day_le
  unfold Date.next
  split
  · unfold Date.number
    dsimp only
    omega
  · next hlast =>
    have hday : d.day = monthDays d.year d.month := by omega
    split
    · unfold Date.number
      dsimp only [monthStart]
      omega
    · next hmonth =>
      have hdec : d.month + 1 = 12 := by
        have hlt := d.month_lt
        omega
      have htwelve := monthStart_twelve d.year
      rw [← hdec] at htwelve
      have hyears : yearsStart first (d.year + 1 - first) =
          yearsStart first (d.year - first) + yearDays d.year := by
        rw [Nat.sub_add_comm h]
        show _ + yearDays (first + (d.year - first)) = _
        rw [Nat.add_sub_cancel' h]
      unfold Date.number Date.newYear
      dsimp only [monthStart] at htwelve ⊢
      omega

theorem le_year_next : d.year ≤ d.next.year := by
  unfold Date.next
  split
  · exact Nat.le_refl _
  · split
    · exact Nat.le_refl _
    · exact Nat.le_succ _

theorem year_eq_of_number_eq (hd : first ≤ d.year) (he : first ≤ e.year)
    (h : d.number first = e.number first) : d.year ≤ e.year := by
  by_contra hlt
  have hbound := e.day_bound
  have hyears : yearsStart first (e.year - first) + yearDays e.year ≤
      yearsStart first (d.year - first) := by
    have hstep : yearsStart first (e.year - first + 1) =
        yearsStart first (e.year - first) + yearDays e.year := by
      show _ + yearDays (first + (e.year - first)) = _
      rw [Nat.add_sub_cancel' he]
    rw [← hstep]
    exact yearsStart_mono (by omega)
  unfold Date.number at h
  omega

/-- Dates are told apart by their numbers. -/
theorem number_inj (hd : first ≤ d.year) (he : first ≤ e.year)
    (h : d.number first = e.number first) : d = e := by
  have hyear : d.year = e.year :=
    Nat.le_antisymm (year_eq_of_number_eq hd he h) (year_eq_of_number_eq he hd h.symm)
  have hboundD := d.day_bound
  have hboundE := e.day_bound
  unfold Date.number at h
  rw [hyear] at h hboundD
  have hmonth : d.month = e.month := by
    rcases Nat.lt_trichotomy d.month e.month with hlt | heq | hgt
    · have hmono : monthStart e.year (d.month + 1) ≤ monthStart e.year e.month :=
        monthStart_mono hlt
      omega
    · exact heq
    · have hmono : monthStart e.year (e.month + 1) ≤ monthStart e.year d.month :=
        monthStart_mono hgt
      omega
  rw [hmonth] at h
  have hposD := d.day_pos
  have hposE := e.day_pos
  exact Date.ext hyear hmonth (by omega)

theorem number_iterate_next (h : first ≤ d.year) (n : Nat) :
    first ≤ (Date.next^[n] d).year ∧ (Date.next^[n] d).number first = d.number first + n := by
  induction n with
  | zero => exact ⟨h, rfl⟩
  | succ n ih =>
    rw [Function.iterate_succ_apply']
    exact ⟨Nat.le_trans ih.1 le_year_next, by rw [number_next ih.1, ih.2, Nat.add_assoc]⟩

/-- The date with the number `n` is `n` days after the first. -/
theorem eq_iterate_next (h : first ≤ d.year) :
    d = Date.next^[d.number first] (.newYear first) := by
  obtain ⟨hle, hnumber⟩ := number_iterate_next (d := .newYear first) (Nat.le_refl first)
    (d.number first)
  refine number_inj h hle (hnumber.trans ?_).symm
  have hzero : (Date.newYear first).number first = 0 := by
    show yearsStart first (first - first) + 0 + 0 = 0
    rw [Nat.sub_self]
    rfl
  rw [hzero, Nat.zero_add]

end Calendar
