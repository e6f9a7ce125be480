import FirmataSketch.Clock.Date
import Mathlib.Tactic.IntervalCases
import Mathlib.Tactic.Ring

/-! The calendar: the days in their order, each one the day after the one before. The number of a date
counts them, so dates and numbers stand for each other, and a day of the week comes back every seven
days. -/

namespace FirmataSketch.Clock

namespace Date

/-- Every fourth year has one more day, but of the full centuries only every fourth. -/
def IsLeap (y : Int) : Prop := y % 4 = 0 ∧ (y % 100 ≠ 0 ∨ y % 400 = 0)

instance (y : Int) : Decidable (IsLeap y) := inferInstanceAs (Decidable (_ ∧ _))

def monthLength (y : Int) (m : Nat) : Nat :=
  if m = 2 then (if IsLeap y then 29 else 28)
  else if m = 4 ∨ m = 6 ∨ m = 9 ∨ m = 11 then 30
  else 31

theorem monthLength_le (y : Int) (m : Nat) : monthLength y m ≤ 31 := by
  unfold monthLength
  split
  · split <;> omega
  · split <;> omega

structure IsValid (d : Date) : Prop where
  month : 1 ≤ d.month ∧ d.month ≤ 12
  day : 1 ≤ d.day ∧ d.day ≤ monthLength d.year d.month

instance (d : Date) : Decidable d.IsValid :=
  decidable_of_iff (_ ∧ _) ⟨fun h => ⟨h.1, h.2⟩, fun h => ⟨h.month, h.day⟩⟩

/-- The day after. -/
def next (d : Date) : Date :=
  if d.day < monthLength d.year d.month then { d with day := d.day + 1 }
  else if d.month < 12 then ⟨d.year, d.month + 1, 1⟩
  else ⟨d.year + 1, 1, 1⟩

/-- The days of the calendar, counted from the first one of 1970. -/
inductive IsDay : Int → Date → Prop
  | epoch : IsDay 0 ⟨1970, 1, 1⟩
  | next {n : Int} {d : Date} (h : IsDay n d) : IsDay (n + 1) d.next
  | previous {n : Int} {d : Date} (hd : d.IsValid) (h : IsDay n d.next) : IsDay (n - 1) d

variable {d d' : Date}

/-- The number of the first of March of a year. -/
def marchFirst (y : Int) : Int := 365 * y + y / 4 - y / 100 + y / 400

/-- The number of the first of a month. Years begin with March, so that the last month has the leap day. -/
def monthFirst (y : Int) (m : Nat) : Int :=
  marchFirst (if m ≤ 2 then y - 1 else y) + daysBeforeMonth ((m + 9) % 12)

theorem marchFirst_of_cycle (y : Int) :
    y / 400 * cycleDays + daysBeforeYear (y % 400).toNat = marchFirst y := by
  simp only [cycleDays, daysBeforeYear, marchFirst]
  omega

theorem dayNumber_eq (d : Date) : d.dayNumber = monthFirst d.year d.month + d.day - 1 := by
  rw [dayNumber, monthFirst, ← marchFirst_of_cycle]
  push_cast
  ring

/-- From one first of March to the next there are 337 days and a February. -/
theorem marchFirst_eq (y : Int) : marchFirst y = marchFirst (y - 1) + 337 + monthLength y 2 := by
  unfold marchFirst monthLength
  by_cases hy : IsLeap y
  · rw [if_pos rfl, if_pos hy]
    unfold IsLeap at hy
    omega
  · rw [if_pos rfl, if_neg hy]
    unfold IsLeap at hy
    omega

/-- Each month begins after all days of the month before it. -/
theorem monthFirst_succ (y : Int) {m : Nat} (hm : 1 ≤ m) (hm' : m < 12) :
    monthFirst y (m + 1) = monthFirst y m + monthLength y m := by
  have hmarch := marchFirst_eq y
  interval_cases m
  case «2» =>
    simp [monthFirst, daysBeforeMonth]
    omega
  all_goals simp [monthFirst, daysBeforeMonth, monthLength] <;> omega

theorem monthFirst_nextYear (y : Int) : monthFirst (y + 1) 1 = monthFirst y 12 + 31 := by
  simp [monthFirst, daysBeforeMonth]
  omega

theorem IsValid.next (h : d.IsValid) : d.next.IsValid := by
  obtain ⟨⟨hm, hm'⟩, hd, hd'⟩ := h
  unfold Date.next
  split
  next hlt => exact ⟨⟨hm, hm'⟩, Nat.le_add_left 1 d.day, hlt⟩
  next hlt =>
    split
    next hmonth =>
      refine ⟨⟨by simp, hmonth⟩, le_rfl, ?_⟩
      simp only [monthLength]
      split <;> split <;> omega
    next hmonth => exact ⟨by simp, by simp [monthLength]⟩

theorem dayNumber_next (h : d.IsValid) : d.next.dayNumber = d.dayNumber + 1 := by
  obtain ⟨⟨hm, hm'⟩, hd, hd'⟩ := h
  rw [dayNumber_eq, dayNumber_eq]
  unfold Date.next
  split
  next hlt =>
    dsimp only
    omega
  next hlt =>
    have hlast : d.day = monthLength d.year d.month := by omega
    split
    next hmonth =>
      have hfirst := monthFirst_succ d.year hm hmonth
      dsimp only
      omega
    next hmonth =>
      have hdecember : d.month = 12 := by omega
      have hfirst := monthFirst_nextYear d.year
      have hlength : monthLength d.year 12 = 31 := rfl
      rw [hdecember] at hlast ⊢
      dsimp only
      omega

/-- The number of the first day of a year. -/
def yearFirst (y : Int) : Int := monthFirst y 1

theorem yearFirst_eq (y : Int) : yearFirst y = marchFirst (y - 1) + 306 := rfl

theorem yearFirst_le {y y' : Int} (h : y ≤ y') : yearFirst y ≤ yearFirst y' := by
  simp only [yearFirst_eq, marchFirst]
  omega

theorem monthFirst_le {y : Int} {m m' : Nat} (hm : 1 ≤ m) (h : m ≤ m') (hm' : m' ≤ 12) :
    monthFirst y m ≤ monthFirst y m' := by
  induction m', h using Nat.le_induction with
  | base => exact le_rfl
  | succ m' h ih =>
    have hfirst := monthFirst_succ y (hm.trans h) hm'
    have hprevious := ih (by omega)
    omega

/-- All days of a month come before those of the later months of its year. -/
theorem IsValid.dayNumber_lt (h : d.IsValid) {m : Nat} (hm : d.month < m) (hm' : m ≤ 12) :
    d.dayNumber < monthFirst d.year m := by
  obtain ⟨⟨hmonth, -⟩, -, hd⟩ := h
  have hfirst := monthFirst_succ d.year hmonth (by omega)
  have hle : monthFirst d.year (d.month + 1) ≤ monthFirst d.year m :=
    monthFirst_le (by omega) hm hm'
  rw [dayNumber_eq]
  omega

/-- The days of a year come after its first one and before the first one of the next year. -/
theorem IsValid.dayNumber_bounds (h : d.IsValid) :
    yearFirst d.year ≤ d.dayNumber ∧ d.dayNumber < yearFirst (d.year + 1) := by
  have hfirst : monthFirst d.year 1 ≤ monthFirst d.year d.month :=
    monthFirst_le le_rfl h.month.1 h.month.2
  have hnext := monthFirst_nextYear d.year
  have hday := h.day
  constructor
  · rw [yearFirst, dayNumber_eq]
    omega
  · rcases Nat.lt_or_eq_of_le h.month.2 with hmonth | hmonth
    · have hlt := h.dayNumber_lt hmonth le_rfl
      rw [yearFirst]
      omega
    · have hlength : monthLength d.year 12 = 31 := rfl
      rw [yearFirst, dayNumber_eq, hmonth]
      rw [hmonth] at hday
      omega

/-- Different days have different numbers. -/
theorem IsValid.eq_of_dayNumber (h : d.IsValid) (h' : d'.IsValid)
    (hn : d.dayNumber = d'.dayNumber) : d = d' := by
  have hbounds := h.dayNumber_bounds
  have hbounds' := h'.dayNumber_bounds
  have hyear : d.year = d'.year := by
    rcases lt_trichotomy d.year d'.year with hlt | heq | hgt
    · have hle : yearFirst (d.year + 1) ≤ yearFirst d'.year := yearFirst_le hlt
      omega
    · exact heq
    · have hle : yearFirst (d'.year + 1) ≤ yearFirst d.year := yearFirst_le hgt
      omega
  have hnumber := dayNumber_eq d
  have hnumber' := dayNumber_eq d'
  have hday := h.day.1
  have hday' := h'.day.1
  have hmonth : d.month = d'.month := by
    rcases lt_trichotomy d.month d'.month with hlt | heq | hgt
    · have hbefore := h.dayNumber_lt hlt h'.month.2
      rw [hyear] at hbefore
      omega
    · exact heq
    · have hbefore := h'.dayNumber_lt hgt h.month.2
      rw [← hyear] at hbefore
      omega
  have hsame : d.day = d'.day := by
    rw [hyear, hmonth] at hnumber
    omega
  obtain ⟨y, m, day⟩ := d
  obtain ⟨y', m', day'⟩ := d'
  cases hyear
  cases hmonth
  cases hsame
  rfl

/-- The year of a cycle of 400 years, from the days before it: the centuries, the four years and the
years that are over, of which the last ones are a day longer. -/
theorem yearOfCycle_eq {c q s : Nat} (hc : c < 4) (hq : q < 25) (hs : s < 1461)
    (hcentury : 1461 * q + s < 36524) :
    yearOfCycle (36524 * c + (1461 * q + s)) = 100 * c + 4 * q + min (s / 365) 3 := by
  have hcenturies : (36524 * c + (1461 * q + s)) / 36524 = c := by omega
  have hcycles : (36524 * c + (1461 * q + s)) / 146096 = 0 := by omega
  have hfours : (36524 * c + (1461 * q + s)) / 1460 = 25 * c + q + (24 * c + q + s) / 1460 := by omega
  -- towards the end of four years their number is already one too high, which makes no difference
  have hend : (24 * c + q + s) / 1460 = 0 ∧ s < 1460 ∨
      (24 * c + q + s) / 1460 = 1 ∧ 1360 ≤ s := by omega
  rw [yearOfCycle, hcenturies, hcycles, hfours]
  omega

theorem yearOfCycle_spec {n : Nat} (h : n < cycleDays) :
    yearOfCycle n < 400 ∧ daysBeforeYear (yearOfCycle n) ≤ n ∧
      (n < daysBeforeYear (yearOfCycle n) + 365 ∨
        n = daysBeforeYear (yearOfCycle n) + 365 ∧ IsLeap (yearOfCycle n + 1)) := by
  unfold cycleDays at h
  by_cases hlast : n = 146096
  · subst hlast
    decide
  · obtain ⟨c, q, s, hc, hq, hs, hcentury, rfl⟩ : ∃ c q s, c < 4 ∧ q < 25 ∧ s < 1461 ∧
        1461 * q + s < 36524 ∧ n = 36524 * c + (1461 * q + s) :=
      ⟨n / 36524, n % 36524 / 1461, n % 36524 % 1461, by omega⟩
    have hfours : (100 * c + 4 * q + min (s / 365) 3) / 4 = 25 * c + q := by omega
    have hcenturies : (100 * c + 4 * q + min (s / 365) 3) / 100 = c := by omega
    rw [yearOfCycle_eq hc hq hs hcentury]
    unfold daysBeforeYear IsLeap
    rw [hfours, hcenturies]
    omega

/-- The date of a number: a year that begins with March, and in it a month and a day. -/
theorem ofDayNumber_eq (n : Int) : ∃ (y : Int) (i : Nat), n = marchFirst y + i ∧
    (i < 365 ∨ i = 365 ∧ IsLeap (y + 1)) ∧
    ofDayNumber n = ⟨y + (if (5 * i + 2) / 153 < 10 then 0 else 1),
      if (5 * i + 2) / 153 < 10 then (5 * i + 2) / 153 + 3 else (5 * i + 2) / 153 - 9,
      i - daysBeforeMonth ((5 * i + 2) / 153) + 1⟩ := by
  have hlt : (n % cycleDays).toNat < cycleDays := by
    unfold cycleDays
    omega
  obtain ⟨hyear, hle, hrest⟩ := yearOfCycle_spec hlt
  refine ⟨n / cycleDays * 400 + yearOfCycle (n % cycleDays).toNat,
    (n % cycleDays).toNat - daysBeforeYear (yearOfCycle (n % cycleDays).toNat), ?_, ?_, rfl⟩
  · have hcycle := marchFirst_of_cycle (n / cycleDays * 400 + yearOfCycle (n % cycleDays).toNat)
    have hcycles : (n / cycleDays * 400 + yearOfCycle (n % cycleDays).toNat) / 400 = n / cycleDays := by
      omega
    have hinCycle : ((n / cycleDays * 400 + yearOfCycle (n % cycleDays).toNat) % 400).toNat =
        yearOfCycle (n % cycleDays).toNat := by omega
    rw [hcycles, hinCycle] at hcycle
    unfold cycleDays at *
    omega
  · rcases hrest with hrest | ⟨hrest, hleap⟩
    · exact .inl (by omega)
    · refine .inr ⟨by omega, ?_⟩
      unfold IsLeap at *
      omega

theorem isValid_ofDayNumber (n : Int) : (ofDayNumber n).IsValid := by
  obtain ⟨y, i, -, hi, h⟩ := ofDayNumber_eq n
  have hmonth : (5 * i + 2) / 153 < 12 := by omega
  rw [h]
  generalize hk : (5 * i + 2) / 153 = k at *
  constructor
  · dsimp only
    split <;> omega
  · refine ⟨Nat.le_add_left 1 _, ?_⟩
    by_cases hfebruary : k = 11
    · -- only here can the day be one too many, and then the year has it
      subst hfebruary
      have hlength : monthLength (y + 1) 2 = if IsLeap (y + 1) then 29 else 28 := rfl
      have hbefore : daysBeforeMonth 11 = 337 := rfl
      change i - daysBeforeMonth 11 + 1 ≤ monthLength (y + 1) 2
      rw [hlength, hbefore]
      rcases hi with hi | ⟨rfl, hleap⟩
      · split <;> omega
      · rw [if_pos hleap]
    · interval_cases k <;> simp [monthLength, daysBeforeMonth] <;> omega

theorem dayNumber_ofDayNumber (n : Int) : (ofDayNumber n).dayNumber = n := by
  obtain ⟨y, i, hn, hi, h⟩ := ofDayNumber_eq n
  have hmonth : (5 * i + 2) / 153 < 12 := by omega
  have hday : daysBeforeMonth ((5 * i + 2) / 153) ≤ i := by
    unfold daysBeforeMonth
    omega
  rw [h, dayNumber_eq, hn, monthFirst]
  generalize (5 * i + 2) / 153 = k at *
  by_cases hk : k < 10
  · have hback : (k + 3 + 9) % 12 = k := by omega
    have hlate : ¬ k + 3 ≤ 2 := by omega
    simp only [if_pos hk, hback, if_neg hlate, Int.add_zero]
    omega
  · have hback : (k - 9 + 9) % 12 = k := by omega
    have hearly : k - 9 ≤ 2 := by omega
    simp only [if_neg hk, hback, if_pos hearly, Int.add_sub_cancel]
    omega

theorem ofDayNumber_eq_iff {n : Int} : ofDayNumber n = d ↔ d.IsValid ∧ d.dayNumber = n := by
  constructor
  · rintro rfl
    exact ⟨isValid_ofDayNumber n, dayNumber_ofDayNumber n⟩
  · rintro ⟨hd, rfl⟩
    exact (isValid_ofDayNumber _).eq_of_dayNumber hd (dayNumber_ofDayNumber _)

theorem next_ofDayNumber (n : Int) : (ofDayNumber n).next = ofDayNumber (n + 1) := by
  have hvalid := isValid_ofDayNumber n
  refine (ofDayNumber_eq_iff.2 ⟨hvalid.next, ?_⟩).symm
  rw [dayNumber_next hvalid, dayNumber_ofDayNumber]

/-- The number of the first day of 1970. -/
def epochNumber : Int := 719468

theorem isDay_ofDayNumber (n : Int) : IsDay n (ofDayNumber (n + epochNumber)) := by
  induction n using Int.induction_on with
  | zero => exact .epoch
  | succ n ih =>
    have hnext := ih.next
    rw [next_ofDayNumber] at hnext
    rwa [Int.add_right_comm]
  | pred n ih =>
    refine .previous (isValid_ofDayNumber _) ?_
    have hsame : -(n : Int) - 1 + epochNumber + 1 = -n + epochNumber := by omega
    rwa [next_ofDayNumber, hsame]

/-- The days of the calendar are the valid dates, in the order of their numbers. -/
theorem isDay_iff {n : Int} : IsDay n d ↔ d.IsValid ∧ d.dayNumber = n + epochNumber := by
  constructor
  · intro h
    induction h with
    | epoch => exact ⟨by decide, rfl⟩
    | next h ih => exact ⟨ih.1.next, by rw [dayNumber_next ih.1, ih.2]; omega⟩
    | previous hd h ih =>
      have hnext := dayNumber_next hd
      exact ⟨hd, by omega⟩
  · intro h
    rw [← ofDayNumber_eq_iff.2 h]
    exact isDay_ofDayNumber n

theorem IsDay.unique {n n' : Int} (h : IsDay n d) (h' : IsDay n' d) : n = n' := by
  have hn := (isDay_iff.1 h).2
  have hn' := (isDay_iff.1 h').2
  omega

theorem IsValid.exists_isDay (h : d.IsValid) : ∃ n, IsDay n d :=
  ⟨d.dayNumber - epochNumber, isDay_iff.2 ⟨h, by omega⟩⟩

/-- From one day to the next the year goes up by at most one. -/
theorem IsValid.year_le (h : d.IsValid) (h' : d'.IsValid) (hn : d.dayNumber ≤ d'.dayNumber + 1) :
    d.year ≤ d'.year + 1 := by
  by_contra hyear
  have hbounds := h.dayNumber_bounds
  have hbounds' := h'.dayNumber_bounds
  have hyears : yearFirst (d'.year + 1 + 1) ≤ yearFirst d.year := yearFirst_le (by omega)
  have hlonger : yearFirst (d'.year + 1) < yearFirst (d'.year + 1 + 1) := by
    simp only [yearFirst_eq, marchFirst]
    omega
  omega

/-- The day of the week of a day of the calendar: the first day of 1970 was a Thursday. -/
def weekdayOf (n : Int) : String :=
  ["Thu", "Fri", "Sat", "Sun", "Mon", "Tue", "Wed"].getD (n % 7).toNat ""

theorem IsDay.weekdayName_eq {n : Int} (h : IsDay n d) : d.weekdayName = weekdayOf n := by
  have hnumber := (isDay_iff.1 h).2
  have hweekday : d.weekday = ((n % 7).toNat + 1) % 7 := by
    rw [weekday, hnumber, epochNumber]
    omega
  have hlt : (n % 7).toNat < 7 := by omega
  rw [weekdayName, hweekday, weekdayOf]
  generalize (n % 7).toNat = k at *
  interval_cases k <;> rfl

end Date

end FirmataSketch.Clock
