/-! Dates of the Gregorian calendar, extended to all years. -/

namespace FirmataSketch.Clock

structure Date where
  year : Int
  month : Nat
  day : Nat
  deriving DecidableEq, Repr

namespace Date

/-- The days before a month of a year that begins with March, which is month 0. -/
def daysBeforeMonth (m : Nat) : Nat := (153 * m + 2) / 5

/-- The days of a year of the 400-year cycle before its first one, for a year that begins with
March. -/
def daysBeforeYear (y : Nat) : Nat := 365 * y + y / 4 - y / 100

def cycleDays : Nat := 146097

/-- The number of days since 1 March of year 0. -/
def dayNumber (d : Date) : Int :=
  let y := if d.month ≤ 2 then d.year - 1 else d.year
  let inCycle := (y % 400).toNat
  let month := (d.month + 9) % 12
  y / 400 * cycleDays + (daysBeforeYear inCycle + daysBeforeMonth month + d.day : Nat) - 1

/-- The year of a cycle in which a day of the cycle lies. The last day of every 4, 100 and 400 years
does not begin a new year. -/
def yearOfCycle (n : Nat) : Nat := (n - n / 1460 + n / 36524 - n / 146096) / 365

def ofDayNumber (n : Int) : Date :=
  let inCycle := (n % cycleDays).toNat
  let year := yearOfCycle inCycle
  let inYear := inCycle - daysBeforeYear year
  let month := (5 * inYear + 2) / 153
  let day := inYear - daysBeforeMonth month + 1
  ⟨n / cycleDays * 400 + year + (if month < 10 then 0 else 1),
    if month < 10 then month + 3 else month - 9, day⟩

/-- Only the years from 1 to 9999 are shown. -/
def isShown (d : Date) : Bool := 1 ≤ d.year && d.year ≤ 9999

/-- The day of the week, counted from Wednesday: 1 March of year 0 was one. -/
def weekday (d : Date) : Nat := (d.dayNumber % 7).toNat

def weekdayName (d : Date) : String :=
  ["Wed", "Thu", "Fri", "Sat", "Sun", "Mon", "Tue"].getD d.weekday ""

def monthName (d : Date) : String :=
  ["Jan", "Feb", "Mar", "Apr", "May", "Jun", "Jul", "Aug", "Sep", "Oct", "Nov", "Dec"].getD
    (d.month - 1) ""

end Date

end FirmataSketch.Clock
