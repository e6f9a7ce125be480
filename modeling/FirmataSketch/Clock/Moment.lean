import FirmataSketch.Clock.Date
import FirmataSketch.Clock.Zone

/-! Moments: what a wall clock shows, and in which zone it hangs. -/

namespace FirmataSketch

namespace Clock

structure Wall where
  date : Date
  hour : Nat
  minute : Nat
  second : Nat
  deriving DecidableEq, Repr

namespace Wall

def daySeconds : Nat := 86400

/-- The seconds since the start of 1 March of year 0. -/
def seconds (w : Wall) : Int :=
  w.date.dayNumber * daySeconds + (3600 * w.hour + 60 * w.minute + w.second : Nat)

def ofSeconds (s : Int) : Wall :=
  let n := (s % daySeconds).toNat
  ⟨Date.ofDayNumber (s / daySeconds), n / 3600, n / 60 % 60, n % 60⟩

end Wall

structure Moment where
  wall : Wall
  zone : Zone
  deriving DecidableEq, Repr

namespace Moment

def instant (m : Moment) : Int := m.wall.seconds - m.zone.offset

def inZone (m : Moment) (z : Zone) : Moment := ⟨Wall.ofSeconds (m.instant + z.offset), z⟩

def epoch : Moment := ⟨⟨⟨1970, 1, 1⟩, 0, 0, 0⟩, .utc⟩

def ofEpochSeconds (s : Int) : Moment := ⟨Wall.ofSeconds (epoch.instant + s), .utc⟩

/-- The date and time in the form `Mon Oct 19 2026 12:00:00 GMT+0000 (UTC)`. -/
def fullStamp (m : Moment) : String :=
  let d := m.wall.date
  d.weekdayName ++ " " ++ d.monthName ++ " " ++ Text.padded 2 d.day ++ " " ++
    Text.decimal d.year ++ " " ++ Text.padded 2 m.wall.hour ++ ":" ++
    Text.padded 2 m.wall.minute ++ ":" ++ Text.padded 2 m.wall.second ++ " GMT" ++
    Zone.offsetText "" m.zone.offset ++ " (" ++ m.zone.name ++ ")"

/-- A stamp ends before the first null character, which only the name of a zone can bring in. -/
def stamp (m : Moment) : String :=
  String.ofList (m.fullStamp.toList.takeWhile (· != Char.ofNat 0))

end Moment

/-- Why a time cannot be shown: a clock would have to show the given year, or a moment is too early
or too late. -/
inductive Fault where
  | year (y : Int)
  | range
  deriving DecidableEq, Repr

def Fault.message : Fault → String
  | .year y => "year " ++ Text.decimal y ++ " is out of range"
  | .range => "date value out of range"

def Wall.checkYear (w : Wall) : Except Fault Unit :=
  if w.date.isShown then .ok () else .error (.year w.date.year)

/-- The moment at which the clock of a zone shows the given time. The offset there is asked for at
that time in UTC and, in case the clock was just put back, a day before, so the clock must be able
to show both. -/
def Wall.inZone (w : Wall) (z : Zone) : Except Fault Moment := do
  (Wall.ofSeconds (w.seconds + z.offset)).checkYear
  (Wall.ofSeconds (w.seconds - Wall.daySeconds)).checkYear
  let m : Moment := ⟨w, z⟩
  if (m.inZone .utc).wall.date.isShown then return m else throw .range

/-- A moment by the clock of a zone. It is brought to UTC first. -/
def Moment.seenIn (m : Moment) (z : Zone) : Except Fault Moment :=
  if (m.inZone .utc).wall.date.isShown && (m.inZone z).wall.date.isShown then .ok (m.inZone z)
  else .error .range

inductive Time where
  | wall (w : Wall)
  | moment (m : Moment)
  deriving DecidableEq, Repr

end Clock

structure Clock where
  now : Clock.Time
  localZone : Clock.Zone
  deriving DecidableEq, Repr

namespace Clock

def current (c : Clock) : Except Fault Moment :=
  match c.now with
  | .wall w => w.inZone c.localZone
  | .moment m => m.seenIn c.localZone

/-- The moment that a banner shows. A given moment keeps its zone; without a time the current one is
meant. -/
def momentOf (c : Clock) : Option Time → Except Fault Moment
  | none => c.current
  | some (.wall w) => w.inZone c.localZone
  | some (.moment m) => .ok m

end Clock

end FirmataSketch
