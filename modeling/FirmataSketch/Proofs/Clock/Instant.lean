import FirmataSketch.Clock.Moment
import FirmataSketch.Proofs.Clock.Calendar

/-! Instants: what a clock shows stands for an instant if the offset of the clock is known. The same
instant is shown by every clock, and far from the ends of the calendar every time can be shown. -/

namespace FirmataSketch.Clock

open Date (epochNumber)

theorem Date.isShown_iff {d : Date} : d.isShown = true ↔ 1 ≤ d.year ∧ d.year ≤ 9999 := by
  rw [Date.isShown, Bool.and_eq_true, decide_eq_true_eq, decide_eq_true_eq]

namespace Wall

structure IsValid (w : Wall) : Prop where
  date : w.date.IsValid
  hour : w.hour < 24
  minute : w.minute < 60
  second : w.second < 60

instance (w : Wall) : Decidable w.IsValid :=
  decidable_of_iff (_ ∧ _ ∧ _ ∧ _)
    ⟨fun h => ⟨h.1, h.2.1, h.2.2.1, h.2.2.2⟩, fun h => ⟨h.date, h.hour, h.minute, h.second⟩⟩

/-- A clock with the given offset shows this at the instant, which is counted in seconds from the start
of 1970 in UTC. -/
def IsAt (w : Wall) (offset t : Int) : Prop :=
  ∃ n, Date.IsDay n w.date ∧
    t = 86400 * n + (3600 * w.hour + 60 * w.minute + w.second : Nat) - offset

variable {w w' : Wall} {offset t t' : Int}

theorem isAt_iff :
    w.IsAt offset t ↔ w.date.IsValid ∧ w.seconds - offset = t + 86400 * epochNumber := by
  have hseconds : w.seconds =
      w.date.dayNumber * 86400 + (3600 * w.hour + 60 * w.minute + w.second : Nat) := rfl
  constructor
  · rintro ⟨n, hn, rfl⟩
    obtain ⟨hvalid, hnumber⟩ := Date.isDay_iff.1 hn
    exact ⟨hvalid, by omega⟩
  · rintro ⟨hvalid, ht⟩
    exact ⟨w.date.dayNumber - epochNumber, Date.isDay_iff.2 ⟨hvalid, by omega⟩, by omega⟩

instance (w : Wall) (offset t : Int) : Decidable (w.IsAt offset t) := decidable_of_iff _ isAt_iff.symm

theorem IsAt.unique (h : w.IsAt offset t) (h' : w.IsAt offset t') : t = t' := by
  obtain ⟨n, hn, rfl⟩ := h
  obtain ⟨n', hn', rfl⟩ := h'
  rw [hn.unique hn']

theorem IsValid.dayNumber_eq (h : w.IsValid) : w.date.dayNumber = w.seconds / 86400 := by
  obtain ⟨-, hhour, hminute, hsecond⟩ := h
  have hseconds : w.seconds =
      w.date.dayNumber * 86400 + (3600 * w.hour + 60 * w.minute + w.second : Nat) := rfl
  omega

theorem isValid_ofSeconds (s : Int) : (ofSeconds s).IsValid := by
  refine ⟨Date.isValid_ofDayNumber _, ?_, ?_, ?_⟩ <;>
  · simp only [ofSeconds, daySeconds]
    omega

theorem seconds_ofSeconds (s : Int) : (ofSeconds s).seconds = s := by
  simp only [seconds, ofSeconds, Date.dayNumber_ofDayNumber, daySeconds]
  omega

/-- What two clocks show that are at most a day apart lies in the same year or in neighbouring ones. -/
theorem IsValid.year_le (h : w.IsValid) (h' : w'.IsValid)
    (hs : (w'.seconds - w.seconds).natAbs ≤ 86400) :
    w.date.year ≤ w'.date.year + 1 ∧ w'.date.year ≤ w.date.year + 1 := by
  have hday := h.dayNumber_eq
  have hday' := h'.dayNumber_eq
  exact ⟨h.date.year_le h'.date (by omega), h'.date.year_le h.date (by omega)⟩

/-- The date is at least a year from the ends of the calendar. -/
def IsInside (w : Wall) : Prop := 2 ≤ w.date.year ∧ w.date.year ≤ 9998

instance (w : Wall) : Decidable w.IsInside := inferInstanceAs (Decidable (_ ∧ _))

/-- A clock that is put on or back by at most a day can show its time. -/
theorem IsValid.isShown_near (h : w.IsValid) (hinside : w.IsInside) (h' : w'.IsValid)
    (hs : (w'.seconds - w.seconds).natAbs ≤ 86400) : w'.date.isShown = true := by
  have hyears := h.year_le h' hs
  obtain ⟨hfirst, hlast⟩ := hinside
  exact Date.isShown_iff.2 (by omega)

theorem IsValid.checkYear_ofSeconds (h : w.IsValid) (hinside : w.IsInside) {s : Int}
    (hs : (s - w.seconds).natAbs ≤ 86400) : (ofSeconds s).checkYear = .ok () := by
  have hshown : (ofSeconds s).date.isShown = true :=
    h.isShown_near hinside (isValid_ofSeconds s) (by rwa [seconds_ofSeconds])
  rw [checkYear, hshown]
  rfl

end Wall

/-- In UTC the instant has a date that is at least a year from the ends of the calendar. -/
def IsInside (t : Int) : Prop := ∃ w : Wall, w.IsValid ∧ w.IsAt 0 t ∧ w.IsInside

/-- Every clock can show an instant that is inside the calendar. -/
theorem IsInside.isShown {t offset : Int} (h : IsInside t) {w : Wall} (hw : w.IsValid)
    (hat : w.IsAt offset t) (hoffset : offset.natAbs < 86400) : w.date.isShown = true := by
  obtain ⟨u, hu, hutc, hinside⟩ := h
  have hs := (Wall.isAt_iff.1 hat).2
  have hs' := (Wall.isAt_iff.1 hutc).2
  exact hu.isShown_near hinside hw (by omega)

namespace Moment

variable {m : Moment} {t : Int}

/-- A moment by another clock is the same instant. -/
theorem isAt_inZone (h : m.wall.IsAt m.zone.offset t) (z : Zone) :
    (m.inZone z).wall.IsAt z.offset t := by
  obtain ⟨-, ht⟩ := Wall.isAt_iff.1 h
  refine Wall.isAt_iff.2 ⟨(Wall.isValid_ofSeconds _).date, ?_⟩
  have hseconds : (m.inZone z).wall.seconds = m.instant + z.offset := Wall.seconds_ofSeconds _
  rw [hseconds, ← ht, instant]
  omega

theorem isShown_inZone (h : m.wall.IsAt m.zone.offset t) (hutc : IsInside t) {z : Zone}
    (hoffset : z.offset.natAbs < 86400) : (m.inZone z).wall.date.isShown = true := by
  have hvalid : (m.inZone z).wall.IsValid := Wall.isValid_ofSeconds _
  exact hutc.isShown hvalid (isAt_inZone h z) hoffset

end Moment

/-- What is meant by the time that is given to a clock, or by none: a moment, and the zone in which it
is shown. -/
inductive Means (c : Clock) : Option Time → Moment → Zone → Prop
  | naive (w : Wall) : Means c (some (.wall w)) ⟨w, c.localZone⟩ c.localZone
  | aware (m : Moment) : Means c (some (.moment m)) m m.zone
  | absent {m : Moment} (h : c.now = .moment m) : Means c none m c.localZone

/-- A time without an offset is taken by the clock of a zone; the times that are tried on the way are
less than a year off. -/
theorem Wall.inZone_ok {w : Wall} {z : Zone} {t : Int} (h : w.IsValid) (hat : w.IsAt z.offset t)
    (hoffset : z.offset.natAbs < 86400) (hutc : Clock.IsInside t) (hlocal : w.IsInside) :
    w.inZone z = .ok ⟨w, z⟩ := by
  have hguess : (Wall.ofSeconds (w.seconds + z.offset)).checkYear = .ok () :=
    h.checkYear_ofSeconds hlocal (by omega)
  have hbefore : (Wall.ofSeconds (w.seconds - Wall.daySeconds)).checkYear = .ok () := by
    refine h.checkYear_ofSeconds hlocal ?_
    unfold Wall.daySeconds
    omega
  have hshown : (Moment.inZone ⟨w, z⟩ .utc).wall.date.isShown = true :=
    Moment.isShown_inZone (m := ⟨w, z⟩) hat hutc (by decide)
  unfold Wall.inZone
  simp only [hguess, hbefore, hshown, if_true, bind, Except.bind]
  rfl

/-- The moment that is shown is the instant that is meant, by the clock of the zone; a time that was
given stands as it was given. -/
theorem Means.momentOf {c : Clock} {time : Option Time} {m : Moment} {z : Zone} {t : Int}
    (h : Means c time m z) (hm : m.wall.IsValid) (hat : m.wall.IsAt m.zone.offset t)
    (hoffset : z.offset.natAbs < 86400) (hutc : IsInside t)
    (hlocal : ∀ w, time = some (.wall w) → w.IsInside) :
    ∃ w, c.momentOf time = .ok ⟨w, z⟩ ∧ w.IsValid ∧ w.IsAt z.offset t ∧
      (time ≠ none → w = m.wall) := by
  cases h with
  | naive w =>
    exact ⟨w, Wall.inZone_ok hm hat hoffset hutc (hlocal w rfl), hm, hat, fun _ => rfl⟩
  | aware => exact ⟨m.wall, rfl, hm, hat, fun _ => rfl⟩
  | absent hnow =>
    have hseen : m.seenIn c.localZone = .ok (m.inZone c.localZone) := by
      have hinUtc : (m.inZone .utc).wall.date.isShown = true :=
        Moment.isShown_inZone hat hutc (by decide)
      rw [Moment.seenIn, hinUtc, Moment.isShown_inZone hat hutc hoffset]
      rfl
    refine ⟨(m.inZone c.localZone).wall, ?_, Wall.isValid_ofSeconds _, Moment.isAt_inZone hat _,
      fun hne => absurd rfl hne⟩
    rw [Clock.momentOf, current, hnow]
    exact hseen

end FirmataSketch.Clock
