import FirmataSketch.Proofs.Clock.Instant
import FirmataSketch.Proofs.Sketch.Banner

/-! Stamps: the date, the time and the offset are read back from the text of a stamp, and they stand for
the instant that was meant when the stamp was asked for. -/

namespace FirmataSketch.Clock

open Text (digit? natural? padded)

/-- What a stamp says before it names its zone. -/
structure Stamp where
  weekday : String
  wall : Wall
  offset : Int
  deriving DecidableEq, Repr

namespace Stamp

def number? (cs : List Char) : Option Nat := natural? digit? cs

def month? (cs : List Char) : Option Nat :=
  (["Jan", "Feb", "Mar", "Apr", "May", "Jun", "Jul", "Aug", "Sep", "Oct", "Nov", "Dec"].findIdx?
    (·.toList == cs)).map (· + 1)

/-- Hours, minutes and seconds between colons. -/
def time? (cs : List Char) : Option (Nat × Nat × Nat) :=
  match cs.splitOn ':' with
  | [hour, minute, second] => do return (← number? hour, ← number? minute, ← number? second)
  | _ => none

def seconds? : List Char → Option Nat
  | [h, h', m, m'] => do return 3600 * (← number? [h, h']) + 60 * (← number? [m, m'])
  | [h, h', m, m', s, s'] => do
    return 3600 * (← number? [h, h']) + 60 * (← number? [m, m']) + (← number? [s, s'])
  | _ => none

/-- An offset after `GMT`: a sign, hours and minutes, and seconds if there are any. -/
def offset? : List Char → Option Int
  | 'G' :: 'M' :: 'T' :: '+' :: cs => (seconds? cs).map Int.ofNat
  | 'G' :: 'M' :: 'T' :: '-' :: cs => (seconds? cs).map fun n : Nat => -(n : Int)
  | _ => none

/-- Reads a stamp. The name of the zone is not looked at. -/
def ofText? (s : String) : Option Stamp :=
  match s.toList.splitOn ' ' with
  | weekday :: month :: day :: year :: time :: zone :: _ => do
    let date := ⟨← number? year, ← month? month, ← number? day⟩
    let (hour, minute, second) ← time? time
    return ⟨String.ofList weekday, ⟨date, hour, minute, second⟩, ← offset? zone⟩
  | _ => none

theorem toList_padded_two {n : Nat} (h : n < 100) :
    (padded 2 n).toList = [Nat.digitChar (n / 10), Nat.digitChar (n % 10)] := by
  have hall : ∀ n, n < 100 → (padded 2 n).toList = [Nat.digitChar (n / 10), Nat.digitChar (n % 10)] := by
    decide
  exact hall n h

theorem number?_digits {n : Nat} (h : n < 100) :
    number? [Nat.digitChar (n / 10), Nat.digitChar (n % 10)] = some n := by
  have hall : ∀ n, n < 100 → number? [Nat.digitChar (n / 10), Nat.digitChar (n % 10)] = some n := by
    decide
  exact hall n h

theorem number?_padded_two {n : Nat} (h : n < 100) : number? (padded 2 n).toList = some n := by
  rw [toList_padded_two h, number?_digits h]

theorem not_mem_padded {c : Char} (hc : c ∉ "0123456789".toList) (width n : Nat) :
    c ∉ (padded width n).toList := by
  intro hmem
  rw [padded, String.toList_ofList, List.mem_append, List.mem_replicate] at hmem
  rcases hmem with ⟨-, rfl⟩ | hmem
  · exact hc (by decide)
  · exact hc (Text.mem_digits_of_mem_toDigits hmem)

theorem number?_decimal (n : Nat) : number? (Text.decimal n).toList = some n := by
  rw [Text.toList_decimal]
  exact Text.natural?_toDigits n

theorem month?_monthName {d : Date} (h : 1 ≤ d.month ∧ d.month ≤ 12) :
    month? d.monthName.toList = some d.month := by
  have hall : ∀ k, k < 12 → month? (["Jan", "Feb", "Mar", "Apr", "May", "Jun", "Jul", "Aug", "Sep",
      "Oct", "Nov", "Dec"].getD k "").toList = some (k + 1) := by decide
  have hmonth := hall (d.month - 1) (by omega)
  rwa [Nat.sub_add_cancel h.1] at hmonth

/-- The digits of an offset. -/
def offsetDigits (n : Nat) : List Char :=
  (padded 2 (n / 3600)).toList ++ (padded 2 (n / 60 % 60)).toList ++
    if n % 60 = 0 then [] else (padded 2 (n % 60)).toList

theorem seconds?_offsetDigits {n : Nat} (h : n < 86400) : seconds? (offsetDigits n) = some n := by
  have hhour : n / 3600 < 100 := by omega
  have hminute : n / 60 % 60 < 100 := by omega
  have hsecond : n % 60 < 100 := by omega
  rw [offsetDigits, toList_padded_two hhour, toList_padded_two hminute, toList_padded_two hsecond]
  split
  · simp only [List.cons_append, List.nil_append, seconds?, number?_digits hhour,
      number?_digits hminute, Option.bind_eq_bind, Option.bind_some, Option.pure_def, Option.some.injEq]
    omega
  · simp only [List.cons_append, List.nil_append, seconds?, number?_digits hhour,
      number?_digits hminute, number?_digits hsecond, Option.bind_eq_bind, Option.bind_some,
      Option.pure_def, Option.some.injEq]
    omega

theorem toList_offsetText (offset : Int) : (Zone.offsetText "" offset).toList =
    (if offset < 0 then '-' else '+') :: offsetDigits offset.natAbs := by
  simp only [Zone.offsetText, offsetDigits, String.toList_append]
  split <;> split <;> simp

theorem offset?_offsetText {offset : Int} (h : offset.natAbs < 86400) :
    offset? ('G' :: 'M' :: 'T' :: (Zone.offsetText "" offset).toList) = some offset := by
  rw [toList_offsetText]
  split
  next hneg =>
    rw [offset?, seconds?_offsetDigits h, Option.map_some, Option.some.injEq]
    omega
  next hpos =>
    rw [offset?, seconds?_offsetDigits h, Option.map_some, Option.some.injEq, Int.ofNat_eq_natCast]
    omega

theorem time?_padded {hour minute second : Nat} (hhour : hour < 100) (hminute : minute < 100)
    (hsecond : second < 100) :
    time? ((padded 2 hour).toList ++ ':' :: ((padded 2 minute).toList ++ ':' ::
      (padded 2 second).toList)) = some (hour, minute, second) := by
  have hcolon (n : Nat) : ':' ∉ (padded 2 n).toList := not_mem_padded (by decide) 2 n
  rw [time?, List.splitOn_append_cons_self_of_not_mem (hcolon hour),
    List.splitOn_append_cons_self_of_not_mem (hcolon minute), List.splitOn_eq_singleton (hcolon second)]
  simp only [number?_padded_two hhour, number?_padded_two hminute, number?_padded_two hsecond,
    Option.bind_eq_bind, Option.bind_some, Option.pure_def]

section

variable {c : Char} (hc : c ∉ "0123456789".toList)

include hc

theorem not_mem_decimal (hminus : c ≠ '-') (n : Int) : c ∉ (Text.decimal n).toList := by
  have hdigits : c ∉ Nat.toDigits 10 n.natAbs := fun hmem => hc (Text.mem_digits_of_mem_toDigits hmem)
  rcases Text.toList_decimal_cases n with h | h
  · rw [h]
    exact hdigits
  · rw [h, List.mem_cons, not_or]
    exact ⟨hminus, hdigits⟩

theorem not_mem_offsetDigits (n : Nat) : c ∉ offsetDigits n := by
  have hseconds : c ∉ if n % 60 = 0 then [] else (padded 2 (n % 60)).toList := by
    split
    · exact List.not_mem_nil
    · exact not_mem_padded hc 2 _
  simp only [offsetDigits, List.mem_append, not_or]
  exact ⟨⟨not_mem_padded hc 2 _, not_mem_padded hc 2 _⟩, hseconds⟩

end

theorem not_mem_entry {c : Char} {names : List String}
    (h : (names.all fun s => decide (c ∉ s.toList)) = true) (n : Nat) :
    c ∉ (names.getD n "").toList := by
  rw [List.getD_eq_getElem?_getD]
  cases hn : names[n]? with
  | none => exact List.not_mem_nil
  | some name => exact of_decide_eq_true (List.all_eq_true.1 h name (List.mem_of_getElem? hn))

/-- The words of a stamp up to its offset. Spaces in the name of its zone make more words after them. -/
theorem words_stamp (m : Moment) : ∃ rest, m.stamp.toList.splitOn ' ' =
    m.wall.date.weekdayName.toList :: m.wall.date.monthName.toList ::
      (padded 2 m.wall.date.day).toList :: (Text.decimal m.wall.date.year).toList ::
      ((padded 2 m.wall.hour).toList ++ ':' :: ((padded 2 m.wall.minute).toList ++ ':' ::
        (padded 2 m.wall.second).toList)) ::
      ('G' :: 'M' :: 'T' :: (Zone.offsetText "" m.zone.offset).toList) :: rest := by
  obtain ⟨tail, hstart⟩ := m.stamp_start
  have htext : m.stamp.toList = m.wall.date.weekdayName.toList ++ ' ' ::
      (m.wall.date.monthName.toList ++ ' ' :: ((padded 2 m.wall.date.day).toList ++ ' ' ::
        ((Text.decimal m.wall.date.year).toList ++ ' ' ::
          (((padded 2 m.wall.hour).toList ++ ':' :: ((padded 2 m.wall.minute).toList ++ ':' ::
            (padded 2 m.wall.second).toList)) ++ ' ' ::
            (('G' :: 'M' :: 'T' :: (Zone.offsetText "" m.zone.offset).toList) ++ ' ' ::
              ('(' :: tail)))))) := by
    rw [hstart, Moment.beforeZone]
    simp
  have hdigits : ' ' ∉ "0123456789".toList := by decide
  have hweekday : ' ' ∉ m.wall.date.weekdayName.toList := not_mem_entry (by decide) _
  have hmonth : ' ' ∉ m.wall.date.monthName.toList := not_mem_entry (by decide) _
  have hpadded (n : Nat) : ' ' ∉ (padded 2 n).toList := not_mem_padded hdigits 2 n
  have hyear := not_mem_decimal hdigits (by decide) m.wall.date.year
  have htime : ' ' ∉ (padded 2 m.wall.hour).toList ++ ':' :: ((padded 2 m.wall.minute).toList ++ ':' ::
      (padded 2 m.wall.second).toList) := by
    simp [hpadded]
  have hzone : ' ' ∉ 'G' :: 'M' :: 'T' :: (Zone.offsetText "" m.zone.offset).toList := by
    have hsign : ' ' ≠ if m.zone.offset < 0 then '-' else '+' := by split <;> decide
    simp [toList_offsetText, hsign, not_mem_offsetDigits hdigits]
  refine ⟨('(' :: tail).splitOn ' ', ?_⟩
  rw [htext, List.splitOn_append_cons_self_of_not_mem hweekday,
    List.splitOn_append_cons_self_of_not_mem hmonth,
    List.splitOn_append_cons_self_of_not_mem (hpadded _),
    List.splitOn_append_cons_self_of_not_mem hyear, List.splitOn_append_cons_self_of_not_mem htime,
    List.splitOn_append_cons_self_of_not_mem hzone]

/-- A stamp is read as what it was written from. -/
theorem ofText?_stamp {m : Moment} (hm : m.wall.IsValid) (hyear : 0 ≤ m.wall.date.year)
    (hoffset : m.zone.offset.natAbs < 86400) :
    ofText? m.stamp = some ⟨m.wall.date.weekdayName, m.wall, m.zone.offset⟩ := by
  obtain ⟨rest, hwords⟩ := words_stamp m
  obtain ⟨⟨hmonth, -, hlast⟩, hhour, hminute, hsecond⟩ := hm
  have hday : m.wall.date.day < 100 := by
    have hlength := Date.monthLength_le m.wall.date.year m.wall.date.month
    omega
  have hnumber : number? (Text.decimal m.wall.date.year).toList = some m.wall.date.year.toNat := by
    obtain ⟨n, hn⟩ := Int.eq_ofNat_of_zero_le hyear
    rw [hn]
    exact number?_decimal n
  have hback : (m.wall.date.year.toNat : Int) = m.wall.date.year := Int.toNat_of_nonneg hyear
  rw [ofText?, hwords]
  simp only [hnumber, month?_monthName hmonth, number?_padded_two hday,
    time?_padded (hhour.trans (by decide)) (hminute.trans (by decide)) (hsecond.trans (by decide)),
    offset?_offsetText hoffset, Option.bind_eq_bind, Option.bind_some, Option.pure_def, hback,
    String.ofList_toList]

end Stamp

/-- What is printed in a banner before the name of the zone stands for the instant that is meant, with
the offset of the zone in which it is shown, and a time that was given stands as it was given. The day
of the week is that of the day that is printed. The instant has to be a year from the ends of the
calendar in UTC, and a time without an offset has to be so by itself. -/
theorem banner_instant {c : Clock} {time : Option Time} {m : Moment} {z : Zone} {t : Int}
    (hmeans : Means c time m z) (hm : m.wall.IsValid) (hat : m.wall.IsAt m.zone.offset t)
    (hoffset : z.offset.natAbs < 86400) (hutc : IsInside t)
    (hlocal : ∀ w, time = some (.wall w) → w.IsInside) (filename : Value) :
    ∃ shown stamp n, c.momentOf time = .ok shown ∧
      (Sketch.bannerBlock filename shown).lines[2]? = some (" * " ++ shown.stamp) ∧
      Stamp.ofText? shown.stamp = some stamp ∧ stamp.offset = z.offset ∧
      (time ≠ none → stamp.wall = m.wall) ∧ (∀ t', stamp.wall.IsAt stamp.offset t' ↔ t' = t) ∧
      stamp.wall.date.IsDay n ∧ stamp.weekday = Date.weekdayOf n := by
  obtain ⟨w, hmoment, hw, hshown, hgiven⟩ := hmeans.momentOf hm hat hoffset hutc hlocal
  obtain ⟨n, hn⟩ := hw.date.exists_isDay
  have hyear := Date.isShown_iff.1 (hutc.isShown hw hshown hoffset)
  have hread := Stamp.ofText?_stamp (m := ⟨w, z⟩) hw (le_trans (by decide) hyear.1) hoffset
  refine ⟨⟨w, z⟩, _, n, hmoment, rfl, hread, rfl, hgiven, fun t' => ?_, hn, hn.weekdayName_eq⟩
  constructor
  · exact fun h => h.unique hshown
  · rintro rfl
    exact hshown

/-- The last evening of 2023 by a clock that is two hours behind is the morning of the next year by one
that is ahead by some seconds too; and the end of a leap day that is taken as local time. -/
theorem banner_instant_newYear :
    (∃ shown stamp n, Clock.momentOf ⟨.moment ⟨⟨⟨2023, 12, 31⟩, 20, 0, 0⟩, ⟨-7200, ""⟩⟩,
        ⟨21208, "LMT"⟩⟩ none = .ok shown ∧
      shown.stamp = "Mon Jan 01 2024 03:53:28 GMT+055328 (LMT)" ∧
      Stamp.ofText? shown.stamp = some stamp ∧ stamp.offset = 21208 ∧
      (∀ t', stamp.wall.IsAt stamp.offset t' ↔ t' = 1704060000) ∧
      stamp.wall.date.IsDay n ∧ stamp.weekday = Date.weekdayOf n) ∧
    ∃ shown stamp, Clock.momentOf ⟨.moment .epoch, ⟨-18000, "EST"⟩⟩
        (some (.wall ⟨⟨2024, 2, 29⟩, 23, 30, 0⟩)) = .ok shown ∧
      shown.stamp = "Thu Feb 29 2024 23:30:00 GMT-0500 (EST)" ∧
      Stamp.ofText? shown.stamp = some stamp ∧ stamp.wall = ⟨⟨2024, 2, 29⟩, 23, 30, 0⟩ ∧
      ∀ t', stamp.wall.IsAt stamp.offset t' ↔ t' = 1709267400 := by
  constructor
  · have hnow : Wall.IsAt ⟨⟨2023, 12, 31⟩, 20, 0, 0⟩ (-7200) 1704060000 := by decide
    have hutc : IsInside 1704060000 := ⟨⟨⟨2023, 12, 31⟩, 22, 0, 0⟩, by decide⟩
    obtain ⟨shown, stamp, n, hshown, -, hread, hoffset, -, hinstant, hday, hweekday⟩ := banner_instant
      (c := ⟨.moment ⟨⟨⟨2023, 12, 31⟩, 20, 0, 0⟩, ⟨-7200, ""⟩⟩, ⟨21208, "LMT"⟩⟩) (.absent rfl)
      (by decide) hnow (by decide) hutc nofun .null
    refine ⟨shown, stamp, n, hshown, ?_, hread, hoffset, hinstant, hday, hweekday⟩
    cases hshown
    decide
  · have hgiven : Wall.IsAt ⟨⟨2024, 2, 29⟩, 23, 30, 0⟩ (-18000) 1709267400 := by decide
    have hutc : IsInside 1709267400 := ⟨⟨⟨2024, 3, 1⟩, 4, 30, 0⟩, by decide⟩
    have hlocal (w : Wall) (hw : some (Time.wall ⟨⟨2024, 2, 29⟩, 23, 30, 0⟩) = some (.wall w)) :
        w.IsInside := by
      cases hw
      decide
    obtain ⟨shown, stamp, n, hshown, -, hread, -, hwall, hinstant, -, -⟩ := banner_instant
      (c := ⟨.moment .epoch, ⟨-18000, "EST"⟩⟩) (.naive _) (by decide) hgiven (by decide) hutc hlocal .null
    refine ⟨shown, stamp, hshown, ?_, hread, hwall nofun, hinstant⟩
    cases hshown
    decide

end FirmataSketch.Clock
