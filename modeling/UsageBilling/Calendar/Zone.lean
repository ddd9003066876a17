import UsageBilling.Calendar.Instant
import UsageBilling.Error

/-! Time zones and the date an instant has in one. A zone is a fixed offset or a named zone with an
offset and, in some, daylight saving: one hour more between two Sundays of the year. The rules are
known to the end of 2037; from 2038 on a zone keeps the offset it ended that year with. -/

namespace UsageBilling

/-- Which Sunday of a month. -/
inductive SundayOf where
  | nth (week month : Nat)
  | last (month : Nat)
  deriving DecidableEq

namespace SundayOf

/-- The first Sunday on or after a day number; the days divisible by seven are Sundays. -/
def onOrAfter (ordinal : Nat) : Nat := (ordinal + 6) / 7 * 7

/-- The day number of the Sunday in a year. -/
def ordinal (year : Nat) : SundayOf → Nat
  | nth week month => onOrAfter (Month.of year month).start + 7 * (week - 1)
  | last month => onOrAfter ((Month.of year month).start + (Month.of year month).length - 7)

end SundayOf

/-- A change of the clocks: a Sunday, and the UTC time of the change in minutes from its midnight. -/
structure ClockChange where
  sunday : SundayOf
  minute : Int
  deriving DecidableEq

/-- The count of UTC microseconds at which the clocks change in a year. -/
def ClockChange.instant (c : ClockChange) (year : Nat) : Int :=
  c.sunday.ordinal year * dayLength + c.minute * 60000000

/-- The two changes of a year that start and end daylight saving. -/
structure Saving where
  start : ClockChange
  finish : ClockChange
  deriving DecidableEq

namespace Saving

/-- The last year whose changes are known. -/
def lastYear : Nat := 2037

/-- Whether daylight saving is in force in a year at a count of UTC microseconds. Where it starts
later in the year than it ends, it lasts over the turn of the year. -/
def inForceIn (s : Saving) (year : Nat) (utc : Int) : Bool :=
  if s.start.instant year < s.finish.instant year then
    s.start.instant year ≤ utc && utc < s.finish.instant year
  else s.start.instant year ≤ utc || utc < s.finish.instant year

/-- Whether daylight saving is in force. After the last known change it stays as that change left it. -/
def inForce (s : Saving) (utc : Int) : Bool :=
  let year := Date.yearOf (utc / dayLength).toNat
  if lastYear < year then s.finish.instant lastYear < s.start.instant lastYear
  else s.inForceIn year utc

end Saving

/-- A time zone; offsets are in minutes east of UTC. -/
inductive Zone where
  | fixed (minutes : Int)
  | named (name : String) (minutes : Int) (saving : Option Saving)
  deriving DecidableEq

namespace Zone

def utc : Zone := .named "UTC" 0 none

/-- The offset in minutes in force at a count of UTC microseconds. -/
def offsetAt (z : Zone) (utc : Int) : Int :=
  match z with
  | fixed minutes => minutes
  | named _ minutes none => minutes
  | named _ minutes (some s) => if s.inForce utc then minutes + 60 else minutes

/-- The date of an instant in a zone. Both the UTC clock and the clock of the zone must show a date. -/
def localDate (z : Zone) (i : Instant) : Except Calendar.Fault Date := do
  let utc ← i.utc?
  Instant.dateAt (utc + z.offsetAt utc * 60000000)

/-! ### Names -/

/-- Daylight saving from the second Sunday of March to the first of November, changed at two o'clock
of the clock in force, for a zone `west` minutes west of UTC. -/
def northAmerican (west : Int) : Saving :=
  ⟨⟨.nth 2 3, 120 + west⟩, ⟨.nth 1 11, 60 + west⟩⟩

/-- Daylight saving from the last Sunday of March to the last of October, changed at one o'clock UTC. -/
def european : Saving := ⟨⟨.last 3, 60⟩, ⟨.last 10, 60⟩⟩

/-- Daylight saving from the first Sunday of October to the first of April, changed at two o'clock
standard time, ten hours east of UTC. -/
def australian : Saving := ⟨⟨.nth 1 10, -480⟩, ⟨.nth 1 4, -480⟩⟩

/-- The zones known by name, with the rules that hold from 2023 on; these are taken to hold in earlier years as
well, which is wrong for some of the zones. The list is a part of the zone database: its other names are not known
here. -/
def known : List Zone := [
  utc,
  .named "America/New_York" (-300) (some (northAmerican 300)),
  .named "America/St_Johns" (-210) (some (northAmerican 210)),
  .named "Europe/Paris" 60 (some european),
  .named "Europe/London" 0 (some european),
  .named "Asia/Tokyo" 540 none,
  .named "Asia/Kolkata" 330 none,
  .named "Asia/Kathmandu" 345 none,
  .named "Australia/Sydney" 600 (some australian),
  .named "Pacific/Kiritimati" 840 none,
  .named "Pacific/Pago_Pago" (-660) none,
  .named "Etc/GMT+5" (-300) none]

/-- The canonical name of a named zone. -/
def name? : Zone → Option String
  | named name _ _ => some name
  | fixed _ => none

/-- A name in which the signs are spelled out, with the signs put back. -/
def withSigns (name : String) : String := (name.replace "_plus_" "+").replace "_minus_" "-"

/-- The name that is looked up for a name: only ASCII names may have spelled-out signs. -/
def lookedUp (name : String) : String :=
  if name.toList.all fun c => c.toNat < 128 then withSigns name else name

/-- The zone of a name, whatever the case of its ASCII letters. -/
def ofName? (name : String) : Option Zone :=
  known.find? fun z => z.name?.map String.toLower == some (lookedUp name).toLower

/-- The zone of a name; a name that is not known is reported as it was looked up. -/
def ofName (name : String) : Except Error Zone :=
  match ofName? name with
  | some z => .ok z
  | none => .error (.unknownZone (lookedUp name))

end Zone
end UsageBilling
