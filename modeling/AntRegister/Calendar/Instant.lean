import AntRegister.Calendar.Date
/-!
Instants: a date and a time of day in UTC, down to the nanosecond. The second 60 is a leap second.
An instant has two texts, one with all of its digits for documents and one in whole seconds for
scripts.
-/

namespace AntRegister.Calendar

structure Instant where
  date : Date
  hour : Nat
  minute : Nat
  second : Nat
  nano : Nat
  hour_ok : hour < 24
  minute_ok : minute < 60
  second_ok : second ≤ 60
  nano_ok : nano < 1000000000
  deriving DecidableEq, Repr

namespace Instant

/-- The instant with the given parts, if they are in range. -/
def of? (date : Date) (hour minute second nano : Nat) : Option Instant :=
  if hh : hour < 24 then
    if hm : minute < 60 then
      if hs : second ≤ 60 then
        if hn : nano < 1000000000 then some ⟨date, hour, minute, second, nano, hh, hm, hs, hn⟩
        else none
      else none
    else none
  else none

def midnight (date : Date) : Instant :=
  ⟨date, 0, 0, 0, 0, by decide, by decide, by decide, by decide⟩

/-- The date that is `days` away, for a shift by less than a day. -/
def shiftDate? (date : Date) (days : Int) : Option Date :=
  if days < 0 then date.previous? else if 0 < days then date.next? else some date

/-- The instant at which a clock shows this time, if the clock is `offset` minutes ahead of UTC. An
offset of a day or more is none. -/
def atOffset? (shown : Instant) (offset : Int) : Option Instant := do
  guard (offset.natAbs < 1440)
  let total := (60 * shown.hour + shown.minute : Int) - offset
  let date ← shiftDate? shown.date (total / 1440)
  let minutes := (total % 1440).toNat
  of? date (minutes / 60) (minutes % 60) shown.second shown.nano

/-- The fraction of the second in the fewest of 0, 3, 6 and 9 digits that are exact. -/
def fractionText (nano : Nat) : String :=
  if nano = 0 then ""
  else if nano % 1000000 = 0 then "." ++ Text.padded 3 (nano / 1000000)
  else if nano % 1000 = 0 then "." ++ Text.padded 6 (nano / 1000)
  else "." ++ Text.padded 9 nano

/-- Hours, minutes and seconds with colons between them. -/
def clockText (i : Instant) : String :=
  Text.padded 2 i.hour ++ ":" ++ Text.padded 2 i.minute ++ ":" ++ Text.padded 2 i.second

/-- The form of RFC 3339, in UTC. -/
def text (i : Instant) : String :=
  i.date.text ++ "T" ++ i.clockText ++ fractionText i.nano ++ "Z"

/-- The form of the scripts: date and clock, without the fraction. -/
def stamp (i : Instant) : String := i.date.text ++ " " ++ i.clockText

end Instant

end AntRegister.Calendar
