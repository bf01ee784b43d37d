import AntRegister.Text.Decimal
/-!
Dates of the proleptic Gregorian calendar, from the first to the last supported year. Every value
of the type is a date that exists.
-/

namespace AntRegister.Calendar

def isLeap (year : Int) : Bool := year % 4 == 0 && (year % 100 != 0 || year % 400 == 0)

def monthLength (year : Int) (month : Nat) : Nat :=
  match month with
  | 2 => if isLeap year then 29 else 28
  | 4 | 6 | 9 | 11 => 30
  | _ => 31

def firstYear : Int := -262143

def lastYear : Int := 262142

structure Date where
  year : Int
  month : Nat
  day : Nat
  year_ok : firstYear ≤ year ∧ year ≤ lastYear
  month_ok : 1 ≤ month ∧ month ≤ 12
  day_ok : 1 ≤ day ∧ day ≤ monthLength year month
  deriving DecidableEq, Repr

namespace Date

/-- The date with the given parts, if it exists. -/
def of? (year : Int) (month day : Nat) : Option Date :=
  if hy : firstYear ≤ year ∧ year ≤ lastYear then
    if hm : 1 ≤ month ∧ month ≤ 12 then
      if hd : 1 ≤ day ∧ day ≤ monthLength year month then some ⟨year, month, day, hy, hm, hd⟩
      else none
    else none
  else none

/-- The day after, unless the supported years end. -/
def next? (d : Date) : Option Date :=
  if d.day < monthLength d.year d.month then of? d.year d.month (d.day + 1)
  else if d.month < 12 then of? d.year (d.month + 1) 1
  else of? (d.year + 1) 1 1

/-- The day before, unless the supported years begin. -/
def previous? (d : Date) : Option Date :=
  if 1 < d.day then of? d.year d.month (d.day - 1)
  else if 1 < d.month then of? d.year (d.month - 1) (monthLength d.year (d.month - 1))
  else of? (d.year - 1) 12 31

/-- The calendar order: by year, then by month, then by day. -/
def le (a b : Date) : Bool :=
  a.year < b.year ||
    (a.year == b.year && (a.month < b.month || (a.month == b.month && a.day ≤ b.day)))

end Date

/-- A year from 0 to 9999 has four digits; any other has a sign and at least four. -/
def yearText (year : Int) : String :=
  if 0 ≤ year ∧ year ≤ 9999 then Text.padded 4 year.natAbs
  else (if year < 0 then "-" else "+") ++ Text.padded 4 year.natAbs

/-- Year, month and day with hyphens between them. -/
def Date.text (d : Date) : String :=
  yearText d.year ++ "-" ++ Text.padded 2 d.month ++ "-" ++ Text.padded 2 d.day

end AntRegister.Calendar
