import AntRegister.Calendar.Date
import AntRegister.Json.Record
/-!
Hand-written descriptions of one release: its date, with months counted from zero, and its ants.
-/

namespace AntRegister

open Calendar (Date)

structure ReleaseSheet where
  year : Int
  month : Nat
  day : Nat
  ants : List String
  deriving DecidableEq

structure BadReleaseDate where
  year : Int
  month : Nat
  day : Nat
  deriving DecidableEq

def BadReleaseDate.message (e : BadReleaseDate) : String :=
  "Invalid release date: " ++ Text.decimalInt e.year ++ "-" ++ Text.decimal e.month ++ "-" ++
    Text.decimal e.day ++ " (month is zero-based)"

namespace ReleaseSheet

def date (s : ReleaseSheet) : Except BadReleaseDate Date :=
  match Date.of? s.year (s.month + 1) s.day with
  | some d => .ok d
  | none => .error ⟨s.year, s.month, s.day⟩

def ofJson? (j : Json) : Option ReleaseSheet := do
  let fs ← j.fields? ["Date", "Ants"]
  let date ← fs.required? "Date" (Json.fields? ["Year", "Month", "Day"])
  return {
    year := ← date.required? "Year" (Json.asInt? (-2147483648) 2147483647)
    month := ← date.required? "Month" (Json.asNat? 4294967295)
    day := ← date.required? "Day" (Json.asNat? 4294967295)
    ants := ← fs.required? "Ants" (Json.asList? Json.asText?)
  }

end ReleaseSheet

end AntRegister
