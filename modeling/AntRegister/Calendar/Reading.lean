import AntRegister.Calendar.Instant
import AntRegister.Text.Blank
import AntRegister.Text.Reader
/-!
Reading RFC 3339. The exact form has fixed widths and nothing around it. The lenient form, which
documents may use, allows blanks around each part, fewer digits, a signed year of any length, the
zone name UTC and an offset without its colon.
-/

namespace AntRegister.Calendar

namespace Reader

open AntRegister.Reader

def skipBlanks : Reader Unit := skipWhile Text.isBlank

/-- All digits that come next, at least one. -/
def longNumber : Reader Nat := fun cs => number 1 cs.length cs

def dayTimeMark : Reader Unit := do
  let c ← anyChar
  if c = 't' ∨ c = 'T' ∨ c = ' ' then pure () else fail

/-- The fraction of a second in nanoseconds; digits past the ninth are dropped. -/
def fraction : Reader Nat := fun cs =>
  match cs with
  | '.' :: rest =>
    match digits 1 9 rest with
    | none => none
    | some (ds, rest) =>
      some (Text.valueOf ds * Nat.pow 10 (9 - ds.length), rest.dropWhile Text.isDigit)
  | _ => some (0, cs)

/-- Minutes of an offset, below sixty. -/
def offsetMinutes : Reader Nat := numberBelow 60 2

/-- The sign of an offset: plus, hyphen or the minus sign U+2212. -/
def offsetSign : Reader Int := do
  let c ← anyChar
  if c = '+' then pure 1 else if c = '-' ∨ c = '\u2212' then pure (-1) else fail

/-- A numeric offset in minutes; `separator` stands between hours and minutes. -/
def offset (separator : Reader Unit) : Reader Int := do
  let sign ← offsetSign
  let hours ← number 2 2
  separator
  let minutes ← offsetMinutes
  return sign * (60 * hours + minutes : Nat)

/-- A zone: `Z` in either case or a numeric offset. -/
def zone (separator : Reader Unit) : Reader Int := fun cs =>
  match cs with
  | c :: rest => if c = 'Z' ∨ c = 'z' then some (0, rest) else offset separator cs
  | [] => none

def looseSeparator : Reader Unit := fun cs =>
  some ((), cs.dropWhile fun c => c == ':' || Text.isBlank c)

/-- A zone that may also be named UTC, in either case. -/
def looseZone : Reader Int := fun cs =>
  match cs with
  | u :: t :: c :: rest =>
    if u.toUpper = 'U' ∧ t.toUpper = 'T' ∧ c.toUpper = 'C' then some (0, rest)
    else zone looseSeparator cs
  | _ => zone looseSeparator cs

/-- A number of at most `most` digits, with blanks in front allowed. -/
def looseNumber (most : Nat) : Reader Nat := do
  skipBlanks
  number 1 most

/-- A year: up to four digits, or a sign and any number of them. -/
def looseYear : Reader Int := do
  skipBlanks
  fun cs =>
    match cs with
    | '-' :: rest => (do return -(Int.ofNat (← longNumber)) : Reader Int) rest
    | '+' :: rest => (do return Int.ofNat (← longNumber) : Reader Int) rest
    | _ => (do return Int.ofNat (← number 1 4) : Reader Int) cs

/-- A fixed character, with blanks in front allowed. -/
def looseChar (c : Char) : Reader Unit := do
  skipBlanks
  char c

def instant (year : Int) (month day hour minute second nano : Nat) (offset : Int) :
    Reader Instant := fun cs => do
  let date ← Date.of? year month day
  let shown ← Instant.of? date hour minute second nano
  return (← shown.atOffset? offset, cs)

def exactInstant : Reader Instant := do
  let year ← number 4 4
  char '-'
  let month ← number 2 2
  char '-'
  let day ← number 2 2
  dayTimeMark
  let hour ← number 2 2
  char ':'
  let minute ← number 2 2
  char ':'
  let second ← number 2 2
  let nano ← fraction
  let off ← zone (char ':')
  instant year month day hour minute second nano off

def looseInstant : Reader Instant := do
  let year ← looseYear
  looseChar '-'
  let month ← looseNumber 2
  looseChar '-'
  let day ← looseNumber 2
  dayTimeMark
  let hour ← looseNumber 2
  looseChar ':'
  let minute ← looseNumber 2
  looseChar ':'
  let second ← looseNumber 2
  let nano ← fraction
  skipBlanks
  let off ← looseZone
  instant year month day hour minute second nano off

end Reader

def Instant.readExact? (s : String) : Option Instant :=
  match Reader.exactInstant s.toList with
  | some (i, []) => some i
  | _ => none

def Instant.read? (s : String) : Option Instant :=
  match Reader.looseInstant s.toList with
  | some (i, rest) => if (Text.trimStart rest).isEmpty then some i else none
  | none => none

end AntRegister.Calendar
