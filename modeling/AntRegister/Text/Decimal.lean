/-!
Decimal numerals: written without leading zeros or padded with them to a width, and read back.
-/

namespace AntRegister.Text

def digit? (c : Char) : Option Nat :=
  if '0' ≤ c ∧ c ≤ '9' then some (c.toNat - '0'.toNat) else none

def isDigit (c : Char) : Bool := (digit? c).isSome

/-- The number that a run of digits stands for. Characters that are no digits count as zero. -/
def valueOf (ds : List Char) : Nat := ds.foldl (fun n c => 10 * n + (digit? c).getD 0) 0

def decimal (n : Nat) : String := Nat.repr n

/-- The digits of a number, with zeros in front up to a width. -/
def padded (width n : Nat) : String :=
  let ds := (decimal n).toList
  .ofList (List.replicate (width - ds.length) '0' ++ ds)

/-- The digits of an integer, with a minus sign in front of a negative one. -/
def decimalInt (i : Int) : String :=
  if i < 0 then "-" ++ decimal i.natAbs else decimal i.natAbs

/-- The number that a text stands for if it is one or more digits, a plus sign in front allowed. -/
def readNat? (cs : List Char) : Option Nat :=
  let ds := match cs with
    | '+' :: rest => rest
    | _ => cs
  if ds.isEmpty || !ds.all isDigit then none else some (valueOf ds)

/-- Fills a text with blanks on its right up to a width. -/
def leftAligned (width : Nat) (s : String) : String :=
  .ofList (s.toList ++ List.replicate (width - s.length) ' ')

end AntRegister.Text
