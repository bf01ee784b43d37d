import AntRegister.Text.Decimal
/-!
Readers: they take characters off the front of a text and give a value, or fail.
-/

namespace AntRegister

abbrev Reader := StateT (List Char) Option

namespace Reader

def fail {α : Type} : Reader α := fun _ => none

def anyChar : Reader Char
  | [] => none
  | c :: cs => some (c, cs)

/-- The next character, which stays. -/
def peek : Reader (Option Char) := fun cs => some (cs.head?, cs)

/-- The next character, which has to be `c`. -/
def char (c : Char) : Reader Unit := do
  let d ← anyChar
  if d = c then pure () else fail

/-- The characters of a word, one after the other. -/
def word : List Char → Reader Unit
  | [] => pure ()
  | c :: cs => do
    char c
    word cs

def skipWhile (p : Char → Bool) : Reader Unit := fun cs => some ((), cs.dropWhile p)

def takeWhile (p : Char → Bool) : Reader (List Char) := fun cs =>
  some (cs.takeWhile p, cs.dropWhile p)

/-- As many digits as come next, but no more than `most`, and no fewer than `least`. -/
def digits (least most : Nat) : Reader (List Char) := fun cs =>
  let ds := (cs.take most).takeWhile Text.isDigit
  if ds.length < least then none else some (ds, cs.drop ds.length)

def number (least most : Nat) : Reader Nat := do
  return Text.valueOf (← digits least most)

/-- A number below a bound, with as many digits as given. -/
def numberBelow (bound width : Nat) : Reader Nat := do
  let n ← number width width
  if n < bound then pure n else fail

end Reader

end AntRegister
