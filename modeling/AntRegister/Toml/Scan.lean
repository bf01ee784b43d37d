import AntRegister.Text.Reader
import AntRegister.Text.Units
import AntRegister.Toml.Basic
/-!
The parts of a TOML text: blanks and comments, strings, keys, numbers, dates, arrays and tables
between braces, and the lines made of them.
-/

namespace AntRegister.Toml

open AntRegister.Reader

/-- The depth up to which arrays and tables between braces may nest. -/
def deepest : Nat := 79

/-- The length up to which keys may be dotted. -/
def longestKey : Nat := 79

def isSpace (c : Char) : Bool := c == ' ' || c == '\t'

/-- The characters that may stand for themselves on a line. -/
def isPlain (c : Char) : Bool := c == '\t' || (32 ≤ c.toNat && c.toNat != 127)

def skipSpace : Reader Unit := skipWhile isSpace

/-- A line feed, with or without a carriage return before it. -/
def newline : Reader Unit
  | '\n' :: cs => some ((), cs)
  | '\r' :: '\n' :: cs => some ((), cs)
  | _ => none

/-- A comment, if one stands here. -/
def skipComment : Reader Unit
  | '#' :: cs => some ((), cs.dropWhile isPlain)
  | cs => some ((), cs)

def lineEnd : Reader Unit
  | [] => some ((), [])
  | cs => newline cs

/-- What may follow on a line that is complete. -/
def restOfLine : Reader Unit := do
  skipSpace
  skipComment
  lineEnd

/-- Passes over blanks, comments and line ends. -/
def skipLines : Reader Unit := fun cs => go false cs
where
  go (comment : Bool) : List Char → Option (Unit × List Char)
    | [] => some ((), [])
    | '\n' :: cs => go false cs
    | '\r' :: '\n' :: cs => go false cs
    | c :: cs =>
      if comment then (if isPlain c then go true cs else some ((), c :: cs))
      else if c = '#' then go true cs
      else if isSpace c then go false cs
      else some ((), c :: cs)

/-! ### Strings -/

def hexValue? (c : Char) : Option Nat :=
  if '0' ≤ c ∧ c ≤ '9' then some (c.toNat - 48)
  else if 'a' ≤ c ∧ c ≤ 'f' then some (c.toNat - 87)
  else if 'A' ≤ c ∧ c ≤ 'F' then some (c.toNat - 55)
  else none

def coded? (ds : List Char) : Option Char := do
  let n ← ds.foldlM (fun n c => return 16 * n + (← hexValue? c)) 0
  Text.scalar? n

def simpleEscape? (c : Char) : Option Char :=
  if c = 'b' then some '\x08'
  else if c = 't' then some '\t'
  else if c = 'n' then some '\n'
  else if c = 'f' then some '\x0c'
  else if c = 'r' then some '\r'
  else if c = '"' ∨ c = '\\' then some c
  else none

def basicBody (done : List Char) : Reader (List Char)
  | [] => none
  | '"' :: rest => some (done.reverse, rest)
  | '\\' :: 'u' :: a :: b :: c :: d :: rest =>
    match coded? [a, b, c, d] with
    | some x => basicBody (x :: done) rest
    | none => none
  | '\\' :: 'U' :: a :: b :: c :: d :: e :: f :: g :: h :: rest =>
    match coded? [a, b, c, d, e, f, g, h] with
    | some x => basicBody (x :: done) rest
    | none => none
  | '\\' :: c :: rest =>
    match simpleEscape? c with
    | some x => basicBody (x :: done) rest
    | none => none
  | c :: rest => if isPlain c then basicBody (c :: done) rest else none

/-- The rest of a string between single apostrophes, which has no escapes. -/
def literalBody (done : List Char) : Reader (List Char)
  | [] => none
  | c :: rest =>
    if c = '\'' then some (done.reverse, rest)
    else if isPlain c then literalBody (c :: done) rest
    else none

/-- The marks that end a string of several lines have been read: up to two more of them belong to
the string. -/
def closeLines (mark : Char) (done : List Char) : Reader (List Char)
  | a :: b :: rest =>
    if a = mark ∧ b = mark then some ((mark :: mark :: done).reverse, rest)
    else if a = mark then some ((mark :: done).reverse, b :: rest)
    else some (done.reverse, a :: b :: rest)
  | [a] => if a = mark then some ((mark :: done).reverse, []) else some (done.reverse, [a])
  | [] => some (done.reverse, [])

/-- Whether only blanks stand before the end of the line. -/
def endsLine (cs : List Char) : Bool := (newline (cs.dropWhile isSpace)).isSome

/-- The rest of a string of several lines between threefold quotation marks. While `skipping`,
blanks and line ends do not count: a backslash at the end of a line takes away what is before the
next character. -/
def basicLines (skipping : Bool) (done : List Char) : Reader (List Char)
  | [] => none
  | '"' :: '"' :: '"' :: rest => closeLines '"' done rest
  | '\r' :: '\n' :: rest => basicLines skipping (if skipping then done else '\n' :: done) rest
  | '\n' :: rest => basicLines skipping (if skipping then done else '\n' :: done) rest
  | '\\' :: 'u' :: a :: b :: c :: d :: rest =>
    match coded? [a, b, c, d] with
    | some x => basicLines false (x :: done) rest
    | none => none
  | '\\' :: 'U' :: a :: b :: c :: d :: e :: f :: g :: h :: rest =>
    match coded? [a, b, c, d, e, f, g, h] with
    | some x => basicLines false (x :: done) rest
    | none => none
  | '\\' :: c :: rest =>
    if endsLine (c :: rest) then basicLines true done (c :: rest)
    else
      match simpleEscape? c with
      | some x => basicLines false (x :: done) rest
      | none => none
  | c :: rest =>
    if skipping ∧ isSpace c then basicLines true done rest
    else if isPlain c then basicLines false (c :: done) rest
    else none

def literalLines (done : List Char) : Reader (List Char)
  | [] => none
  | '\'' :: '\'' :: '\'' :: rest => closeLines '\'' done rest
  | '\r' :: '\n' :: rest => literalLines ('\n' :: done) rest
  | '\n' :: rest => literalLines ('\n' :: done) rest
  | c :: rest => if isPlain c then literalLines (c :: done) rest else none

def afterNewline (cs : List Char) : List Char :=
  match newline cs with
  | some ((), rest) => rest
  | none => cs

def string : Reader (List Char)
  | '"' :: '"' :: '"' :: rest => basicLines false [] (afterNewline rest)
  | '"' :: rest => basicBody [] rest
  | '\'' :: '\'' :: '\'' :: rest => literalLines [] (afterNewline rest)
  | '\'' :: rest => literalBody [] rest
  | _ => none

/-! ### Keys -/

def isBare (c : Char) : Bool := c.isAlphanum || c == '-' || c == '_'

/-- One part of a key: bare, or a string of one line. -/
def keyPart : Reader String
  | '"' :: rest => do
    let (cs, rest) ← basicBody [] rest
    return (.ofList cs, rest)
  | '\'' :: rest => do
    let (cs, rest) ← literalBody [] rest
    return (.ofList cs, rest)
  | cs =>
    let name := cs.takeWhile isBare
    if name.isEmpty then none else some (.ofList name, cs.dropWhile isBare)

/-- The parts of a key that follow, of which there are at most `room`. -/
def keyParts : Nat → Reader (List String)
  | 0 => fail
  | room + 1 => do
    skipSpace
    let part ← keyPart
    skipSpace
    if (← peek) = some '.' then
      char '.'
      return part :: (← keyParts room)
    else return [part]

/-- A key, parted at its dots. -/
def key : Reader (List String) := keyParts longestKey

/-! ### Numbers and dates -/

/-- Digits of a class with single underscores between them; `done` holds those so far, last
first. -/
def moreDigits (isIn : Char → Bool) (done : List Char) : Reader (List Char)
  | [] => some (done.reverse, [])
  | '_' :: c :: rest =>
    if isIn c then moreDigits isIn (c :: done) rest else some (done.reverse, '_' :: c :: rest)
  | c :: rest =>
    if isIn c then moreDigits isIn (c :: done) rest else some (done.reverse, c :: rest)

/-- At least one digit of a class, with single underscores between them. -/
def someDigits (isIn : Char → Bool) : Reader (List Char)
  | [] => none
  | c :: rest => if isIn c then moreDigits isIn [c] rest else none

/-- The digits of a whole number: a lone zero, or digits that start with none. -/
def wholeDigits : Reader (List Char)
  | '0' :: rest => some (['0'], rest)
  | cs => someDigits Text.isDigit cs

/-- Whether a minus sign comes first; a sign is passed over. -/
def sign : Reader Bool
  | '-' :: rest => some (true, rest)
  | '+' :: rest => some (false, rest)
  | cs => some (false, cs)

/-- The least number that no double holds when it is rounded to one. -/
def overflow : Nat := Nat.pow 2 1024 - Nat.pow 2 970

/-- Whether `n · 10 ^ scale` is too large for a double. -/
def overflows (n : Nat) (scale : Int) : Bool :=
  let size := (Text.decimal n).length + scale
  if n = 0 ∨ size < 300 then false
  else if 320 < size then true
  else overflow * Nat.pow 10 (-scale).toNat ≤ n * Nat.pow 10 scale.toNat

/-- The fraction after a point, if one stands here. -/
def fraction : Reader (List Char)
  | '.' :: rest => someDigits Text.isDigit rest
  | cs => some ([], cs)

/-- An exponent, if one stands here. -/
def exponent : Reader Int
  | e :: rest =>
    if e = 'e' ∨ e = 'E' then do
      let (negative, rest) ← sign rest
      let (ds, rest) ← someDigits Text.isDigit rest
      return (if negative then -(Text.valueOf ds : Int) else Text.valueOf ds, rest)
    else some (0, e :: rest)
  | [] => some (0, [])

def float : Reader Value := fun cs => do
  let (negative, cs) ← sign cs
  let (whole, afterWhole) ← wholeDigits cs
  let (part, cs) ← fraction afterWhole
  let (exp, cs) ← exponent cs
  if cs.length = afterWhole.length then none
  else if !negative ∧ overflows (Text.valueOf (whole ++ part)) (exp - part.length) then none
  else some (.float, cs)

/-- Infinity or no number, with a sign or without. -/
def specialFloat : Reader Value := do
  let _ ← sign
  if (← peek) = some 'i' then word ['i', 'n', 'f'] else word ['n', 'a', 'n']
  return .float

/-- The number that digits in a base stand for, if 63 bits hold it. -/
def basedInteger (base : Nat) : Reader Value := fun cs => do
  let isIn := fun c => match hexValue? c with
    | some n => n < base
    | none => false
  let (ds, rest) ← someDigits isIn cs
  let n := ds.foldl (fun n c => base * n + (hexValue? c).getD 0) 0
  if n < 9223372036854775808 then some (.integer n, rest) else none

def integer : Reader Value
  | '0' :: 'x' :: rest => basedInteger 16 rest
  | '0' :: 'o' :: rest => basedInteger 8 rest
  | '0' :: 'b' :: rest => basedInteger 2 rest
  | cs => do
    let (negative, cs) ← sign cs
    let (ds, cs) ← wholeDigits cs
    let n := Text.valueOf ds
    if negative then (if n ≤ 9223372036854775808 then some (.integer (-(n : Int)), cs) else none)
    else if n < 9223372036854775808 then some (.integer n, cs)
    else none

/-- The length of a month in a year of four digits. -/
def monthLength (year month : Nat) : Nat :=
  if month = 2 then (if year % 4 = 0 ∧ (year % 100 ≠ 0 ∨ year % 400 = 0) then 29 else 28)
  else if month = 4 ∨ month = 6 ∨ month = 9 ∨ month = 11 then 30
  else 31

def date : Reader Unit := do
  let year ← number 4 4
  char '-'
  let month ← numberBelow 13 2
  char '-'
  let day ← number 2 2
  if 1 ≤ month ∧ 1 ≤ day ∧ day ≤ monthLength year month then pure () else fail

/-- A time of day; the second 60 is a leap second. -/
def clock : Reader Unit := do
  let _ ← numberBelow 24 2
  char ':'
  let _ ← numberBelow 60 2
  char ':'
  let _ ← numberBelow 61 2
  if (← peek) = some '.' then
    char '.'
    let _ ← someNumerals
where
  someNumerals : Reader Unit := fun cs =>
    let rest := cs.dropWhile Text.isDigit
    if rest.length < cs.length then some ((), rest) else none

/-- The offset of a time, if one stands here. -/
def offset : Reader Unit := do
  match ← peek with
  | some 'Z' | some 'z' => let _ ← anyChar
  | some '+' | some '-' =>
    let _ ← anyChar
    let _ ← numberBelow 24 2
    char ':'
    let _ ← numberBelow 60 2
  | _ => pure ()

/-- A date, a time, or a date with a time and perhaps an offset. A blank after a date that no time
follows is left. -/
def moment : Reader Value := fun cs =>
  match date cs with
  | none => (clock cs).map fun (_, rest) => (.moment, rest)
  | some (_, rest) =>
    match rest with
    | c :: after =>
      if c = 'T' ∨ c = 't' ∨ c = ' ' then
        match clock after with
        | some (_, rest) => (offset rest).map fun (_, rest) => (.moment, rest)
        | none => some (.moment, rest)
      else some (.moment, rest)
    | [] => some (.moment, rest)

/-- A number or a date: the first of the forms that fits. -/
def numeral : Reader Value := fun cs =>
  moment cs <|> float cs <|> specialFloat cs <|> integer cs

/-! ### Tables -/

/-- Adds to the table that a path leads to. The way goes through tables and the last items of open
arrays, and what is missing on it is made. A dotted key goes through no table with a header of its
own. -/
def update (byKey : Bool) (f : TableKind → Entries → Option (TableKind × Entries)) :
    List String → TableKind → Entries → Option (TableKind × Entries)
  | [], kind, es => f kind es
  | k :: ks, kind, es =>
    match es.get? k with
    | none => do
      let (sub, inner) ← update byKey f ks (if byKey then .dotted else .implied) []
      return (kind, es.set k (.table sub inner))
    | some (.table sub inner) =>
      if sub = .inline ∨ (byKey ∧ sub = .headed) then none
      else do
        let (sub, inner) ← update byKey f ks sub inner
        return (kind, es.set k (.table sub inner))
    | some (.array true items) =>
      match items.getLast? with
      | some (.table sub inner) => do
        let (sub, inner) ← update byKey f ks sub inner
        return (kind, es.set k (.array true (items.dropLast ++ [.table sub inner])))
      | _ => none
    | some _ => none

/-- Adds a value under a dotted key, whose last part must be new. The tables that the other parts
name must have been opened by dotted keys too. -/
def insert (path : List String) (v : Value) (kind : TableKind) (es : Entries) :
    Option (TableKind × Entries) :=
  let way := path.dropLast
  update true (fun kind es => do
    if (kind = .dotted) = way.isEmpty then none
    else if (es.get? (← path.getLast?)).isSome then none
    else return (kind, es ++ [(← path.getLast?, v)])) way kind es

/-- The items of an array up to its closing bracket; `done` holds those so far, last first. -/
def items (item : Reader Value) : Nat → List Value → Reader (List Value)
  | 0, _ => fail
  | fuel + 1, done => do
    skipLines
    if (← peek) = some ']' then
      char ']'
      return done.reverse
    let v ← item
    skipLines
    if (← peek) = some ',' then
      char ','
      items item fuel (v :: done)
    else
      char ']'
      return (v :: done).reverse

def pair (item : Reader Value) : Reader (List String × Value) := do
  let path ← key
  char '='
  skipSpace
  return (path, ← item)

/-- The pairs of a table between braces up to its closing brace. -/
def pairs (item : Reader Value) : Nat → Entries → Reader Entries
  | 0, _ => fail
  | fuel + 1, es => do
    let (path, v) ← pair item
    match insert path v .inline es with
    | none => fail
    | some (_, es) =>
      skipSpace
      if (← peek) = some ',' then
        char ','
        pairs item fuel es
      else
        char '\x7d'
        return es

/-- A value whose items and entries, if it may have any, are read by `inner`. -/
def valueWith (inner : Option (Reader Value)) : Reader Value := fun cs =>
  match cs with
  | '"' :: _ | '\'' :: _ => do
    let (s, rest) ← string cs
    return (.text (.ofList s), rest)
  | 't' :: 'r' :: 'u' :: 'e' :: rest => some (.boolean true, rest)
  | 'f' :: 'a' :: 'l' :: 's' :: 'e' :: rest => some (.boolean false, rest)
  | '[' :: rest => do
    let (vs, rest) ← items (← inner) rest.length [] rest
    return (.array false vs, rest)
  | '\x7b' :: rest => do
    let item ← inner
    match rest.dropWhile isSpace with
    | '\x7d' :: rest => return (.table .inline [], rest)
    | rest =>
      let (es, rest) ← pairs item rest.length [] rest
      return (.table .inline es, rest)
  | _ => numeral cs

/-- A value in which arrays and tables nest at most `room` deep. -/
def value : Nat → Reader Value
  | 0 => valueWith none
  | room + 1 => valueWith (some (value room))

end AntRegister.Toml
