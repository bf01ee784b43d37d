import AntRegister.Text.Units
/-!
JSON string literals. Writing escapes quotes, backslashes and control characters; reading takes
every legal escape. A literal may hold half of a surrogate pair: it is legal, but has no text.
-/

namespace AntRegister.Json.Quoted

def hexDigit (n : Nat) : Char := Char.ofNat (if n < 10 then 48 + n else 87 + n)

/-- The value of a hexadecimal digit in either case. -/
def hexValue? (c : Char) : Option Nat :=
  if '0' ≤ c ∧ c ≤ '9' then some (c.toNat - 48)
  else if 'a' ≤ c ∧ c ≤ 'f' then some (c.toNat - 87)
  else if 'A' ≤ c ∧ c ≤ 'F' then some (c.toNat - 55)
  else none

def hex4? (a b c d : Char) : Option Nat := do
  return ((← hexValue? a) * 16 + (← hexValue? b)) * 256 + ((← hexValue? c) * 16 + (← hexValue? d))

def escape (c : Char) : List Char :=
  if c = '"' then ['\\', '"']
  else if c = '\\' then ['\\', '\\']
  else if c = '\n' then ['\\', 'n']
  else if c = '\r' then ['\\', 'r']
  else if c = '\t' then ['\\', 't']
  else if c = '\x08' then ['\\', 'b']
  else if c = '\x0c' then ['\\', 'f']
  else if c.toNat < 32 then
    ['\\', 'u', '0', '0', hexDigit (c.toNat / 16), hexDigit (c.toNat % 16)]
  else [c]

def encode (cs : List Char) : List Char := '"' :: cs.flatMap escape ++ ['"']

inductive Piece where
  | char (c : Char)
  | unit (n : Nat)
  deriving DecidableEq

def simpleEscape? (c : Char) : Option Piece :=
  if c = '"' ∨ c = '\\' ∨ c = '/' then some (.char c)
  else if c = 'n' then some (.char '\n')
  else if c = 'r' then some (.char '\r')
  else if c = 't' then some (.char '\t')
  else if c = 'b' then some (.char '\x08')
  else if c = 'f' then some (.char '\x0c')
  else none

/-- The pieces of a literal whose opening quote has been read, and what follows its closing quote.
`done` holds the pieces so far, last first. -/
def pieces (done : List Piece) : List Char → Option (List Piece × List Char)
  | [] => none
  | '"' :: rest => some (done.reverse, rest)
  | '\\' :: 'u' :: a :: b :: c :: d :: rest =>
    match hex4? a b c d with
    | some n => pieces (.unit n :: done) rest
    | none => none
  | '\\' :: c :: rest =>
    match simpleEscape? c with
    | some p => pieces (p :: done) rest
    | none => none
  | c :: rest => if c.toNat < 32 then none else pieces (.char c :: done) rest

/-- The text of a literal's pieces, unless it holds half of a surrogate pair. `done` holds the
characters so far, last first. -/
def join (done : List Char) : List Piece → Option (List Char)
  | [] => some done.reverse
  | .char c :: ps => join (c :: done) ps
  | .unit n :: .unit m :: ps =>
    match Text.ofSurrogates? n m with
    | some c => join (c :: done) ps
    | none =>
      match Text.scalar? n with
      | some c => join (c :: done) (.unit m :: ps)
      | none => none
  | .unit n :: ps =>
    match Text.scalar? n with
    | some c => join (c :: done) ps
    | none => none

theorem pieces_length {done ps : List Piece} {cs rest : List Char}
    (h : pieces done cs = some (ps, rest)) : rest.length < cs.length := by
  fun_induction pieces done cs <;> simp_all <;> grind

end AntRegister.Json.Quoted
