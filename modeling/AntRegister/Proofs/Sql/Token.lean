import AntRegister.Text.Blank
import AntRegister.Text.Decimal
/-! The tokens of SQL. A literal begins with a quote. Inside it two quotes stand for one, and it
ends at the first quote that no other follows; nothing else in it has a meaning. Outside of literals
two hyphens begin a comment, which the end of the line ends. -/

namespace AntRegister.Sql

inductive Token where
  | word (s : String)
  | number (n : Nat)
  | literal (s : String)
  | symbol (c : Char)
  deriving DecidableEq, Repr

/-- What a reader of SQL is in the middle of. -/
inductive Mode where
  | between
  | run (cs : List Char)
  | quoted (cs : List Char)
  /-- Behind a quote that ends a literal unless it is followed by another. -/
  | closing (cs : List Char)
  | hyphen
  | comment
  deriving DecidableEq, Repr

def isWordChar (c : Char) : Bool := c.isAlphanum || c == '_'

/-- A run of word characters: a number if it has only digits. -/
def Token.ofRun (cs : List Char) : Token :=
  if cs.all Char.isDigit then .number (Text.valueOf cs) else .word (.ofList cs)

namespace Mode

/-- The token that is complete if nothing more belongs to it. -/
def pending : Mode → List Token
  | .run cs => [.ofRun cs]
  | .closing cs => [.literal (.ofList cs)]
  | .hyphen => [.symbol '-']
  | _ => []

/-- A character between two tokens. -/
def start (c : Char) : List Token × Mode :=
  if Text.isBlank c then ([], .between)
  else if c = '\'' then ([], .quoted [])
  else if c = '-' then ([], .hyphen)
  else if isWordChar c then ([], .run [c])
  else ([.symbol c], .between)

/-- The tokens that one more character completes, and what it leaves the reader in. -/
def next (m : Mode) (c : Char) : List Token × Mode :=
  match m with
  | .quoted cs => ([], if c = '\'' then .closing cs else .quoted (cs ++ [c]))
  | .comment => ([], if c = '\n' then .between else .comment)
  | .run cs =>
    if isWordChar c then ([], .run (cs ++ [c])) else (m.pending ++ (start c).1, (start c).2)
  | .closing cs =>
    if c = '\'' then ([], .quoted (cs ++ ['\''])) else (m.pending ++ (start c).1, (start c).2)
  | .hyphen => if c = '-' then ([], .comment) else (m.pending ++ (start c).1, (start c).2)
  | .between => start c

end Mode

/-- The tokens that a text completes, and what it leaves the reader in. -/
def scan (m : Mode) : List Char → List Token × Mode
  | [] => ([], m)
  | c :: cs => ((m.next c).1 ++ (scan (m.next c).2 cs).1, (scan (m.next c).2 cs).2)

/-- The tokens of a text, unless it ends inside a literal. -/
def lex (s : String) : Option (List Token) :=
  match scan .between s.toList with
  | (_, .quoted _) => none
  | (ts, m) => some (ts ++ m.pending)

end AntRegister.Sql
