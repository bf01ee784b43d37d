/-!
TOML values. A table remembers how it was opened, and an array whether its items were opened one by
one, since that decides what later lines may add.
-/

namespace AntRegister.Toml

inductive TableKind where
  /-- By a header of its own, or as the whole text. -/
  | headed
  /-- By a header of a table inside it. -/
  | implied
  /-- By a dotted key. -/
  | dotted
  /-- Between braces. -/
  | inline
  deriving DecidableEq

inductive Value where
  | text (s : String)
  | integer (i : Int)
  | boolean (b : Bool)
  /-- A number with a fraction or an exponent, or none at all. -/
  | float
  /-- A date, a time or both. -/
  | moment
  /-- An array; `open_` says that headers add its items. -/
  | array (open_ : Bool) (items : List Value)
  | table (kind : TableKind) (entries : List (String × Value))
  deriving Inhabited

/-- A table's entries, in the order in which they were added. -/
abbrev Entries := List (String × Value)

namespace Entries

def get? (es : Entries) (key : String) : Option Value := es.lookup key

/-- The entries with one more, or with another value for a key. -/
def set (es : Entries) (key : String) (v : Value) : Entries :=
  if (es.lookup key).isSome then es.map fun e => if e.1 == key then (key, v) else e
  else es ++ [(key, v)]

end Entries

end AntRegister.Toml
