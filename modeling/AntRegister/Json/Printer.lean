import AntRegister.Json.Basic
import AntRegister.Json.Quoted
import AntRegister.Text.Decimal
/-!
The compact text of JSON values: members in their order, nothing between tokens.
-/

namespace AntRegister.Json

def quote (s : String) : String := .ofList (Quoted.encode s.toList)

mutual

/-- The tokens of a value, before those that follow it. A value that cannot be held is written as
null. -/
def tokens : Json → List String → List String
  | .null, rest | .unheld, rest => "null" :: rest
  | .bool true, rest => "true" :: rest
  | .bool false, rest => "false" :: rest
  | .integer i, rest => Text.decimalInt i :: rest
  | .text s, rest => quote s :: rest
  | .array items, rest => "[" :: itemTokens items ("]" :: rest)
  | .object members, rest => "\x7b" :: memberTokens members ("\x7d" :: rest)

def itemTokens : List Json → List String → List String
  | [], rest => rest
  | [j], rest => j.tokens rest
  | j :: js, rest => j.tokens ("," :: itemTokens js rest)

def memberTokens : List (String × Json) → List String → List String
  | [], rest => rest
  | [(k, j)], rest => quote k :: ":" :: j.tokens rest
  | (k, j) :: ms, rest => quote k :: ":" :: j.tokens ("," :: memberTokens ms rest)

end

def compact (j : Json) : String := String.join (j.tokens [])

end AntRegister.Json
