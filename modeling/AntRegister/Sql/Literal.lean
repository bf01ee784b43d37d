/-!
String literals of SQL: a quote inside one is written twice.
-/

namespace AntRegister.Sql

def escapeChars : List Char → List Char
  | [] => []
  | c :: cs => if c = '\'' then '\'' :: '\'' :: escapeChars cs else c :: escapeChars cs

/-- Reads each pair of quotes, from the left, as one. -/
def unescapeChars : List Char → List Char
  | '\'' :: '\'' :: cs => '\'' :: unescapeChars cs
  | c :: cs => c :: unescapeChars cs
  | [] => []

def escape (s : String) : String := .ofList (escapeChars s.toList)

def unescape (s : String) : String := .ofList (unescapeChars s.toList)

def literal (s : String) : String := "'" ++ escape s ++ "'"

theorem unescapeChars_escapeChars (cs : List Char) : unescapeChars (escapeChars cs) = cs := by
  induction cs with
  | nil => rfl
  | cons c cs ih =>
    by_cases h : c = '\''
    · simp [escapeChars, unescapeChars, h, ih]
    · rw [escapeChars, if_neg h, unescapeChars.eq_2 _ _ (by rintro _ rfl; exact absurd rfl h), ih]

end AntRegister.Sql
