/-!
Titles of suggestion issues. A suggestion stands in its title between two backquotes, and
typographic apostrophes are written plain before a title is used.
-/

namespace AntRegister.Title

/-- The text up to the next backquote, if one comes before the end of the line. `body` holds what
has been passed, last first. -/
def upToQuote (body : List Char) : List Char → Option (List Char)
  | [] => none
  | c :: cs =>
    if c = '`' then some body.reverse
    else if c = '\n' then none
    else upToQuote (c :: body) cs

/-- The shortest nonempty text on one line behind the first backquote that a second one closes. Its
first character may be a backquote itself, since the text is nonempty. -/
def contentChars : List Char → Option (List Char)
  | [] => none
  | c :: cs =>
    if c = '`' then
      match cs with
      | [] => none
      | d :: ds =>
        if d = '\n' then contentChars (d :: ds)
        else
          match upToQuote [d] ds with
          | some body => some body
          | none => contentChars (d :: ds)
    else contentChars cs

/-- The suggestion that a title carries, if any. -/
def content? (title : String) : Option String := (contentChars title.toList).map .ofList

/-- U+2019 becomes a plain apostrophe. -/
def plainApostrophe (c : Char) : Char := if c = '\u2019' then '\'' else c

def plainApostrophes (s : String) : String := .ofList (s.toList.map plainApostrophe)

end AntRegister.Title
