/-!
Lines of a text. A line feed ends a line, and one carriage return right before it belongs to the
ending. What follows the last line feed is a line unless it is empty.
-/

namespace AntRegister.Text

/-- A line without the carriage return that stood before its line feed. -/
def dropReturn (line : List Char) : List Char :=
  match line.getLast? with
  | some '\r' => line.dropLast
  | _ => line

/-- The lines of a text; `line` holds the characters of the current one, last first. -/
def linesFrom (line : List Char) : List Char → List (List Char)
  | [] => if line.isEmpty then [] else [line.reverse]
  | c :: cs =>
    if c = '\n' then dropReturn line.reverse :: linesFrom [] cs else linesFrom (c :: line) cs

def lines (cs : List Char) : List (List Char) := linesFrom [] cs

end AntRegister.Text
