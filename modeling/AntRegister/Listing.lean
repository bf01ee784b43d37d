import AntRegister.Text.Blank
import AntRegister.Text.Lines
/-!
The flat listing of ants: one a line, blanks around it and blank lines not counting.
-/

namespace AntRegister

def parseListing (text : String) : List String :=
  (((Text.lines text.toList).map Text.trimChars).filter fun l => !l.isEmpty).map .ofList

end AntRegister
