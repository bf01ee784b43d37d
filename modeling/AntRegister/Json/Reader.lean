import AntRegister.Json.Basic
import AntRegister.Json.Token
/-!
Reading a JSON text. The tokens are fed one by one to a state that keeps the open arrays and
objects in a list, so that values may nest to any depth.
-/

namespace AntRegister.Json

/-- An array or object that has been opened and not closed, with its finished parts last first. -/
inductive Frame where
  | array (done : List Json)
  | object (done : List (Option String × Json)) (key : Option String)

/-- What has been read so far, and so what may follow. -/
inductive Progress where
  /-- A value has to follow. -/
  | value (frames : List Frame)
  /-- An array has just been opened: a value or its end follows. -/
  | firstItem (frames : List Frame)
  /-- An object has just been opened: a key or its end follows. -/
  | firstKey (frames : List Frame)
  /-- A comma has been read in an object: a key follows. -/
  | key (done : List (Option String × Json)) (frames : List Frame)
  /-- A key has been read: a colon follows. -/
  | colon (done : List (Option String × Json)) (key : Option String) (frames : List Frame)
  /-- A value has just ended. -/
  | ended (value : Json) (frames : List Frame)

namespace Progress

/-- An object with its members in order. A key that has no text makes it one that cannot be held. -/
def closeObject (done : List (Option String × Json)) : Json :=
  if done.all fun m => m.1.isSome then
    .object (done.reverse.map fun m => (m.1.getD "", m.2))
  else .unheld

def begin? (frames : List Frame) : Token → Option Progress
  | .null => some (.ended .null frames)
  | .bool b => some (.ended (.bool b) frames)
  | .number (some i) => some (.ended (.integer i) frames)
  | .number none => some (.ended .unheld frames)
  | .text (some s) => some (.ended (.text s) frames)
  | .text none => some (.ended .unheld frames)
  | .openBracket => some (.firstItem frames)
  | .openBrace => some (.firstKey frames)
  | _ => none

def step : Progress → Token → Option Progress
  | .value frames, t => begin? frames t
  | .firstItem frames, .closeBracket => some (.ended (.array []) frames)
  | .firstItem frames, t => begin? (.array [] :: frames) t
  | .firstKey frames, .closeBrace => some (.ended (.object []) frames)
  | .firstKey frames, .text k => some (.colon [] k frames)
  | .key done frames, .text k => some (.colon done k frames)
  | .colon done k frames, .colon => some (.value (.object done k :: frames))
  | .ended j (.array done :: frames), .comma => some (.value (.array (j :: done) :: frames))
  | .ended j (.array done :: frames), .closeBracket =>
    some (.ended (.array (j :: done).reverse) frames)
  | .ended j (.object done k :: frames), .comma => some (.key ((k, j) :: done) frames)
  | .ended j (.object done k :: frames), .closeBrace =>
    some (.ended (closeObject ((k, j) :: done)) frames)
  | _, _ => none

end Progress

/-- The value of a list of tokens, if they are the tokens of exactly one. -/
def ofTokens? (ts : List Token) : Option Json :=
  match ts.foldlM Progress.step (.value []) with
  | some (.ended j []) => some j
  | _ => none

def read? (s : String) : Option Json := do ofTokens? (← Token.lex s)

end AntRegister.Json
