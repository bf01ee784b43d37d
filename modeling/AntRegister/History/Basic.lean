import AntRegister.Calendar.Instant
import AntRegister.Text.Decimal
import Std.Data.HashMap
/-!
The project's history, asked when a content first appeared. It is answered from a table or from the
version control's log.
-/

namespace AntRegister

open Calendar (Instant)

inductive HistoryError where
  | notFound (content : String)
  | timedOut (content : String) (seconds : Nat)
  | commandFailed (detail : String)
  | badDate (line : String)
  deriving DecidableEq

def HistoryError.message : HistoryError → String
  | .notFound content => "Content never appeared in history: '" ++ content ++ "'"
  | .timedOut content seconds =>
    "History lookup timed out after " ++ Text.decimal seconds ++ "s: '" ++ content ++ "'"
  | .commandFailed detail => "History command failed: " ++ detail
  | .badDate line => "Unable to parse history output: '" ++ line ++ "': not a timestamp"

abbrev HistoryTable := Std.HashMap String Instant

def HistoryTable.answer (t : HistoryTable) (content : String) : Except HistoryError Instant :=
  match t[content]? with
  | some i => .ok i
  | none => .error (.notFound content)

end AntRegister
