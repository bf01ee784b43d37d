import AntRegister.Json.Printer
import AntRegister.Program
/-!
What commands write. Results go to the output, as text or as one JSON document; warnings and
messages about progress go to the diagnostics.
-/

namespace AntRegister

inductive Format where
  | text
  | json
  deriving DecidableEq

structure Console where
  format : Format
  verbose : Bool

namespace Console

/-- A line of output, in either format. -/
def line (s : String) : Program Unit := Program.print (s ++ "\n")

def diagnostic (s : String) : Program Unit := Program.note (s ++ "\n")

/-- A line of output that only the text format has. -/
def textLine (c : Console) (s : String) : Program Unit :=
  match c.format with
  | .text => line s
  | .json => pure ()

def document (j : Json) : Program Unit := line j.compact

def success (c : Console) (message : String) : Program Unit :=
  match c.format with
  | .text => line message
  | .json => document (.object [("message", .text message), ("success", .bool true)])

def warning (c : Console) (message : String) : Program Unit :=
  match c.format with
  | .text => diagnostic ("Warning: " ++ message)
  | .json => diagnostic (Json.object [("warning", .text message)]).compact

/-- A label with its value, in columns. -/
def field (c : Console) (label value : String) : Program Unit :=
  c.textLine (Text.leftAligned 16 (label ++ ":") ++ " " ++ value)

def count (c : Console) (label : String) (n : Nat) : Program Unit := c.field label (Text.decimal n)

def blank (c : Console) : Program Unit := c.textLine ""

def progress (c : Console) (message : String) : Program Unit :=
  if c.verbose then diagnostic ("[verbose] " ++ message) else pure ()

def progressOf (c : Console) (part message : String) : Program Unit :=
  if c.verbose then diagnostic ("[verbose:" ++ part ++ "] " ++ message) else pure ()

end Console

end AntRegister
