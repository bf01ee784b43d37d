import AntRegister.Command.Console
import AntRegister.OutputFolder
import AntRegister.Settings.Load
/-!
The commands that stand alone: a content hash, the script of one release, the script that reorders
ants, and the default settings.
-/

namespace AntRegister.Standalone

def hash (c : Console) (content : String) : Program Unit :=
  match c.format with
  | .json => Console.document
      (.object [("content", .text content), ("hash", .integer (contentHash content))])
  | .text => Console.line (Text.decimal (contentHash content))

/-- Shows a script, or writes it to a file. -/
def emit (c : Console) (part script : String) : Option String → Action Unit
  | none =>
    match c.format with
    | .json => Console.document (.object [("sql", .text script)])
    | .text => Program.print script
  | some path => do
    match Path.fileName? path with
    | none => throw (.badOutputPath path)
    | some name =>
      let above := (Path.parent? path).getD ""
      let folder : OutputFolder := ⟨if above.isEmpty then "." else above⟩
      let written ← folder.write name script
      c.progressOf part ("Wrote " ++ written)
      match c.format with
      | .json => Console.document (.object [("file", .text written)])
      | .text => c.success ("Wrote " ++ written)

def release (c : Console) (s : Settings) (file : String) (number : Nat) (out : Option String) :
    Action Unit := do
  let sheet ← loadReleaseSheet file
  let date ← Action.ofExcept (.badReleaseDate file) sheet.date
  c.progressOf "release" ("Release " ++ Text.decimal number ++ " on " ++ date.text ++ " with " ++
    Text.decimal sheet.ants.length ++ " ants")
  emit c "release" (Sql.releaseScript date number sheet.ants s.sql) out

def rehash (c : Console) (file : String) (out : Option String) : Action Unit := do
  let ants ← loadListing file
  c.progressOf "rehash" (Text.decimal ants.length ++ " ants in listing")
  match Sql.rehashScript ants with
  | some script => emit c "rehash" script out
  | none => throw (.emptyListing file)

def init (c : Console) (settings : Option String) : Action Unit := do
  let path := settings.getD Settings.fileName
  c.progressOf "init" ("Config path: " ++ path)
  if ← Settings.writeDefault path then c.success ("Created " ++ path)
  else c.success (path ++ " already exists, leaving it unchanged")

end AntRegister.Standalone
