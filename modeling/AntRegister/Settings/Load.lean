import AntRegister.Documents
import AntRegister.Settings.Document
/-!
Finding the settings: a file that is named, else the one in the working folder, else the user's own,
else the defaults.
-/

namespace AntRegister.Settings

/-- The settings file of a working folder. -/
def fileName : String := "antledger.toml"

/-- The settings of a file. Its relative paths are seen from the folder that it is in. -/
def loadFile (path : String) : Action Settings := do
  let text ← Action.ofExcept (.settingsUnread path) (← Action.request (.readText path))
  let s ← Action.ofExcept (.settingsRejected path) (parse text)
  return { s.seenFrom ((Path.parent? path).getD "") with source := some path }

/-- The user's own settings file, if the system has a folder for it. -/
def userFile? : Action (Option String) :=
  return (← Action.request .settingsFolder).map fun folder => Path.join folder "config.toml"

def load (named : Option String) : Action Settings := do
  match named with
  | some path => loadFile path
  | none =>
    if ← Action.request (.isFile fileName) then loadFile fileName
    else
      match ← userFile? with
      | some path => if ← Action.request (.isFile path) then loadFile path else return default
      | none => return default

/-- Writes the default settings to a file unless there is something at its path. Tells whether it
was written. -/
def writeDefault (path : String) : Action Bool := do
  if ← Action.request (.entryExists path) then return false
  let text := default.toToml
  Action.ofExcept (.settingsUnwritten path) (← Action.request (.createFile path))
  Action.ofExcept (.settingsUnwritten path) (← Action.request (.writeFile path text))
  return true

end AntRegister.Settings
