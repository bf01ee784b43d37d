import AntRegister.Command.Run
import AntRegister.World
/-!
The program on a real system.
-/

namespace AntRegister

def Fault.ofError : IO.Error → Fault
  | .noFileOrDirectory .. => .missing
  | .alreadyExists .. => .taken
  | .inappropriateType .. => .notFolder
  | e => .other (toString e)

def attempt {α : Type} (act : IO α) : IO (Except Fault α) := do
  match ← act.toBaseIO with
  | .ok a => return .ok a
  | .error e => return .error (.ofError e)

/-- The text of a file, unless it is none. -/
def readTextFile (path : String) : IO (Except Fault String) := do
  match ← attempt (IO.FS.readBinFile path) with
  | .error fault => return .error fault
  | .ok bytes =>
    match String.fromUTF8? bytes with
    | some s => return .ok s
    | none => return .error .notText

/-- Waits until no other program has the lock of a file. -/
def awaitLock (path : String) : IO Unit := do
  let h ← IO.FS.Handle.mk path .append
  h.lock true
  h.unlock

/-- Writes a file while no other program that asks for the lock writes it. -/
def writeLocked (path content : String) : IO Unit := do
  let h ← IO.FS.Handle.mk path .write
  h.lock true
  h.putStr content
  h.flush
  h.unlock

/-- Whether there is something at a path, and whether it is a file. -/
def fileAt? (path : String) : IO (Option Bool) := do
  match ← attempt (IO.FS.DirEntry.mk "." path).path.metadata with
  | .ok info => return some (info.type == .file)
  | .error _ => return none

/-- The reply of the system to a request. The log cannot be searched from here. -/
def Request.perform : (r : Request) → IO r.Reply
  | .readText path => readTextFile path
  | .isFile path => return (← fileAt? path) == some true
  | .entryExists path => return (← fileAt? path).isSome
  | .makeFolders path => if path.isEmpty then return .ok () else attempt (IO.FS.createDirAll path)
  | .createFile path => attempt (IO.FS.writeFile path "")
  | .lockFile path => attempt (awaitLock path)
  | .writeFile path content => attempt (writeLocked path content)
  | .rename old new => attempt (IO.FS.rename old new)
  | .removeFile path => attempt (IO.FS.removeFile path)
  | .environment name => IO.getEnv name
  | .settingsFolder => do
    let values ← ["HOME", "XDG_CONFIG_HOME"].mapM fun name =>
      return (← IO.getEnv name).map fun value => (name, value)
    return World.desktopFolder (values.filterMap id)
  | .searchLog _ => return .notStarted "programs cannot be started here"
  | .print text => do
    let out ← IO.getStdout
    out.putStr text
    out.flush
  | .note text => do
    let err ← IO.getStderr
    err.putStr text

def Program.perform {α : Type} : Program α → IO α
  | .done a => return a
  | .ask r next => do (next (← r.perform)).perform

end AntRegister

def main (arguments : List String) : IO UInt32 := do
  return (← (AntRegister.antRegister arguments).perform).toUInt32
