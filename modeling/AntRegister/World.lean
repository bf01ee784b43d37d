import AntRegister.Program
/-!
A world that programs run on: a disk, the folder that the program works in, its environment, the
version control program, the trouble that the system has with operations, and what has been written
to output and diagnostics.
-/

namespace AntRegister

/-- Trouble of the system with an operation that is in order: the fault that it reports, and how far
it has come by then. -/
structure Trouble where
  fault : Fault
  /-- How many bytes of a text have been written. -/
  written : Nat
  /-- How many of the folders on a path, from its end on, it has not come to. -/
  unmade : Nat

structure World where
  disk : Disk
  here : Location
  /-- The variables and their values. All of them are taken to be texts in UTF-8. -/
  environment : List (String × String)
  /-- The folder for the user's settings of the program, which the system finds by the environment,
  if at all. -/
  settingsFolder : List (String × String) → Option String
  /-- What comes of a run of the version control program in a folder that exists. -/
  log : LogSearch → LogReply
  /-- The trouble that the system would have with a request if that came next, after so many others,
  if there is any. -/
  trouble : Nat → Request → Option Trouble
  /-- How many requests there have been. -/
  requests : Nat
  output : String
  diagnostics : String

namespace World

/-- The folder for the user's settings where settings are kept as the desktops of the system do it:
in the folder that a variable names by an absolute path, else in one in the user's home. Without a
home in the environment none is found. -/
def desktopFolder (environment : List (String × String)) : Option String := do
  let home ← (environment.lookup "HOME").filter fun home => !home.isEmpty
  let folder := ((environment.lookup "XDG_CONFIG_HOME").filter Path.isAbsolute).getD
    (Path.join home ".config")
  return Path.join folder "antledger"

/-- A world in which nothing has happened yet and the system has no trouble. -/
def start (disk : Disk) (here : Location) : World where
  disk
  here
  environment := []
  settingsFolder := desktopFolder
  log := fun _ => .notStarted Fault.missing.message
  trouble := fun _ _ => none
  requests := 0
  output := ""
  diagnostics := ""

/-- The world after an operation on the disk, and what came of it. -/
def change (w : World) : Except Fault Disk → Except Fault Unit × World
  | .ok d => (.ok (), { w with disk := d })
  | .error fault => (.error fault, w)

/-- The reply to a request that the system has no trouble with, and the world after it. -/
def grant (w : World) : (r : Request) → r.Reply × World
  | .readText path => (w.disk.readText w.here path, w)
  | .isFile path => (w.disk.isFile w.here path, w)
  | .entryExists path => ((w.disk.nodeAt? w.here path).isSome, w)
  | .makeFolders path =>
    let (outcome, disk) := w.disk.makeFolders w.here path path.length
    (outcome, { w with disk })
  | .createFile path => w.change (w.disk.createFile w.here path)
  | .lockFile _ => (.ok (), w)
  | .writeFile path content => w.change (w.disk.writeFile w.here path content.toUTF8)
  | .rename old new => w.change (w.disk.rename w.here old new)
  | .removeFile path => w.change (w.disk.removeFile w.here path)
  | .environment name => (w.environment.lookup name, w)
  | .settingsFolder => (w.settingsFolder w.environment, w)
  | .searchLog s =>
    (if w.disk.isFolder w.here s.directory then w.log s else .notStarted Fault.missing.message, w)
  | .print text => ((), { w with output := w.output ++ text })
  | .note text => ((), { w with diagnostics := w.diagnostics ++ text })

/-- The reply to a request that the system has trouble with. Only operations on files are refused.
Part of a text may have been written then, and some of the folders on a path may have been made.
What cannot be looked at is taken not to be there. -/
def refuse (w : World) (t : Trouble) : (r : Request) → r.Reply × World
  | .readText _ => (.error t.fault, w)
  | .isFile _ | .entryExists _ => (false, w)
  | .createFile _ | .lockFile _ | .rename _ _ | .removeFile _ => (.error t.fault, w)
  | .makeFolders path =>
    let made := w.disk.makeFolders w.here (Path.above path t.unmade) path.length
    (.error t.fault, { w with disk := made.2 })
  | .writeFile path content =>
    let bytes := content.toUTF8.extract 0 t.written
    (.error t.fault, (w.change (w.disk.writeFile w.here path bytes)).2)
  | r => w.grant r

/-- The reply to a request, and the world after it. -/
def answer (w : World) (r : Request) : r.Reply × World :=
  let (reply, after) := match w.trouble w.requests r with
    | some t => w.refuse t r
    | none => w.grant r
  (reply, { after with requests := w.requests + 1 })

end World

namespace Program

variable {α β : Type}

def run : Program α → World → α × World
  | .done a, w => (a, w)
  | .ask r next, w => (next (w.answer r).1).run (w.answer r).2

@[simp] theorem run_request (r : Request) (w : World) : (request r).run w = w.answer r := rfl

@[simp] theorem run_bind (p : Program α) (f : α → Program β) (w : World) :
    (p >>= f).run w = (f (p.run w).1).run (p.run w).2 := by
  induction p generalizing w with
  | done a => rfl
  | ask r next ih => exact ih (w.answer r).1 (w.answer r).2

end Program

end AntRegister
