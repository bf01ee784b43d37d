import AntRegister.Disk.Basic
import AntRegister.History.LogSearch
/-!
Programs: what a command asks of the world around it, and how it goes on with each reply. The same
program runs on a `World`, which is a value, and on a real system.
-/

namespace AntRegister

inductive Request where
  | readText (path : String)
  | isFile (path : String)
  | entryExists (path : String)
  /-- Make a folder and those above it that are missing. -/
  | makeFolders (path : String)
  /-- Open a file for writing, which empties it. -/
  | createFile (path : String)
  /-- Lock a file against others that ask for its lock. -/
  | lockFile (path : String)
  | writeFile (path content : String)
  | rename (old new : String)
  | removeFile (path : String)
  /-- The value of an environment variable. -/
  | environment (name : String)
  /-- The folder that the system has for the user's settings of the program. -/
  | settingsFolder
  | searchLog (search : LogSearch)
  /-- Write to the output. -/
  | print (text : String)
  /-- Write to the diagnostics. -/
  | note (text : String)

abbrev Request.Reply : Request → Type
  | .readText _ => Except Fault String
  | .isFile _ | .entryExists _ => Bool
  | .makeFolders _ | .createFile _ | .lockFile _ | .writeFile _ _ | .rename _ _
  | .removeFile _ => Except Fault Unit
  | .environment _ | .settingsFolder => Option String
  | .searchLog _ => LogReply
  | .print _ | .note _ => Unit

inductive Program (α : Type) where
  | done (a : α)
  | ask (r : Request) (next : r.Reply → Program α)

namespace Program

variable {α β : Type}

def bind : Program α → (α → Program β) → Program β
  | .done a, f => f a
  | .ask r next, f => .ask r fun reply => (next reply).bind f

instance : Monad Program where
  pure := .done
  bind := bind

def request (r : Request) : Program r.Reply := .ask r .done

def print (text : String) : Program Unit := request (.print text)

def note (text : String) : Program Unit := request (.note text)

theorem bind_done (p : Program α) : p.bind .done = p := by
  induction p with
  | done a => rfl
  | ask r next ih => simp [bind, ih]

theorem bind_assoc {γ : Type} (p : Program α) (f : α → Program β) (g : β → Program γ) :
    (p.bind f).bind g = p.bind fun a => (f a).bind g := by
  induction p with
  | done a => rfl
  | ask r next ih => simp [bind, ih]

instance : LawfulMonad Program :=
  LawfulMonad.mk' Program (fun p => bind_done p) (fun _ _ => rfl) (fun p f g => bind_assoc p f g)

end Program

end AntRegister
