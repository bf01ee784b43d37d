import AntRegister.Disk.Path
/-!
A tree of files, folders and symbolic links, with the operations that a program has on it. A path is
followed segment by segment, everything on the way has to be a folder, and a link on the way is
replaced by the path that it holds. Files are numbered: names with one number are hard links of one
file. There are no other kinds of files, such as pipes and devices.
-/

namespace AntRegister

inductive Fault where
  | missing
  | notFolder
  | isFolder
  | taken
  | nameTooLong
  | badName
  | looped
  | notText
  | other (detail : String)
  deriving DecidableEq

def Fault.message : Fault → String
  | .missing => "No such file or directory"
  | .notFolder => "Not a directory"
  | .isFolder => "Is a directory"
  | .taken => "File exists"
  | .nameTooLong => "File name too long"
  | .badName => "File name contains a NUL byte"
  | .looped => "Too many levels of symbolic links"
  | .notText => "Stream did not contain valid UTF-8"
  | .other detail => detail

/-- A place in the tree: the names from the root down. -/
abbrev Location := List String

/-- What a name in a folder stands for. -/
inductive Entry where
  | file (number : Nat)
  | folder
  | link (target : String)
  deriving DecidableEq

def Entry.number? : Entry → Option Nat
  | .file k => some k
  | _ => none

/-- What is seen at a place; a link is not followed. -/
inductive Node where
  | file (content : ByteArray)
  | folder
  | link (target : String)

/-- What is below the root, which is always a folder, and the contents of the files by their
numbers. -/
structure Disk where
  entries : List (Location × Entry)
  contents : List (Nat × ByteArray)

namespace Path

/-- The fault of a path that is not that of anything, wherever it leads. -/
def fault? (path : String) : Option Fault :=
  if path.isEmpty then some .missing
  else if path.toList.contains '\x00' then some .badName
  else if longest < path.utf8ByteSize then some .nameTooLong
  else none

/-- Where a path sets out for a program that works in a folder. -/
def start (here : Location) (path : String) : Location := if isAbsolute path then [] else here

end Path

namespace Disk

def empty : Disk := ⟨[], []⟩

def entryAt? (d : Disk) (l : Location) : Option Entry :=
  if l = [] then some .folder else d.entries.lookup l

def content (d : Disk) (number : Nat) : ByteArray := (d.contents.lookup number).getD .empty

def node (d : Disk) : Entry → Node
  | .file k => .file (d.content k)
  | .folder => .folder
  | .link target => .link target

def find? (d : Disk) (l : Location) : Option Node := (d.entryAt? l).map d.node

/-- The path that a link holds. -/
def target? (d : Disk) (l : Location) : Option String :=
  match d.entryAt? l with
  | some (.link target) => some target
  | _ => none

/-- Puts an entry at a place, whatever was there. -/
def enter (d : Disk) (l : Location) (e : Entry) : Disk :=
  { d with entries := (l, e) :: d.entries.filter fun m => m.1 != l }

def erase (d : Disk) (l : Location) : Disk :=
  { d with entries := d.entries.filter fun m => m.1 != l }

/-- Replaces the content of a file, under all its names. -/
def fill (d : Disk) (number : Nat) (content : ByteArray) : Disk :=
  { d with contents := (number, content) :: d.contents.filter fun m => m.1 != number }

/-- A number that no file has. -/
def fresh (d : Disk) : Nat :=
  (d.entries.filterMap fun m => m.2.number?).foldr (fun k bound => max (k + 1) bound) 0

/-- Puts a node at a place, whatever was there. A file is a new one. -/
def put (d : Disk) (l : Location) : Node → Disk
  | .file content => (d.enter l (.file d.fresh)).fill d.fresh content
  | .folder => d.enter l .folder
  | .link target => d.enter l (.link target)

def ofNodes (nodes : List (Location × Node)) : Disk :=
  nodes.foldl (fun d n => d.put n.1 n.2) empty

/-- The number of links that are followed on one path. -/
def mostLinks : Nat := 40

/-- How far segments lead: to a place, or in a folder to a link that others may follow. -/
inductive Way where
  | arrived (l : Location)
  | linked (folder : Location) (target : String) (rest : List String)

/-- The place that a segment leads to from a folder, and the target of the link that is there. The
place may be empty. -/
def look (d : Disk) (l : Location) (s : String) : Except Fault (Location × Option String) :=
  match d.entryAt? l with
  | none => .error .missing
  | some .folder =>
    if Path.isIdle s then .ok (l, none)
    else if s = ".." then .ok (l.dropLast, none)
    else if Path.longestName < s.utf8ByteSize then .error .nameTooLong
    else .ok (l ++ [s], d.target? (l ++ [s]))
  | some _ => .error .notFolder

/-- Where segments lead from a place, up to the next link. A link that the last of them leads to is
only followed on demand. -/
def advance (d : Disk) (follow : Bool) (l : Location) : List String → Except Fault Way
  | [] => .ok (.arrived l)
  | s :: rest =>
    match d.look l s with
    | .error fault => .error fault
    | .ok (m, none) => advance d follow m rest
    | .ok (m, some target) =>
      if rest.isEmpty && !follow then .ok (.arrived m) else .ok (.linked l target rest)

/-- Where segments lead from a place if so many links may still be followed. -/
def walk (d : Disk) (follow : Bool) (links : Nat) (l : Location) (segments : List String) :
    Except Fault Location :=
  match d.advance follow l segments with
  | .error fault => .error fault
  | .ok (.arrived m) => .ok m
  | .ok (.linked folder target rest) =>
    match links with
    | 0 => .error .looped
    | links + 1 =>
      d.walk follow links (Path.start folder target) (Path.segments target ++ rest)

/-- Where a path leads for a program that works in a folder. -/
def locate (d : Disk) (follow : Bool) (here : Location) (path : String) : Except Fault Location :=
  match Path.fault? path with
  | some fault => .error fault
  | none => d.walk follow mostLinks (Path.start here path) (Path.segments path)

def nodeAt? (d : Disk) (here : Location) (path : String) : Option Node :=
  match d.locate true here path with
  | .ok l => d.find? l
  | .error _ => none

def isFile (d : Disk) (here : Location) (path : String) : Bool :=
  match d.nodeAt? here path with
  | some (.file _) => true
  | _ => false

def isFolder (d : Disk) (here : Location) (path : String) : Bool :=
  match d.nodeAt? here path with
  | some .folder => true
  | _ => false

def readText (d : Disk) (here : Location) (path : String) : Except Fault String := do
  match d.find? (← d.locate true here path) with
  | some (.file bytes) =>
    match String.fromUTF8? bytes with
    | some s => return s
    | none => throw .notText
  | some .folder => throw .isFolder
  | _ => throw .missing

/-- Makes one folder. Slashes at the end of its path do not matter. -/
def makeFolder (d : Disk) (here : Location) (path : String) : Except Fault Disk := do
  if let some fault := Path.fault? path then throw fault
  let l ← d.walk false mostLinks (Path.start here path) (Path.slashless path)
  match d.entryAt? l with
  | some _ => throw .taken
  | none => return d.enter l .folder

/-- Makes a folder that may be there already. -/
def ensureFolder (d : Disk) (here : Location) (path : String) : Except Fault Unit × Disk :=
  match d.makeFolder here path with
  | .ok d => (.ok (), d)
  | .error fault => (if d.isFolder here path then .ok () else .error fault, d)

/-- Makes a folder and those above it that are missing, no more than `depth` of them. Those that
were made stay if the folder itself cannot be made. -/
def makeFolders (d : Disk) (here : Location) (path : String) (depth : Nat) :
    Except Fault Unit × Disk :=
  if path.isEmpty then (.ok (), d)
  else
    match d.ensureFolder here path with
    | (.error .missing, d) =>
      match depth, Path.parent? path with
      | depth + 1, some above =>
        match d.makeFolders here above depth with
        | (.ok (), d) => d.ensureFolder here path
        | (.error fault, d) => (.error fault, d)
      | _, _ => (.error .missing, d)
    | outcome => outcome

/-- Opens a file for writing: it is there afterwards, and empty, whatever its other names are. -/
def createFile (d : Disk) (here : Location) (path : String) : Except Fault Disk := do
  let l ← d.locate true here path
  match d.entryAt? l with
  | some (.file k) => return d.fill k .empty
  | none => return d.put l (.file .empty)
  | some .folder => throw .isFolder
  | some (.link _) => throw .looped

def writeFile (d : Disk) (here : Location) (path : String) (bytes : ByteArray) :
    Except Fault Disk := do
  let l ← d.locate true here path
  match d.entryAt? l with
  | some (.file k) => return d.fill k bytes
  | some .folder => throw .isFolder
  | _ => throw .missing

/-- Moves a file or a link, in one step, to a place where no folder is. Where both are one file
already, nothing happens. -/
def rename (d : Disk) (here : Location) (old new : String) : Except Fault Disk := do
  let source ← d.locate false here old
  let target ← d.locate false here new
  match d.entryAt? source, d.entryAt? target with
  | none, _ => throw .missing
  | some .folder, _ | _, some .folder => throw .isFolder
  | some moved, other =>
    if moved.number?.isSome && other == some moved then return d
    else return (d.erase source).enter target moved

/-- Removes a file or a link. -/
def removeFile (d : Disk) (here : Location) (path : String) : Except Fault Disk := do
  let l ← d.locate false here path
  match d.entryAt? l with
  | none => throw .missing
  | some .folder => throw .isFolder
  | some _ => return d.erase l

end Disk

end AntRegister
