import AntRegister.Toml.Scan
/-!
Reading a TOML text: its lines in order, each of which adds to the table that is being built.
-/

namespace AntRegister.Toml

open AntRegister.Reader

inductive Line where
  | pair (path : List String) (v : Value)
  /-- The header of a table. -/
  | header (path : List String)
  /-- The header of a new item of an array of tables. -/
  | itemHeader (path : List String)

def headerLine : Reader Line
  | '[' :: '[' :: rest => (do
    let path ← key
    word [']', ']']
    restOfLine
    return .itemHeader path : Reader Line) rest
  | '[' :: rest => (do
    let path ← key
    char ']'
    restOfLine
    return .header path : Reader Line) rest
  | _ => none

def pairLine : Reader Line := do
  let (path, v) ← Toml.pair (value deepest)
  restOfLine
  return .pair path v

/-- The lines of a text; `done` holds those so far, last first. -/
def lines : Nat → List Line → Reader (List Line)
  | 0, _ => fail
  | fuel + 1, done => do
    skipSpace
    match ← peek with
    | none => return done.reverse
    | some '#' | some '\n' | some '\r' =>
      restOfLine
      lines fuel done
    | some '[' => lines fuel ((← headerLine) :: done)
    | _ => lines fuel ((← pairLine) :: done)

/-- The table being built, and the path of the header that lines belong to. -/
structure Building where
  entries : Entries
  header : List String

namespace Building

def openTable (key : String) (kind : TableKind) (es : Entries) : Option (TableKind × Entries) :=
  match es.get? key with
  | none => some (kind, es.set key (.table .headed []))
  | some (.table .implied inner) => some (kind, es.set key (.table .headed inner))
  | _ => none

def openItem (key : String) (kind : TableKind) (es : Entries) : Option (TableKind × Entries) :=
  match es.get? key with
  | none => some (kind, es.set key (.array true [.table .headed []]))
  | some (.array true items) =>
    some (kind, es.set key (.array true (items ++ [.table .headed []])))
  | _ => none

def add (b : Building) : Line → Option Building
  | .pair path v => do
    let (_, es) ← update false (insert path v) b.header .headed b.entries
    return { b with entries := es }
  | .header path => do
    let (_, es) ← update false (openTable (← path.getLast?)) path.dropLast .headed b.entries
    return ⟨es, path⟩
  | .itemHeader path => do
    let (_, es) ← update false (openItem (← path.getLast?)) path.dropLast .headed b.entries
    return ⟨es, path⟩

end Building

/-- The table that a TOML text stands for. A byte order mark may come first. -/
def read? (s : String) : Option Entries := do
  let cs := match s.toList with
    | '\ufeff' :: rest => rest
    | cs => cs
  let (ls, _) ← lines (cs.length + 1) [] cs
  let b ← ls.foldlM Building.add ⟨[], []⟩
  return b.entries

end AntRegister.Toml
