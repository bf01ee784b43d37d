/-!
Paths as texts. Slashes separate the segments of a path; empty segments and dots between the first
segment and the end do not count, and what is cut off a path leaves the rest as it was written.
-/

namespace AntRegister.Path

/-- The number of bytes that a path may have. -/
def longest : Nat := 4095

/-- The number of bytes that a name may have. -/
def longestName : Nat := 255

/-- Splits a text at its slashes; `segment` holds the characters of the current segment, last
first. -/
def splitFrom (segment : List Char) : List Char → List String
  | [] => [.ofList segment.reverse]
  | c :: cs =>
    if c = '/' then .ofList segment.reverse :: splitFrom [] cs else splitFrom (c :: segment) cs

def segments (path : String) : List String := splitFrom [] path.toList

/-- The segments of a path up to the slashes at its end. -/
def slashless (path : String) : List String :=
  ((segments path).reverse.dropWhile String.isEmpty).reverse

def isAbsolute (path : String) : Bool := path.toList.head? == some '/'

/-- A path seen from a base; an absolute one stays as it is. -/
def join (base path : String) : String :=
  if isAbsolute path || base.isEmpty then path
  else if base.toList.getLast? == some '/' then base ++ path
  else base ++ "/" ++ path

/-- Whether a segment stands for nothing unless it is the first. -/
def isIdle (segment : String) : Bool := segment.isEmpty || segment == "."

/-- Segments without the idle ones at their end; the first one always stays. -/
def trimIdle : List String → List String
  | [] => []
  | s :: rest => s :: (rest.reverse.dropWhile isIdle).reverse

/-- The segments that count towards the last one. -/
def trimmedSegments (path : String) : List String := trimIdle (segments path)

/-- The path of segments; a lone empty one in front is the root. -/
def ofSegments (ss : List String) : String := if ss = [""] then "/" else "/".intercalate ss

/-- The path without its last segment, unless it has none. -/
def parent? (path : String) : Option String :=
  let ss := trimmedSegments path
  if ss = [""] then none else some (ofSegments (trimIdle ss.dropLast))

/-- The path without so many of its last segments, as far as it has them. -/
def above (path : String) : Nat → String
  | 0 => path
  | count + 1 =>
    match parent? path with
    | some parent => above parent count
    | none => path

/-- The last segment, if it is a name. -/
def fileName? (path : String) : Option String :=
  match (trimmedSegments path).getLast? with
  | some name => if isIdle name || name == ".." then none else some name
  | none => none

/-- The parts that tell where a path leads: the root, a dot that comes first, and names. -/
def components (path : String) : List String :=
  match segments path with
  | [] => []
  | first :: rest =>
    let names := rest.filter fun s => !isIdle s
    if first.isEmpty then (if isAbsolute path then "/" :: names else names) else first :: names

/-- Whether two paths are the same but for slashes and dots that do not count. -/
def same (a b : String) : Bool := components a == components b

/-- A name up to its last dot, if that does not come first. -/
def stem (name : String) : String :=
  match (name.toList.reverse.dropWhile (· != '.')) with
  | _ :: c :: cs => .ofList (c :: cs).reverse
  | _ => name

/-- The path with another extension, if it ends in a name. What is left of a name of two dots and an
extension is no name, so that nothing is added to it. -/
def withExtension (path extension : String) : String :=
  match fileName? path with
  | some name =>
    let folder := (trimmedSegments path).dropLast
    if stem name = "." ∧ (segments path).getLast? = some name then ofSegments (folder ++ [".."])
    else ofSegments (folder ++ [stem name ++ "." ++ extension])
  | none => path

end AntRegister.Path
