import AntRegister.Json.Basic
/-!
Reading records. A record is an object, in which members of other names are passed over and one of
its own names may not come twice, or an array of its fields in their order, in which fields at the
end may be left out.
-/

namespace AntRegister.Json

def asText? : Json → Option String
  | .text s => some s
  | _ => none

def asBool? : Json → Option Bool
  | .bool b => some b
  | _ => none

def asInt? (low high : Int) : Json → Option Int
  | .integer i => if low ≤ i ∧ i ≤ high then some i else none
  | _ => none

/-- A number that is not negative and at most `high`. -/
def asNat? (high : Nat) (j : Json) : Option Nat := (asInt? 0 high j).map Int.toNat

/-- A list, each of whose items is read. -/
def asList? {α : Type} (read : Json → Option α) : Json → Option (List α)
  | .array items => items.mapM read
  | _ => none

def asOption? {α : Type} (read : Json → Option α) : Json → Option (Option α)
  | .null => some none
  | j => (read j).map some

/-- One of a set of names: the name as a text, or an object of one member with that name and the
value null. -/
def asName? : Json → Option String
  | .text s => some s
  | .object [(k, .null)] => some k
  | _ => none

/-- The fields of a record that are present. In a positional record, only a field with a default may
be missing. -/
structure Fields where
  present : List (String × Json)
  positional : Bool

def fields? (names : List String) : Json → Option Fields
  | .object members =>
    let own := members.filter fun m => names.contains m.1
    if (own.map Prod.fst).eraseDups.length = own.length then some ⟨own, false⟩ else none
  | .array items => if items.length ≤ names.length then some ⟨names.zip items, true⟩ else none
  | _ => none

namespace Fields

def required? {α : Type} (fs : Fields) (name : String) (read : Json → Option α) : Option α := do
  read (← fs.present.lookup name)

def defaulted? {α : Type} (fs : Fields) (name : String) (fallback : α) (read : Json → Option α) :
    Option α :=
  match fs.present.lookup name with
  | some j => read j
  | none => some fallback

/-- A field that may be null, and may be left out of an object. -/
def nullable? {α : Type} (fs : Fields) (name : String) (read : Json → Option α) :
    Option (Option α) :=
  match fs.present.lookup name with
  | some j => asOption? read j
  | none => if fs.positional then none else some none

/-- A field that may be null or left out. -/
def optional? {α : Type} (fs : Fields) (name : String) (read : Json → Option α) :
    Option (Option α) :=
  fs.defaulted? name none (asOption? read)

end Fields

end AntRegister.Json
