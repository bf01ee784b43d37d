/-!
JSON values, and their compact text: members in order, no blanks, and only those characters escaped
that have to be.
-/

namespace AntRegister

/-- A JSON value. `unheld` stands for every legal value that cannot be held here: a number that is
no integer, a string with half of a surrogate pair, an object with such a key. -/
inductive Json where
  | null
  | bool (value : Bool)
  | integer (value : Int)
  | text (value : String)
  | array (items : List Json)
  | object (members : List (String × Json))
  | unheld
  deriving Inhabited

namespace Json

/-- A member that is left out when there is no value. -/
def memberIf {α : Type} (name : String) (toJson : α → Json) : Option α → List (String × Json)
  | some a => [(name, toJson a)]
  | none => []

/-- A value, or null when there is none. -/
def orNull {α : Type} (toJson : α → Json) : Option α → Json
  | some a => toJson a
  | none => .null

end Json

end AntRegister
