import AntRegister.Ant.Document
import AntRegister.Classification.Basic
/-!
The JSON form of a classification.
-/

namespace AntRegister

/-- The members of a classification: the ants of each kind, which do not tell their kind again. -/
def Classification.toJson (c : Classification) : Json :=
  .object [
    ("unseen", .array (c.unseen.map fun a => .object a.members)),
    ("declined", .array (c.declined.map fun a => .object a.members)),
    ("accepted", .array (c.accepted.map fun a => .object a.members)),
    ("skipped", .integer c.skipped)]

end AntRegister
