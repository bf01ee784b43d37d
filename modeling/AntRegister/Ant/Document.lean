import AntRegister.Ant.Basic
import AntRegister.Site.Document
/-!
The JSON form of reconciled ants.
-/

namespace AntRegister

open Calendar (Instant)

def Unseen.members (a : Unseen) : List (String × Json) :=
  [("originalSuggestionContent", .text a.suggestion), ("createdAt", a.createdAt.toJson)]

def Declined.members (a : Declined) : List (String × Json) :=
  [("originalSuggestionContent", .text a.suggestion), ("createdAt", a.createdAt.toJson),
    ("closedAt", a.closedAt.toJson)]

def Resident.members (a : Resident) : List (String × Json) :=
  [("antContent", .text a.content), ("ordering", .integer a.ordering),
    ("tweeted", .bool a.tweeted), ("tweetedAt", Json.orNull Instant.toJson a.tweetedAt),
    ("originalSuggestionContent", .text a.suggestion), ("createdAt", a.createdAt.toJson)]

def Accepted.members (a : Accepted) : List (String × Json) :=
  a.toResident.members ++ [("closedAt", a.closedAt.toJson)]

def Legacy.members (a : Legacy) : List (String × Json) := a.toResident.members

/-- An ant with its release number last. -/
def Released.toJson {α : Type} (members : α → List (String × Json)) (r : Released α) : Json :=
  .object (members r.ant ++ [("release", .integer r.release)])

namespace Ant

def members : Ant → List (String × Json)
  | .unseen a => a.members
  | .declined a => a.members
  | .accepted a => a.members
  | .legacy a => a.members

def toJson (a : Ant) : Json := .object (("kind", .text a.kind) :: a.members)

end Ant

end AntRegister
