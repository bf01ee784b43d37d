import AntRegister.Calendar.Document
import AntRegister.Issue.Basic
/-!
The issue export as a JSON document.
-/

namespace AntRegister

open Calendar (Instant)

namespace IssueState

def name : IssueState → String
  | .open_ => "OPEN"
  | .closed => "CLOSED"

def ofJson? (j : Json) : Option IssueState := do
  let n ← j.asName?
  if n = "OPEN" then some .open_ else if n = "CLOSED" then some .closed else none

end IssueState

namespace Issue

/-- A label is a record with its name. -/
def labelOfJson? (j : Json) : Option String := do
  (← j.fields? ["name"]).required? "name" Json.asText?

def ofJson? (j : Json) : Option Issue := do
  let fs ← j.fields? ["title", "state", "createdAt", "closed", "closedAt", "body", "labels"]
  return {
    title := ← fs.required? "title" Json.asText?
    state := ← fs.required? "state" IssueState.ofJson?
    createdAt := ← fs.required? "createdAt" Instant.ofJson?
    closed := ← fs.required? "closed" Json.asBool?
    closedAt := ← fs.nullable? "closedAt" Instant.ofJson?
    body := ← fs.defaulted? "body" "" Json.asText?
    labels := ← fs.defaulted? "labels" [] (Json.asList? labelOfJson?)
  }

def toJson (i : Issue) : Json :=
  .object [
    ("title", .text i.title),
    ("state", .text i.state.name),
    ("createdAt", i.createdAt.toJson),
    ("closed", .bool i.closed),
    ("closedAt", Json.orNull Instant.toJson i.closedAt),
    ("body", .text i.body),
    ("labels", .array (i.labels.map fun l => .object [("name", .text l)]))]

end Issue

end AntRegister
