import AntRegister.Calendar.Instant
import AntRegister.Title
/-!
Issues of the tracker's export. Each is one past submission of a suggestion, which stands in its
title.
-/

namespace AntRegister

open Calendar (Instant)

inductive IssueState where
  | open_
  | closed
  deriving DecidableEq

structure Issue where
  title : String
  state : IssueState
  createdAt : Instant
  closed : Bool
  closedAt : Option Instant
  body : String
  labels : List String
  deriving DecidableEq

namespace Issue

/-- The label of the issues that the suggestion form files. -/
def autogenerated : String := "autogenerated"

/-- An open issue without labels. -/
def opened (title : String) (createdAt : Instant) : Issue :=
  ⟨title, .open_, createdAt, false, none, "", []⟩

/-- A closed issue without labels. -/
def closedOn (title : String) (createdAt closedAt : Instant) : Issue :=
  ⟨title, .closed, createdAt, true, some closedAt, "", []⟩

def withLabel (i : Issue) (label : String) : Issue := { i with labels := i.labels ++ [label] }

def hasLabel (i : Issue) (label : String) : Bool := i.labels.contains label

def plain (i : Issue) : Issue :=
  { i with title := Title.plainApostrophes i.title, body := Title.plainApostrophes i.body }

def content? (i : Issue) : Option String := Title.content? i.title

end Issue

end AntRegister
