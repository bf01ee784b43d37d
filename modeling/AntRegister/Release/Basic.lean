import AntRegister.Ant.Document
import AntRegister.Text.Decimal
import Std.Data.HashMap
/-!
Release numbers. Every day on which an ant of the site was created is a release, and releases are
numbered from 1 in the order of the days.
-/

namespace AntRegister

open Calendar (Date)

/-- A release, labelled with its number. -/
structure Release where
  number : Nat
  deriving DecidableEq

namespace Release

def label (r : Release) : String := "v" ++ Text.decimal r.number

def toJson (r : Release) : Json :=
  .object [("releaseNumber", .integer r.number), ("label", .text r.label)]

end Release

/-- Different members of a list, in the order that `le` gives. -/
def sortedDistinct {α : Type} [BEq α] (le : α → α → Bool) (xs : List α) : List α :=
  xs.eraseDups.mergeSort le

structure Numbered where
  accepted : List (Released Accepted)
  legacy : List (Released Legacy)
  deriving DecidableEq

/-- The numbers of days, counted from 1 in their order. -/
def numberDays (days : List Date) : List (Date × Nat) :=
  (sortedDistinct Date.le days).zipIdx 1

def numberOf (numbers : List (Date × Nat)) (day : Date) : Nat := (numbers.lookup day).getD 0

namespace Numbered

/-- The records of all ants, the accepted ones first. -/
def records (n : Numbered) : List (Released Resident) :=
  n.accepted.map (fun r => ⟨r.ant.toResident, r.release⟩) ++
    n.legacy.map (fun r => ⟨r.ant.toResident, r.release⟩)

end Numbered

/-- The releases that records belong to, ascending. -/
def releasesOf (records : List (Released Resident)) : List Release :=
  (sortedDistinct (· ≤ ·) (records.map fun r => r.release)).map .mk

namespace Numbered

def releases (n : Numbered) : List Release := releasesOf n.records

/-- The number of the most recent release. -/
def latest? (n : Numbered) : Option Nat := (n.records.map fun r => r.release).max?

end Numbered

def assignReleases (accepted : List Accepted) (legacy : List Legacy) : Numbered :=
  let numbers := numberDays
    (accepted.map (fun a => a.createdAt.date) ++ legacy.map (fun a => a.createdAt.date))
  { accepted := accepted.map fun a => ⟨a, numberOf numbers a.createdAt.date⟩
    legacy := legacy.map fun a => ⟨a, numberOf numbers a.createdAt.date⟩ }

end AntRegister
