import Std.Data.HashMap
/-!
Collapsing records with the same key: the last record of a key takes the place of its first.
-/

namespace AntRegister

/-- Records in order, with the place of each key. -/
structure Slots (κ α : Type) [BEq κ] [Hashable κ] where
  places : Std.HashMap κ Nat
  records : Array α

variable {κ α : Type} [BEq κ] [Hashable κ]

namespace Slots

def empty : Slots κ α := ⟨∅, #[]⟩

/-- A record replaces the one with its key, or comes last. -/
def put (key : α → κ) (s : Slots κ α) (a : α) : Slots κ α :=
  match s.places[key a]? with
  | some i => { s with records := s.records.setIfInBounds i a }
  | none => ⟨s.places.insert (key a) s.records.size, s.records.push a⟩

end Slots

/-- One record of each key, the last of it, in the order in which the keys come first. -/
def latestBy (key : α → κ) (records : List α) : List α :=
  (records.foldl (Slots.put key) Slots.empty).records.toList

end AntRegister
