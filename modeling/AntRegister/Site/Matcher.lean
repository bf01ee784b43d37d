import AntRegister.Site.Basic
import Std.Data.HashMap
/-!
Finding the site ant that a text belongs to: the one whose content it is, else the one that was
suggested as it. Of several, the last one counts.
-/

namespace AntRegister

structure Matcher where
  byContent : Std.HashMap String SiteEntry
  bySuggestion : Std.HashMap String SiteEntry

namespace Matcher

def empty : Matcher := ⟨∅, ∅⟩

def add (m : Matcher) (a : SiteAnt) : Matcher where
  byContent := m.byContent.insert a.content a.entry
  bySuggestion :=
    match a.suggested with
    | some s => m.bySuggestion.insert s a.entry
    | none => m.bySuggestion

def ofAnts (ants : List SiteAnt) : Matcher := ants.foldl add empty

def lookup (m : Matcher) (text : String) : Option SiteEntry :=
  m.byContent[text]? <|> m.bySuggestion[text]?

def contains (m : Matcher) (text : String) : Bool := (m.lookup text).isSome

def size (m : Matcher) : Nat := m.byContent.size

end Matcher

end AntRegister
