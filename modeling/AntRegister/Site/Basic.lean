import AntRegister.Calendar.Instant
import AntRegister.ContentHash
/-!
The curated site data: the ants that were really accepted. An ant has the content that the site
shows, and the content it was suggested as if that was edited.
-/

namespace AntRegister

open Calendar (Instant)

structure SiteAnt where
  content : String
  suggested : Option String
  legacy : Option Bool
  tweeted : Option Bool
  tweetedAt : Option Instant
  deriving DecidableEq

structure SiteEntry where
  content : String
  suggestion : String
  ordering : Nat
  tweeted : Bool
  tweetedAt : Option Instant
  deriving DecidableEq

namespace SiteAnt

/-- An ant of which only the content is known. -/
def plain (content : String) : SiteAnt := ⟨content, none, none, none, none⟩

def withSuggestion (a : SiteAnt) (suggested : String) : SiteAnt :=
  { a with suggested := some suggested }

def markedLegacy (a : SiteAnt) : SiteAnt := { a with legacy := some true }

def tweetedOn (a : SiteAnt) (i : Instant) : SiteAnt :=
  { a with tweeted := some true, tweetedAt := some i }

/-- Whether the ant was accepted before suggestions were filed as issues. -/
def isLegacy (a : SiteAnt) : Bool := a.legacy.getD false

def suggestion (a : SiteAnt) : String := a.suggested.getD a.content

def entry (a : SiteAnt) : SiteEntry :=
  ⟨a.content, a.suggestion, contentHash a.content, a.tweeted.getD false, a.tweetedAt⟩

end SiteAnt

structure Site where
  version : String
  ants : List SiteAnt
  deriving DecidableEq

/-- Site data without a version. -/
def Site.ofAnts (ants : List SiteAnt) : Site := ⟨"", ants⟩

/-- The ants that are flagged as legacy, in order. -/
def Site.legacyAnts (s : Site) : List SiteAnt := s.ants.filter SiteAnt.isLegacy

end AntRegister
