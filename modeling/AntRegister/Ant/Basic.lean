import AntRegister.Site.Basic
/-!
Reconciled ants. A suggestion is unseen while its issue is open; a closed one was declined, or
accepted if the site shows it. Legacy ants are on the site without an issue.
-/

namespace AntRegister

open Calendar (Instant)

structure Unseen where
  suggestion : String
  createdAt : Instant
  deriving DecidableEq

structure Declined where
  suggestion : String
  createdAt : Instant
  closedAt : Instant
  deriving DecidableEq

/-- An ant that lives on the site. -/
structure Resident where
  content : String
  ordering : Nat
  tweeted : Bool
  tweetedAt : Option Instant
  suggestion : String
  createdAt : Instant
  deriving DecidableEq

structure Accepted extends Resident where
  closedAt : Instant
  deriving DecidableEq

structure Legacy extends Resident where
  deriving DecidableEq

/-- An accepted ant takes all but its dates from the site. -/
def Accepted.ofEntry (e : SiteEntry) (createdAt closedAt : Instant) : Accepted :=
  ⟨⟨e.content, e.ordering, e.tweeted, e.tweetedAt, e.suggestion, createdAt⟩, closedAt⟩

/-- A legacy ant was never suggested in another form, so that its suggestion is its content. -/
def Legacy.ofEntry (e : SiteEntry) (createdAt : Instant) : Legacy :=
  ⟨⟨e.content, e.ordering, e.tweeted, e.tweetedAt, e.content, createdAt⟩⟩

structure Released (α : Type) where
  ant : α
  release : Nat
  deriving DecidableEq

inductive Ant where
  | unseen (ant : Unseen)
  | declined (ant : Declined)
  | accepted (ant : Accepted)
  | legacy (ant : Legacy)
  deriving DecidableEq

namespace Ant

def kind : Ant → String
  | .unseen _ => "unseen"
  | .declined _ => "declined"
  | .accepted _ => "accepted"
  | .legacy _ => "legacy"

/-- The content that the site shows, for ants that are on it. -/
def content? : Ant → Option String
  | .accepted a => some a.content
  | .legacy a => some a.content
  | _ => none

def suggestion : Ant → String
  | .unseen a => a.suggestion
  | .declined a => a.suggestion
  | .accepted a => a.suggestion
  | .legacy a => a.suggestion

def createdAt : Ant → Instant
  | .unseen a => a.createdAt
  | .declined a => a.createdAt
  | .accepted a => a.createdAt
  | .legacy a => a.createdAt

/-- The content that the site shows, else the one that was suggested. -/
def display (a : Ant) : String := a.content?.getD a.suggestion

end Ant

end AntRegister
