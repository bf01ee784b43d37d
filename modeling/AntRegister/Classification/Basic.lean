import AntRegister.Ant.Basic
import AntRegister.Issue.Basic
import AntRegister.Latest
import AntRegister.Site.Matcher
/-!
Classifying the issue export. An issue is skipped if it is closed without a date or if its title
carries no suggestion; an open one is unseen; a closed one is accepted if its suggestion is found
among the site's ants, and else declined. Of repeated acceptances of one ant the last one counts.
-/

namespace AntRegister

open Calendar (Instant)

inductive Mode where
  /-- All of them are skipped. -/
  | lenient
  /-- Those that the suggestion form filed are an error. -/
  | strict
  deriving DecidableEq

inductive ClassificationError where
  | untitled (title : String)
  deriving DecidableEq

def ClassificationError.message : ClassificationError → String
  | .untitled title => "Generated issue has no backticked content in its title: '" ++ title ++ "'"

inductive Verdict where
  | skipped
  | unseen (ant : Unseen)
  | declined (ant : Declined)
  | accepted (ant : Accepted)
  deriving DecidableEq

namespace Verdict

def unseen? : Verdict → Option Unseen
  | .unseen a => some a
  | _ => none

def declined? : Verdict → Option Declined
  | .declined a => some a
  | _ => none

def accepted? : Verdict → Option Accepted
  | .accepted a => some a
  | _ => none

def ofClosed (matcher : Matcher) (content : String) (createdAt closedAt : Instant) : Verdict :=
  match matcher.lookup content with
  | some e => .accepted (.ofEntry e createdAt closedAt)
  | none => .declined ⟨content, createdAt, closedAt⟩

def ofContent (matcher : Matcher) (content : String) (i : Issue) : Verdict :=
  match i.closed, i.closedAt with
  | true, some closedAt => ofClosed matcher content i.createdAt closedAt
  | _, _ => .unseen ⟨content, i.createdAt⟩

def ofIssue (matcher : Matcher) (mode : Mode) (i : Issue) : Except ClassificationError Verdict :=
  if i.closed ∧ i.closedAt = none then .ok .skipped
  else
    match i.content? with
    | some content => .ok (ofContent matcher content i)
    | none =>
      if mode = .strict ∧ i.hasLabel Issue.autogenerated then .error (.untitled i.title)
      else .ok .skipped

end Verdict

structure Classification where
  unseen : List Unseen
  declined : List Declined
  accepted : List Accepted
  skipped : Nat
  deriving DecidableEq

namespace Classification

def ofVerdicts (vs : List Verdict) : Classification where
  unseen := vs.filterMap Verdict.unseen?
  declined := vs.filterMap Verdict.declined?
  accepted := latestBy (fun a => a.content) (vs.filterMap Verdict.accepted?)
  skipped := vs.count .skipped

/-- The classified ants: the unseen, then the declined, then the accepted. -/
def ants (c : Classification) : List Ant :=
  c.unseen.map .unseen ++ c.declined.map .declined ++ c.accepted.map .accepted

end Classification

def classify (issues : List Issue) (matcher : Matcher) (mode : Mode) :
    Except ClassificationError Classification :=
  (issues.mapM (Verdict.ofIssue matcher mode)).map .ofVerdicts

end AntRegister
