import AntRegister.Ant.Basic
import AntRegister.Release.Basic
import AntRegister.Site.Matcher
import Std.Data.HashSet
/-!
Cross-checking the site data, the reconciled ants and the flat listing. Every disagreement is a
finding; nothing fails.
-/

namespace AntRegister

inductive Severity where
  | warning
  | error
  deriving DecidableEq

def Severity.text : Severity → String
  | .warning => "warning"
  | .error => "error"

inductive Finding where
  | acceptedNotOnSite (content : String)
  | legacyNotOnSite (content : String)
  | legacySuggestionNotOnSite (content : String)
  | acceptedNotListed (content suggestion : String)
  | listedNotOnSite (content : String)
  /-- Listed and on the site, but neither accepted nor legacy. -/
  | listedNeedsSuggested (content : String)
  /-- On the site, but no source accounts for it. -/
  | unaccounted (content : String)
  deriving DecidableEq

namespace Finding

def severity : Finding → Severity
  | .unaccounted _ | .acceptedNotListed _ _ => .warning
  | _ => .error

def message : Finding → String
  | .acceptedNotOnSite c => "Accepted ant '" ++ c ++ "' not found as site ant"
  | .legacyNotOnSite c => "Legacy ant '" ++ c ++ "' not found as site ant content"
  | .legacySuggestionNotOnSite c => "Legacy ant '" ++ c ++ "' not found as site ant original"
  | .acceptedNotListed c o => "Ant (" ++ c ++ ", " ++ o ++ ") not in the legacy listing"
  | .listedNotOnSite c => "Listed ant '" ++ c ++ "' is not a site ant, add it to the site data"
  | .listedNeedsSuggested c =>
    "Listed ant '" ++ c ++ "' is neither accepted nor legacy, add 'suggestedContent' to it"
  | .unaccounted c => "Site ant '" ++ c ++ "' is not accounted for by any source"

def kind : Finding → String
  | .acceptedNotOnSite _ => "accepted_not_on_site"
  | .legacyNotOnSite _ => "legacy_not_on_site"
  | .legacySuggestionNotOnSite _ => "legacy_original_not_on_site"
  | .acceptedNotListed _ _ => "accepted_not_listed"
  | .listedNotOnSite _ => "listed_not_on_site"
  | .listedNeedsSuggested _ => "listed_needs_suggested_content"
  | .unaccounted _ => "unaccounted"

def content : Finding → String
  | .acceptedNotOnSite c | .legacyNotOnSite c | .legacySuggestionNotOnSite c
  | .acceptedNotListed c _ | .listedNotOnSite c | .listedNeedsSuggested c | .unaccounted c => c

def unaccounted? : Finding → Option String
  | .unaccounted c => some c
  | _ => none

def toJson (f : Finding) : Json :=
  .object <| [("kind", .text f.kind), ("content", .text f.content)] ++
    match f with
    | .acceptedNotListed _ suggestion => [("original", .text suggestion)]
    | _ => []

end Finding

structure IntegrityReport where
  findings : List Finding
  siteAnts : Nat
  accepted : Nat
  legacy : Nat
  listed : Nat
  deriving DecidableEq

namespace IntegrityReport

/-- The site ants that nothing accounts for. -/
def unaccounted (r : IntegrityReport) : List String := r.findings.filterMap Finding.unaccounted?

def errors (r : IntegrityReport) : Nat := r.findings.countP fun f => f.severity = .error

def hasErrors (r : IntegrityReport) : Bool := r.findings.any fun f => f.severity = .error

def isClean (r : IntegrityReport) : Bool := r.findings.isEmpty

def toJson (r : IntegrityReport) : Json :=
  .object [
    ("findings", .array (r.findings.map Finding.toJson)),
    ("site_ants", .integer r.siteAnts),
    ("accepted", .integer r.accepted),
    ("legacy", .integer r.legacy),
    ("listed", .integer r.listed)]

end IntegrityReport

namespace Integrity

def setOf (xs : List String) : Std.HashSet String := Std.HashSet.ofList xs

def listedFindings (matcher : Matcher) (accepted : List Accepted) (legacy : List Legacy)
    (listed : List String) : List Finding :=
  let contents := setOf (accepted.map fun a => a.content)
  let suggestions := setOf (accepted.map fun a => a.suggestion)
  let legacyContents := setOf (legacy.map fun a => a.content)
  listed.filterMap fun entry =>
    if !matcher.contains entry then some (.listedNotOnSite entry)
    else if contents.contains entry || suggestions.contains entry || legacyContents.contains entry
    then none
    else some (.listedNeedsSuggested entry)

def unlistedFindings (accepted : List Accepted) (listed : List String) : List Finding :=
  let entries := setOf listed
  accepted.filterMap fun a =>
    if entries.contains a.content || entries.contains a.suggestion then none
    else some (.acceptedNotListed a.content a.suggestion)

def acceptedFindings (matcher : Matcher) (accepted : List Accepted) : List Finding :=
  accepted.filterMap fun a =>
    if matcher.contains a.content then none else some (.acceptedNotOnSite a.content)

def legacyFindings (matcher : Matcher) (legacy : List Legacy) : List Finding :=
  legacy.flatMap fun a =>
    (if matcher.contains a.content then [] else [.legacyNotOnSite a.content]) ++
      (if matcher.contains a.suggestion then [] else [.legacySuggestionNotOnSite a.content])

/-- The contents that accepted and legacy ants found on the site account for. -/
def accountedFor (matcher : Matcher) (accepted : List Accepted) (legacy : List Legacy) :
    List String :=
  (accepted.filter fun a => matcher.contains a.content).flatMap (fun a => [a.content, a.suggestion])
  ++ (legacy.filter fun a => matcher.contains a.content || matcher.contains a.suggestion).flatMap
    (fun a => [a.content, a.suggestion])

/-- The site contents that nothing accounts for, in ascending order. -/
def unaccountedFindings (site : Site) (matcher : Matcher) (accepted : List Accepted)
    (legacy : List Legacy) : List Finding :=
  let known := setOf (accountedFor matcher accepted legacy)
  let left := (site.ants.map fun a => a.content).filter fun c => !known.contains c
  (sortedDistinct (fun a b => a ≤ b) left).map .unaccounted

end Integrity

def checkIntegrity (site : Site) (matcher : Matcher) (accepted : List Accepted)
    (legacy : List Legacy) (listed : List String) : IntegrityReport where
  findings :=
    Integrity.listedFindings matcher accepted legacy listed
    ++ Integrity.unlistedFindings accepted listed
    ++ Integrity.acceptedFindings matcher accepted
    ++ Integrity.legacyFindings matcher legacy
    ++ Integrity.unaccountedFindings site matcher accepted legacy
  siteAnts := site.ants.length
  accepted := accepted.length
  legacy := legacy.length
  listed := listed.length

end AntRegister
