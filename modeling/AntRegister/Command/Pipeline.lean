import AntRegister.Ant.Document
import AntRegister.Command.Basic
import AntRegister.Documents
import AntRegister.Integrity
import AntRegister.Legacy.Basic
import AntRegister.OutputFolder
import AntRegister.Site.Matcher
import AntRegister.Sql.Script
/-!
The commands that work on all sources: reconciling them, classifying the issues, cross-checking.
-/

namespace AntRegister

open Calendar (Instant)

/-- The documents of a run, with the site's ants made ready for look-ups. -/
structure Sources where
  site : Site
  matcher : Matcher
  issues : List Issue

namespace Sources

def load (c : Console) (s : Settings) : Action Sources := do
  c.progressOf "load" ("Site data: " ++ s.siteData)
  let site ← loadSite s.siteData
  let matcher := Matcher.ofAnts site.ants
  c.progressOf "load" (Text.decimal site.ants.length ++ " site ants, " ++
    Text.decimal matcher.size ++ " lookup keys")
  c.progressOf "load" ("Issue export: " ++ s.issueExport)
  let issues ← loadIssues s.issueExport
  c.progressOf "load" (Text.decimal issues.length ++ " issues")
  return { site, matcher, issues }

def classify (sources : Sources) (c : Console) (mode : Mode) : Action Classification := do
  let found ← Action.ofExcept .classification
    (AntRegister.classify sources.issues sources.matcher mode)
  c.progressOf "classify" (Text.decimal found.unseen.length ++ " unseen, " ++
    Text.decimal found.declined.length ++ " declined, " ++
    Text.decimal found.accepted.length ++ " accepted, " ++ Text.decimal found.skipped ++ " skipped")
  return found

/-- The legacy ants, dated by the history. -/
def resolveLegacy (sources : Sources) (c : Console) (workers : Nat)
    (history : String → Program (Except HistoryError Instant)) : Action (List Legacy) := do
  c.progressOf "history" ("Resolving " ++ Text.decimal sources.site.legacyAnts.length ++
    " legacy ants with " ++ Text.decimal workers ++ " workers")
  let resolved ← (sources.site.resolveLegacy history : Program _)
  let legacy ← Action.ofExcept .history resolved
  c.progressOf "history" (Text.decimal legacy.length ++ " distinct legacy ants")
  return legacy

end Sources

/-- What answers questions about the history: a table if there is a file for it, else the log. -/
def HistoryArguments.source (a : HistoryArguments) (c : Console) (s : Settings) :
    Action (String → Program (Except HistoryError Instant)) :=
  match a.file with
  | some path => do
    c.progressOf "history" ("Using fixture: " ++ path)
    let table ← loadHistory path
    return fun content => return table.answer content
  | none => do
    c.progressOf "history" ("Using git in " ++ s.history.repository ++ " (" ++
      Text.decimal s.history.timeout ++ "s per lookup)")
    return answerFromLog (fun search => Program.request (.searchLog search)) s.history.repository
      (1000 * s.history.timeout)

/-- Everything that the sources say: the classified issues and the legacy ants. -/
structure Reconciliation where
  classification : Classification
  legacy : List Legacy

namespace Reconciliation

def numbered (r : Reconciliation) : Numbered := assignReleases r.classification.accepted r.legacy

def seed (r : Reconciliation) (options : Sql.Options) : Sql.Seed :=
  .ofAnts r.numbered r.classification.declined options

def seedFile : String := "seed.sql"

/-- All names that a run may write. -/
def ownedFiles : List String :=
  ["ant.sql", "ant_tweeted.sql", "ant_declined.sql", "release.sql", "ant_release.sql",
    "migration.sql", seedFile]

/-- The files of a seed: its tables one by one, then the whole. -/
def files (seed : Sql.Seed) : List (String × String) := seed.files ++ [(seedFile, seed.transaction)]

/-- The counts of a run, its label and the files that it wrote. -/
def summary (r : Reconciliation) (label : String) (written : List String) : Json :=
  .object [
    ("unseen", .integer r.classification.unseen.length),
    ("declined", .integer r.classification.declined.length),
    ("accepted", .integer r.classification.accepted.length),
    ("legacy", .integer r.legacy.length),
    ("skipped", .integer r.classification.skipped),
    ("releases", .integer r.numbered.releases.length),
    ("latest_release", Json.orNull (fun n => .integer n) r.numbered.latest?),
    ("migration_label", .text label),
    ("files", .array (written.map .text))]

/-- Shows what came of a run, and the folder that it wrote to. -/
def report (r : Reconciliation) (c : Console) (label folder : String) (written : List String) :
    Program Unit :=
  match c.format with
  | .json => Console.document (r.summary label written)
  | .text => do
    c.count "Unseen" r.classification.unseen.length
    c.count "Declined" r.classification.declined.length
    c.count "Accepted" r.classification.accepted.length
    c.count "Legacy" r.legacy.length
    c.count "Skipped" r.classification.skipped
    c.count "Releases" r.numbered.releases.length
    c.field "Migration" label
    c.blank
    c.success ("Wrote " ++ Text.decimal written.length ++ " files to " ++ folder)

end Reconciliation

namespace Pipeline

/-- A number that may be missing, as progress messages show it. -/
def shownOption : Option Nat → String
  | some n => "Some(" ++ Text.decimal n ++ ")"
  | none => "None"

/-- Writes a seed into a folder and removes what earlier runs left there. -/
def publish (c : Console) (folder : OutputFolder) (seed : Sql.Seed) : Action (List String) := do
  let files := Reconciliation.files seed
  let written ← folder.writeAll files
  for path in ← folder.removeStale Reconciliation.ownedFiles (files.map fun f => f.1) do
    c.progressOf "sql" ("Removed stale " ++ path)
  return written

/-- Reads and joins everything that the sources say. -/
def collect (c : Console) (s : Settings) (history : HistoryArguments) : Action Reconciliation := do
  let sources ← Sources.load c s
  let classification ← sources.classify c s.mode
  if 0 < classification.skipped then
    c.warning ("Skipped " ++ Text.decimal classification.skipped ++
      " issues without title content or close date")
  let lookups ← history.source c s
  let legacy ← sources.resolveLegacy c s.history.workers lookups
  return { classification, legacy }

def reconcile (c : Console) (s : Settings) (history : HistoryArguments) : Action Unit := do
  let r ← collect c s history
  c.progressOf "release" (Text.decimal r.numbered.releases.length ++ " releases, latest " ++
    shownOption r.numbered.latest?)
  let seed := r.seed s.sql
  c.progressOf "sql" ("Migration label: " ++ seed.label)
  let written ← publish c ⟨s.outputFolder⟩ seed
  r.report c seed.label s.outputFolder written

/-- A heading with the number of ants below it, and the ants. -/
def group (c : Console) (heading : String) (contents : List String) : Program Unit := do
  if !contents.isEmpty then
    c.blank
    Console.line (heading ++ " (" ++ Text.decimal contents.length ++ "):")
    for content in contents do
      Console.line ("  " ++ content)

def sortedObject (members : List (String × Json)) : Json :=
  .object (members.mergeSort fun a b => a.1 ≤ b.1)

def classificationDocument (found : Classification) (list : Bool) : Json :=
  if list then
    .object [
      ("ants", .array (found.ants.map fun a => sortedObject (("kind", .text a.kind) :: a.members))),
      ("skipped", .integer found.skipped)]
  else
    .object [
      ("accepted", .integer found.accepted.length),
      ("declined", .integer found.declined.length),
      ("skipped", .integer found.skipped),
      ("unseen", .integer found.unseen.length)]

def classify (c : Console) (s : Settings) (list : Bool) : Action Unit := do
  let sources ← Sources.load c s
  let found ← sources.classify c s.mode
  match c.format with
  | .json => Console.document (classificationDocument found list)
  | .text =>
    c.count "Unseen" found.unseen.length
    c.count "Declined" found.declined.length
    c.count "Accepted" found.accepted.length
    c.count "Skipped" found.skipped
    if list then
      group c "Unseen" (found.unseen.map fun a => a.suggestion)
      group c "Declined" (found.declined.map fun a => a.suggestion)
      group c "Accepted" (found.accepted.map fun a => a.content)

def showReport (c : Console) (report : IntegrityReport) : Program Unit :=
  match c.format with
  | .json => Console.document report.toJson
  | .text => do
    for f in report.findings do
      Console.line (Text.leftAligned 8 f.severity.text ++ " " ++ f.message)
    if !report.findings.isEmpty then c.blank
    c.count "Site ants" report.siteAnts
    c.count "Accepted" report.accepted
    c.count "Legacy" report.legacy
    c.count "Listed" report.listed
    c.count "Unaccounted" report.unaccounted.length

def verdict (report : IntegrityReport) : String :=
  if report.isClean then "Integrity check passed"
  else if 0 < report.errors then
    "Integrity check found " ++ Text.decimal report.errors ++ " error(s)"
  else "Integrity check passed with warnings"

def check (c : Console) (s : Settings) (history : HistoryArguments) (denyErrors : Bool) :
    Action Unit := do
  let sources ← Sources.load c s
  let classification ← sources.classify c s.mode
  let lookups ← history.source c s
  let legacy ← sources.resolveLegacy c s.history.workers lookups
  c.progressOf "check" ("Listing: " ++ s.listing)
  let listed ← loadListing s.listing
  let report := checkIntegrity sources.site sources.matcher classification.accepted legacy listed
  showReport c report
  if denyErrors ∧ 0 < report.errors then throw (.integrity report.errors)
  match c.format with
  | .json => pure ()
  | .text =>
    c.blank
    c.success (verdict report)

end Pipeline

end AntRegister
