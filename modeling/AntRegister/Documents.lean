import AntRegister.Failure
import AntRegister.Issue.Document
import AntRegister.Json.Reader
import AntRegister.Listing
import AntRegister.Program
import AntRegister.Site.Document
/-!
Loading the documents that commands work on.
-/

namespace AntRegister

open Calendar (Instant)

/-- A program that may fail. -/
abbrev Action := ExceptT Failure Program

namespace Action

/-- Goes on with a value, or fails for the reason that is made of the error. -/
def ofExcept {ε α : Type} (failure : ε → Failure) : Except ε α → Action α
  | .ok a => pure a
  | .error e => throw (failure e)

def request (r : Request) : Action r.Reply := ExceptT.lift (Program.request r)

end Action

def Document.text (doc : Document) (path : String) : Action String := do
  Action.ofExcept (.unread doc path) (← Action.request (.readText path))

def Document.load {α : Type} (doc : Document) (read : Json → Option α) (path : String) :
    Action α := do
  match Json.read? (← doc.text path) >>= read with
  | some a => return a
  | none => throw (.malformed doc path)

def loadSite : String → Action Site := Document.siteData.load Site.ofJson?

/-- The issue export, with plain apostrophes. -/
def loadIssues (path : String) : Action (List Issue) :=
  return (← Document.issueExport.load (Json.asList? Issue.ofJson?) path).map Issue.plain

def loadListing (path : String) : Action (List String) :=
  return parseListing (← Document.listing.text path)

def loadReleaseSheet : String → Action ReleaseSheet :=
  Document.releaseSheet.load ReleaseSheet.ofJson?

/-- A table of contents and their dates: an object, in which the last of equal keys counts. -/
def HistoryTable.ofJson? : Json → Option HistoryTable
  | .object members =>
    members.foldlM (fun t m => do return t.insert m.1 (← Instant.ofJson? m.2)) ∅
  | _ => none

def loadHistory : String → Action HistoryTable := Document.history.load HistoryTable.ofJson?

end AntRegister
