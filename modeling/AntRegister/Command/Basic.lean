import AntRegister.Command.Console
import AntRegister.Settings.Basic
/-!
The commands, and the settings that their arguments take the place of.
-/

namespace AntRegister

structure InputArguments where
  siteData : Option String
  issueExport : Option String
  strict : Bool
  deriving DecidableEq

structure HistoryArguments where
  /-- A table of dates to ask instead of the log. -/
  file : Option String
  repository : Option String
  workers : Option Nat
  timeout : Option Nat
  deriving DecidableEq

inductive Command where
  /-- Write the default settings. -/
  | init
  /-- Reconcile all sources and write the seed. -/
  | reconcile (inputs : InputArguments) (history : HistoryArguments) (out : Option String)
  /-- Show how the issue export is classified. -/
  | classify (inputs : InputArguments) (list : Bool)
  /-- Cross-check all sources. -/
  | check (inputs : InputArguments) (history : HistoryArguments) (listing : Option String)
    (denyErrors : Bool)
  /-- Show a content hash. -/
  | hash (content : String)
  /-- Write the script of one release. -/
  | release (file : String) (number : Nat) (out : Option String)
  /-- Write the script that orders ants as a listing does. -/
  | rehash (file : String) (out : Option String)
  deriving DecidableEq

structure Invocation where
  console : Console
  settings : Option String
  command : Command

def InputArguments.apply (a : InputArguments) (s : Settings) : Settings :=
  { s with
    siteData := a.siteData.getD s.siteData
    issueExport := a.issueExport.getD s.issueExport
    mode := if a.strict then .strict else s.mode }

/-- The settings with arguments in place of some of them. Workers and seconds are at least one. -/
def HistoryArguments.apply (a : HistoryArguments) (s : Settings) : Settings :=
  { s with
    history := {
      repository := a.repository.getD s.history.repository
      workers := (a.workers.map (max 1)).getD s.history.workers
      timeout := (a.timeout.map (max 1)).getD s.history.timeout } }

end AntRegister
