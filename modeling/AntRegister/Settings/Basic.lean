import AntRegister.Classification.Basic
import AntRegister.Disk.Path
import AntRegister.Sql.Script
import AntRegister.Text.Blank
/-!
The settings of a run: where the documents are, how titles are treated, which accounts the scripts
name and how the history is asked. Each has a default.
-/

namespace AntRegister

structure HistorySettings where
  repository : String
  /-- How many lookups may run at a time. -/
  workers : Nat
  /-- Seconds allowed for each lookup. -/
  timeout : Nat
  deriving DecidableEq

structure Settings where
  siteData : String
  issueExport : String
  listing : String
  outputFolder : String
  mode : Mode
  sql : Sql.Options
  history : HistorySettings
  /-- The file that the settings were read from. -/
  source : Option String
  deriving DecidableEq

inductive SettingsError where
  | malformed
  | noWorkers
  | noTimeout
  | blankLabel
  deriving DecidableEq

def SettingsError.message : SettingsError → String
  | .malformed => "Failed to parse configuration: not in the form expected"
  | .noWorkers => "Invalid configuration: history.workers must be at least 1"
  | .noTimeout => "Invalid configuration: history.timeout_secs must be at least 1"
  | .blankLabel => "Invalid configuration: sql.migration_prefix must not be empty"

def HistorySettings.default : HistorySettings := ⟨".", 4, 30⟩

def HistorySettings.same (s t : HistorySettings) : Bool :=
  Path.same s.repository t.repository && s.workers == t.workers && s.timeout == t.timeout

namespace Settings

def default : Settings where
  siteData := "data/site_data.json"
  issueExport := "data/raw_issues.json"
  listing := "ants.txt"
  outputFolder := "out"
  mode := .lenient
  sql := .default
  history := .default
  source := none

/-- Whether two settings are the same, their paths by what they name. -/
def same (s t : Settings) : Bool :=
  Path.same s.siteData t.siteData && Path.same s.issueExport t.issueExport &&
    Path.same s.listing t.listing && Path.same s.outputFolder t.outputFolder &&
    s.mode == t.mode && s.sql == t.sql && s.history.same t.history &&
    s.source.map Path.components == t.source.map Path.components

/-- Settings with a worker, a second for each lookup and a label that is not blank. -/
def validate (s : Settings) : Except SettingsError Settings :=
  if s.history.workers = 0 then .error .noWorkers
  else if s.history.timeout = 0 then .error .noTimeout
  else if (Text.trim s.sql.labelStart).isEmpty then .error .blankLabel
  else .ok s

def seenFrom (folder : String) (s : Settings) : Settings :=
  { s with
    siteData := Path.join folder s.siteData
    issueExport := Path.join folder s.issueExport
    listing := Path.join folder s.listing
    outputFolder := Path.join folder s.outputFolder
    history := { s.history with repository := Path.join folder s.history.repository } }

end Settings

end AntRegister
