import AntRegister.Classification.Basic
import AntRegister.Disk.Basic
import AntRegister.History.Basic
import AntRegister.Release.Sheet
import AntRegister.Settings.Basic
/-!
Why a command fails, and the message for it: what was being done, then the cause of its failure.
-/

namespace AntRegister

inductive Document where
  | siteData
  | issueExport
  | listing
  | releaseSheet
  | history
  deriving DecidableEq

def Document.name : Document → String
  | .siteData => "site data"
  | .issueExport => "issue export"
  | .listing => "listing"
  | .releaseSheet => "release file"
  | .history => "history file"

inductive Failure where
  | unread (document : Document) (path : String) (fault : Fault)
  /-- The text of a document does not have its form. -/
  | malformed (document : Document) (path : String)
  | settingsUnread (path : String) (fault : Fault)
  | settingsRejected (path : String) (error : SettingsError)
  | settingsUnwritten (path : String) (fault : Fault)
  | classification (error : ClassificationError)
  | history (error : HistoryError)
  | badReleaseDate (path : String) (error : BadReleaseDate)
  | emptyListing (path : String)
  | badOutputPath (path : String)
  | folderNotMade (folder : String) (fault : Fault)
  | draftNotOpened (draft : String) (fault : Fault)
  | draftNotLocked (draft : String) (fault : Fault)
  | draftNotWritten (draft : String) (fault : Fault)
  | draftNotFlushed (fault : Fault)
  | notRenamed (draft path : String) (fault : Fault)
  | notRemoved (path : String) (fault : Fault)
  | integrity (errors : Nat)
  deriving DecidableEq

namespace Failure

/-- What was being done, followed by its cause where there is one. -/
def parts : Failure → List String
  | .unread doc path fault => ["Failed to read " ++ doc.name ++ ": " ++ path, fault.message]
  | .malformed doc path =>
    ["Failed to parse " ++ doc.name ++ ": " ++ path, "not in the form expected"]
  | .settingsUnread path fault => ["Failed to read config: " ++ path, fault.message]
  | .settingsRejected path error => ["Failed to load config: " ++ path, error.message]
  | .settingsUnwritten path fault => ["Failed to write config: " ++ path, fault.message]
  | .classification error => [error.message]
  | .history error => [error.message]
  | .badReleaseDate path error => ["Bad date in release file: " ++ path, error.message]
  | .emptyListing path => ["Listing is empty: " ++ path]
  | .badOutputPath path => ["Invalid output path: " ++ path]
  | .folderNotMade folder fault => ["Failed to create directory: " ++ folder, fault.message]
  | .draftNotOpened draft fault => ["Failed to create temp file: " ++ draft, fault.message]
  | .draftNotLocked draft fault => ["Failed to lock output file: " ++ draft, fault.message]
  | .draftNotWritten draft fault => ["Failed to write " ++ draft, fault.message]
  | .draftNotFlushed fault => ["Failed to flush output file", fault.message]
  | .notRenamed draft path fault =>
    ["Failed to rename " ++ draft ++ " to " ++ path, fault.message]
  | .notRemoved path fault => ["Failed to remove " ++ path, fault.message]
  | .integrity errors =>
    ["Integrity check failed with " ++ Text.decimal errors ++ " error(s)"]

def headline (f : Failure) : String := f.parts.headD ""

def message (f : Failure) : String := ": ".intercalate f.parts

end Failure

end AntRegister
