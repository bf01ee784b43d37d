import AntRegister.Json.Record
import AntRegister.Settings.Basic
import AntRegister.Toml.Reader
/-!
Settings as a TOML text. Keys that are left out have their defaults, and keys of other names are
passed over. A group of settings is a table, or an array of its values in their order; a date or time
is a group in which everything is left out.
-/

namespace AntRegister

open Toml (Value)

namespace Toml

def asText? : Value → Option String
  | .text s => some s
  | _ => none

def asNat? : Value → Option Nat
  | .integer i => if 0 ≤ i then some i.toNat else none
  | _ => none

/-- One of a set of names: the name as a text, or the only key of a table, with a table or array
that is empty. -/
def asName? : Value → Option String
  | .text s => some s
  | .table _ [(k, .table _ [])] => some k
  | .table _ [(k, .array _ [])] => some k
  | _ => none

/-- The fields with the given names that are present. A date or time has none of them. -/
def fields? (names : List String) : Value → Option Entries
  | .table _ es => some es
  | .array _ items => some (names.zip items)
  | .moment => some []
  | _ => none

/-- A field, or its default if it is left out. -/
def Entries.field? {α : Type} (es : Entries) (name : String) (fallback : α)
    (read : Value → Option α) : Option α :=
  match es.get? name with
  | some v => read v
  | none => some fallback

def escape (c : Char) : String :=
  if c = '"' ∨ c = '\\' then "\\" ++ c.toString
  else if c.toNat < 32 ∨ c.toNat = 127 then "\\u" ++ .ofList (hexDigits c.toNat)
  else c.toString
where
  hexDigits (n : Nat) : List Char :=
    [n / 4096 % 16, n / 256 % 16, n / 16 % 16, n % 16].map Nat.digitChar

def quote (s : String) : String := "\"" ++ String.join (s.toList.map escape) ++ "\""

end Toml

namespace Mode

def name : Mode → String
  | .lenient => "lenient"
  | .strict => "strict"

def ofName? (s : String) : Option Mode :=
  if s = "lenient" then some .lenient else if s = "strict" then some .strict else none

end Mode

namespace Sql.Options

def ofToml? (v : Value) : Option Options := do
  let es ← Toml.fields? ["suggester_user", "reviewer_user", "migration_prefix"] v
  return {
    suggester := ← es.field? "suggester_user" default.suggester Toml.asText?
    reviewer := ← es.field? "reviewer_user" default.reviewer Toml.asText?
    labelStart := ← es.field? "migration_prefix" default.labelStart Toml.asText?
  }

def ofJson? (j : Json) : Option Options := do
  let fs ← j.fields? ["suggester_user", "reviewer_user", "migration_prefix"]
  return {
    suggester := ← fs.defaulted? "suggester_user" default.suggester Json.asText?
    reviewer := ← fs.defaulted? "reviewer_user" default.reviewer Json.asText?
    labelStart := ← fs.defaulted? "migration_prefix" default.labelStart Json.asText?
  }

def toJson (o : Options) : Json :=
  .object [
    ("suggester_user", .text o.suggester),
    ("reviewer_user", .text o.reviewer),
    ("migration_prefix", .text o.labelStart)]

end Sql.Options

namespace HistorySettings

def ofToml? (v : Value) : Option HistorySettings := do
  let es ← Toml.fields? ["repo", "workers", "timeout_secs"] v
  return {
    repository := ← es.field? "repo" default.repository Toml.asText?
    workers := ← es.field? "workers" default.workers Toml.asNat?
    timeout := ← es.field? "timeout_secs" default.timeout Toml.asNat?
  }

def toJson (h : HistorySettings) : Json :=
  .object [
    ("repo", .text h.repository),
    ("workers", .integer h.workers),
    ("timeout_secs", .integer h.timeout)]

end HistorySettings

namespace Settings

def ofToml? (es : Toml.Entries) : Option Settings := do
  return {
    siteData := ← es.field? "site_data" default.siteData Toml.asText?
    issueExport := ← es.field? "raw_issues" default.issueExport Toml.asText?
    listing := ← es.field? "legacy_list" default.listing Toml.asText?
    outputFolder := ← es.field? "out_dir" default.outputFolder Toml.asText?
    mode := ← es.field? "mode" default.mode fun v => Toml.asName? v >>= Mode.ofName?
    sql := ← es.field? "sql" default.sql Sql.Options.ofToml?
    history := ← es.field? "history" default.history HistorySettings.ofToml?
    source := none
  }

/-- The settings of a text, if it has their form and they are valid. -/
def parse (text : String) : Except SettingsError Settings :=
  match Toml.read? text >>= ofToml? with
  | some s => s.validate
  | none => .error .malformed

def toJson (s : Settings) : Json :=
  .object [
    ("site_data", .text s.siteData),
    ("raw_issues", .text s.issueExport),
    ("legacy_list", .text s.listing),
    ("out_dir", .text s.outputFolder),
    ("mode", .text s.mode.name),
    ("sql", s.sql.toJson),
    ("history", s.history.toJson)]

def toToml (s : Settings) : String :=
  String.join <| List.map (· ++ "\n") [
    "site_data = " ++ Toml.quote s.siteData,
    "raw_issues = " ++ Toml.quote s.issueExport,
    "legacy_list = " ++ Toml.quote s.listing,
    "out_dir = " ++ Toml.quote s.outputFolder,
    "mode = " ++ Toml.quote s.mode.name,
    "",
    "[sql]",
    "suggester_user = " ++ Toml.quote s.sql.suggester,
    "reviewer_user = " ++ Toml.quote s.sql.reviewer,
    "migration_prefix = " ++ Toml.quote s.sql.labelStart,
    "",
    "[history]",
    "repo = " ++ Toml.quote s.history.repository,
    "workers = " ++ Text.decimal s.history.workers,
    "timeout_secs = " ++ Text.decimal s.history.timeout]

end Settings

end AntRegister
