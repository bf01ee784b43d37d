import AntRegister.Proofs.Text.Blank
import AntRegister.Settings.Document
/-! The settings that a file states. Each is read from an entry of its own, and those that the file
does not state have their defaults. -/

namespace AntRegister

namespace Toml.Entries

variable {α : Type} (es : Entries) (name : String) (read : Value → Option α)

/-- Whether the entry of a name states a value, or none as there is no such entry. -/
def States (o : Option α) : Prop := (es.get? name).map read = o.map some

/-- Whether a table, or what stands for one, has these entries. A table that is left out has
none. -/
def HasGroup (names : List String) (group : Entries) : Prop :=
  (es.get? name).elim (some []) (fields? names) = some group

variable {es name read}

theorem exists_states_of_field? {fallback a : α} (h : es.field? name fallback read = some a) :
    ∃ o, es.States name read o ∧ a = o.getD fallback := by
  unfold field? at h
  unfold States
  cases hget : es.get? name with
  | none =>
    rw [hget] at h
    exact ⟨none, rfl, (Option.some.inj h).symm⟩
  | some v =>
    rw [hget] at h
    exact ⟨some a, congrArg some h, rfl⟩

theorem exists_group_of_field? {names : List String} {ofGroup : Entries → Option α}
    {fallback a : α} (h : es.field? name fallback read = some a)
    (hread : ∀ v, read v = (fields? names v).bind ofGroup) (hempty : ofGroup [] = some fallback) :
    ∃ group, es.HasGroup name names group ∧ ofGroup group = some a := by
  unfold field? at h
  unfold HasGroup
  cases hget : es.get? name with
  | none =>
    rw [hget] at h
    exact ⟨[], rfl, hempty.trans h⟩
  | some v =>
    rw [hget] at h
    obtain ⟨group, hgroup, ha⟩ := Option.bind_eq_some_iff.mp ((hread v).symm.trans h)
    exact ⟨group, hgroup, ha⟩

end Toml.Entries

/-- Values of settings, of which each may be stated or not. -/
structure Stated where
  siteData : Option String
  issueExport : Option String
  listing : Option String
  outputFolder : Option String
  mode : Option Mode
  suggester : Option String
  reviewer : Option String
  labelStart : Option String
  repository : Option String
  workers : Option Nat
  timeout : Option Nat

namespace Stated

def nothing : Stated := ⟨none, none, none, none, none, none, none, none, none, none, none⟩

/-- Whether a file with these entries states just these values. -/
structure AreIn (f : Stated) (es : Toml.Entries) : Prop where
  siteData : es.States "site_data" Toml.asText? f.siteData
  issueExport : es.States "raw_issues" Toml.asText? f.issueExport
  listing : es.States "legacy_list" Toml.asText? f.listing
  outputFolder : es.States "out_dir" Toml.asText? f.outputFolder
  mode : es.States "mode" (fun v => Toml.asName? v >>= Mode.ofName?) f.mode
  sql : ∃ group : Toml.Entries,
    es.HasGroup "sql" ["suggester_user", "reviewer_user", "migration_prefix"] group ∧
      group.States "suggester_user" Toml.asText? f.suggester ∧
      group.States "reviewer_user" Toml.asText? f.reviewer ∧
      group.States "migration_prefix" Toml.asText? f.labelStart
  history : ∃ group : Toml.Entries,
    es.HasGroup "history" ["repo", "workers", "timeout_secs"] group ∧
      group.States "repo" Toml.asText? f.repository ∧
      group.States "workers" Toml.asNat? f.workers ∧
      group.States "timeout_secs" Toml.asNat? f.timeout

/-- The settings with these values, and defaults for the others. -/
def settings (f : Stated) : Settings where
  siteData := f.siteData.getD Settings.default.siteData
  issueExport := f.issueExport.getD Settings.default.issueExport
  listing := f.listing.getD Settings.default.listing
  outputFolder := f.outputFolder.getD Settings.default.outputFolder
  mode := f.mode.getD Settings.default.mode
  sql := {
    suggester := f.suggester.getD Settings.default.sql.suggester
    reviewer := f.reviewer.getD Settings.default.sql.reviewer
    labelStart := f.labelStart.getD Settings.default.sql.labelStart }
  history := {
    repository := f.repository.getD Settings.default.history.repository
    workers := f.workers.getD Settings.default.history.workers
    timeout := f.timeout.getD Settings.default.history.timeout }
  source := none

end Stated

open Toml.Entries (exists_group_of_field? exists_states_of_field?)

theorem Sql.Options.exists_stated {es : Toml.Entries} {o : Sql.Options}
    (h : es.field? "sql" Settings.default.sql ofToml? = some o) :
    ∃ (group : Toml.Entries) (suggester reviewer labelStart : Option String),
      (es.HasGroup "sql" ["suggester_user", "reviewer_user", "migration_prefix"] group ∧
        group.States "suggester_user" Toml.asText? suggester ∧
        group.States "reviewer_user" Toml.asText? reviewer ∧
        group.States "migration_prefix" Toml.asText? labelStart) ∧
      o = ⟨suggester.getD Settings.default.sql.suggester,
        reviewer.getD Settings.default.sql.reviewer,
        labelStart.getD Settings.default.sql.labelStart⟩ := by
  obtain ⟨group, hgroup, ho⟩ := exists_group_of_field? h (fun _ => rfl) rfl
  simp only [Option.bind_eq_bind, Option.bind_eq_some_iff, Option.pure_def,
    Option.some.injEq] at ho
  obtain ⟨_, hfirst, _, hsecond, _, hthird, rfl⟩ := ho
  obtain ⟨suggester, hsuggester, rfl⟩ := exists_states_of_field? hfirst
  obtain ⟨reviewer, hreviewer, rfl⟩ := exists_states_of_field? hsecond
  obtain ⟨labelStart, hlabel, rfl⟩ := exists_states_of_field? hthird
  exact ⟨group, suggester, reviewer, labelStart, ⟨hgroup, hsuggester, hreviewer, hlabel⟩, rfl⟩

theorem HistorySettings.exists_stated {es : Toml.Entries} {s : HistorySettings}
    (h : es.field? "history" Settings.default.history ofToml? = some s) :
    ∃ (group : Toml.Entries) (repository : Option String) (workers timeout : Option Nat),
      (es.HasGroup "history" ["repo", "workers", "timeout_secs"] group ∧
        group.States "repo" Toml.asText? repository ∧
        group.States "workers" Toml.asNat? workers ∧
        group.States "timeout_secs" Toml.asNat? timeout) ∧
      s = ⟨repository.getD Settings.default.history.repository,
        workers.getD Settings.default.history.workers,
        timeout.getD Settings.default.history.timeout⟩ := by
  obtain ⟨group, hgroup, hs⟩ := exists_group_of_field? h (fun _ => rfl) rfl
  simp only [Option.bind_eq_bind, Option.bind_eq_some_iff, Option.pure_def,
    Option.some.injEq] at hs
  obtain ⟨_, hfirst, _, hsecond, _, hthird, rfl⟩ := hs
  obtain ⟨repository, hrepository, rfl⟩ := exists_states_of_field? hfirst
  obtain ⟨workers, hworkers, rfl⟩ := exists_states_of_field? hsecond
  obtain ⟨timeout, htimeout, rfl⟩ := exists_states_of_field? hthird
  exact ⟨group, repository, workers, timeout, ⟨hgroup, hrepository, hworkers, htimeout⟩, rfl⟩

theorem Settings.exists_stated {es : Toml.Entries} {s : Settings} (h : ofToml? es = some s) :
    ∃ f : Stated, f.AreIn es ∧ s = f.settings := by
  simp only [ofToml?, Option.bind_eq_bind, Option.bind_eq_some_iff, Option.pure_def,
    Option.some.injEq] at h
  obtain ⟨_, h1, _, h2, _, h3, _, h4, _, h5, _, h6, _, h7, rfl⟩ := h
  obtain ⟨site, hsite, rfl⟩ := exists_states_of_field? h1
  obtain ⟨issues, hissues, rfl⟩ := exists_states_of_field? h2
  obtain ⟨listing, hlisting, rfl⟩ := exists_states_of_field? h3
  obtain ⟨out, hout, rfl⟩ := exists_states_of_field? h4
  obtain ⟨mode, hmode, rfl⟩ := exists_states_of_field? h5
  obtain ⟨sqlGroup, suggester, reviewer, labelStart, hsql, rfl⟩ := Sql.Options.exists_stated h6
  obtain ⟨historyGroup, repository, workers, timeout, hhistory, rfl⟩ :=
    HistorySettings.exists_stated h7
  exact ⟨⟨site, issues, listing, out, mode, suggester, reviewer, labelStart, repository, workers,
    timeout⟩, ⟨hsite, hissues, hlisting, hout, hmode, ⟨sqlGroup, hsql⟩, historyGroup, hhistory⟩,
    rfl⟩

/-- Whether settings have a worker, a second for each lookup and a label with more than blanks in
it. -/
structure Settings.IsValid (s : Settings) : Prop where
  workers : 1 ≤ s.history.workers
  timeout : 1 ≤ s.history.timeout
  labelStart : ∃ c ∈ s.sql.labelStart.toList, Text.isBlank c = false

theorem Settings.isValid_default : Settings.default.IsValid :=
  ⟨by decide, by decide, 's', by decide, by decide⟩

theorem Settings.isValid_of_validate {s t : Settings} (h : s.validate = .ok t) :
    t = s ∧ s.IsValid := by
  unfold validate at h
  split at h
  case isTrue => cases h
  case isFalse hworkers =>
    split at h
    case isTrue => cases h
    case isFalse htimeout =>
      split at h
      case isTrue => cases h
      case isFalse hlabel =>
        refine ⟨(Except.ok.inj h).symm, Nat.pos_of_ne_zero hworkers, Nat.pos_of_ne_zero htimeout,
          ?_⟩
        by_contra hblank
        simp only [not_exists, not_and, Bool.not_eq_false] at hblank
        rw [Text.trim, Text.trimChars_eq_nil_iff.mpr hblank] at hlabel
        exact hlabel rfl

/-- The settings of a text are those that it states, with defaults for the others, and are valid. -/
theorem Settings.exists_stated_of_parse {text : String} {s : Settings} (h : parse text = .ok s) :
    ∃ es f, Toml.read? text = some es ∧ Stated.AreIn f es ∧ s = f.settings ∧ s.IsValid := by
  unfold parse at h
  split at h
  next t ht =>
    obtain ⟨es, hes, ht⟩ := Option.bind_eq_some_iff.mp ht
    obtain ⟨f, hf, rfl⟩ := exists_stated ht
    obtain ⟨rfl, hvalid⟩ := isValid_of_validate h
    exact ⟨es, f, hes, hf, rfl, hvalid⟩
  next => cases h

end AntRegister
