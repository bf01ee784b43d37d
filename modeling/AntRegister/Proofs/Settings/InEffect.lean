import AntRegister.Proofs.Command.Breakdown
import AntRegister.Proofs.Readings
import AntRegister.Proofs.Settings.Stated
/-! The settings that a run works with: each is the one that the arguments state, else the one of
the settings file, else its default. -/

namespace AntRegister

open Request

namespace World

variable (w : World)

/-- The user's own settings file, if the system has a folder for it. -/
def userSettings? : Option String :=
  (w.settingsFolder w.environment).map fun folder => Path.join folder "config.toml"

/-- Whether the system tells that there is a file at a path if it is asked that after so many other
requests. What it has trouble with it takes not to be there. -/
def tellsFile (asked : Nat) (path : String) : Bool :=
  (w.trouble (w.requests + asked) (.isFile path)).isNone && w.disk.isFile w.here path

/-- The settings file of a run: the one that is named, else that of the working folder, else the
user's own. Only the one that is named need not be there. -/
def settingsFile? (named : Option String) : Option String :=
  named <|> (some Settings.fileName).filter (w.tellsFile 0) <|>
    w.userSettings?.filter (w.tellsFile 2)

theorem settingsFile?_local (h : w.tellsFile 0 Settings.fileName = true) :
    w.settingsFile? none = some Settings.fileName := by
  simp [settingsFile?, Option.filter, h]

theorem settingsFile?_user (h : w.tellsFile 0 Settings.fileName = false) :
    w.settingsFile? none = w.userSettings?.filter (w.tellsFile 2) := by
  simp [settingsFile?, Option.filter, h]

theorem tellsFile_eq {w v : World} (h : w.SameSystem v) (hdisk : v.disk = w.disk) {asked : Nat}
    (hrequests : v.requests = w.requests + asked) (path : String) :
    v.tellsFile 0 path = w.tellsFile asked path := by
  rw [tellsFile, tellsFile, h.trouble, h.here, hdisk, hrequests, Nat.add_zero]

/-- Whether a file, if there is one, states just these values, and no file states any. -/
def States (file : Option String) (f : Stated) : Prop :=
  match file with
  | some path => ∃ text es, w.disk.readText w.here path = .ok text ∧
      Toml.read? text = some es ∧ f.AreIn es
  | none => f = .nothing

end World

namespace Settings

/-- A path that a settings file or the defaults name. Of a file, one that is not absolute is seen
from the folder that the file is in. -/
def place (file : Option String) (path : String) : String :=
  match file with
  | some settings =>
    if Path.isAbsolute path then path else Path.join ((Path.parent? settings).getD "") path
  | none => path

/-- Whether settings are those that arguments state, else those that a file states, else the
defaults. -/
structure Follow (s : Settings) (given : Stated) (file : Option String) (found : Stated) :
    Prop where
  siteData : s.siteData =
    given.siteData.getD (place file (found.siteData.getD default.siteData))
  issueExport : s.issueExport =
    given.issueExport.getD (place file (found.issueExport.getD default.issueExport))
  listing : s.listing = given.listing.getD (place file (found.listing.getD default.listing))
  outputFolder : s.outputFolder =
    given.outputFolder.getD (place file (found.outputFolder.getD default.outputFolder))
  mode : s.mode = given.mode.getD (found.mode.getD default.mode)
  suggester : s.sql.suggester =
    given.suggester.getD (found.suggester.getD default.sql.suggester)
  reviewer : s.sql.reviewer = given.reviewer.getD (found.reviewer.getD default.sql.reviewer)
  labelStart : s.sql.labelStart =
    given.labelStart.getD (found.labelStart.getD default.sql.labelStart)
  repository : s.history.repository =
    given.repository.getD (place file (found.repository.getD default.history.repository))
  workers : s.history.workers =
    given.workers.getD (found.workers.getD default.history.workers)
  timeout : s.history.timeout =
    given.timeout.getD (found.timeout.getD default.history.timeout)
  source : s.source = file

end Settings

/-- What the arguments of a command state. Of the numbers that must not be zero they state at least
one. -/
def Command.stated : Command → Stated
  | .reconcile inputs history out =>
    { ofInputs inputs with
      outputFolder := out
      repository := history.repository
      workers := history.workers.map (max 1)
      timeout := history.timeout.map (max 1) }
  | .classify inputs _ => ofInputs inputs
  | .check inputs history listing _ =>
    { ofInputs inputs with
      listing := listing
      repository := history.repository
      workers := history.workers.map (max 1)
      timeout := history.timeout.map (max 1) }
  | _ => .nothing
where
  ofInputs (inputs : InputArguments) : Stated :=
    { Stated.nothing with
      siteData := inputs.siteData
      issueExport := inputs.issueExport
      mode := if inputs.strict then some .strict else none }

namespace Settings

variable {w : World}

theorem ends_tellsFile (w : World) (path : String) : (Action.request (.isFile path)).Ends w
    (fun there v => there = w.tellsFile 0 path ∧ v.disk = w.disk ∧ v.requests = w.requests + 1)
    fun _ _ => False := by
  apply Action.Ends.request
  unfold World.answer World.tellsFile
  rw [Nat.add_zero]
  cases w.trouble w.requests (.isFile path) with
  | none => exact ⟨rfl, rfl, rfl⟩
  | some t => exact ⟨rfl, rfl, rfl⟩

theorem ends_userFile (w : World) : userFile?.Ends w
    (fun user v => user = w.userSettings? ∧ v.disk = w.disk ∧ v.requests = w.requests + 1)
    fun _ _ => False := by
  refine Action.Ends.bind (P := fun folder v => folder = w.settingsFolder w.environment ∧
    v.disk = w.disk ∧ v.requests = w.requests + 1) (F := fun _ _ => False) (.request ?_)
      (fun folder v _ ⟨hfolder, hv⟩ => .pure ⟨?_, hv⟩) fun _ _ _ => id
  · have hgranted : Request.settingsFolder.IsGranted := trivial
    rw [w.answer_granted hgranted]
    exact ⟨rfl, rfl, rfl⟩
  · rw [hfolder]
    rfl

theorem place_eq_join (file path : String) :
    place (some file) path = Path.join ((Path.parent? file).getD "") path := by
  cases habsolute : Path.isAbsolute path with
  | true =>
    rw [Path.join, habsolute]
    exact if_pos habsolute
  | false => exact if_neg (ne_true_of_eq_false habsolute)

/-- Whether settings are valid and are those of a file, if there is one, or else the defaults. -/
def ReadFrom (w : World) (file : Option String) (s : Settings) : Prop :=
  ∃ found, w.States file found ∧ s.Follow .nothing file found ∧ s.IsValid

theorem readFrom_default (w : World) : default.ReadFrom w none :=
  ⟨.nothing, rfl, ⟨rfl, rfl, rfl, rfl, rfl, rfl, rfl, rfl, rfl, rfl, rfl, rfl⟩, isValid_default⟩

theorem finds_loadFile (path : String) : (loadFile path).Finds w (ReadFrom w (some path)) := by
  refine .bind (Action.finds_readText path) fun reply hreply => ?_
  refine .bind (.ofExcept hreply) fun text htext => ?_
  refine .bind (.ofExcept fun _ => id) fun s hs => .pure ?_
  obtain ⟨es, found, hes, hfound, rfl, hvalid⟩ := exists_stated_of_parse hs
  have hplace := fun p => (place_eq_join path p).symm
  exact ⟨found, ⟨text, es, htext, hes, hfound⟩,
    ⟨hplace _, hplace _, hplace _, hplace _, rfl, rfl, rfl, rfl, hplace _, rfl, rfl, rfl⟩,
    ⟨hvalid.workers, hvalid.timeout, hvalid.labelStart⟩⟩

theorem ends_load (w : World) (named : Option String) :
    (load named).Ends w (fun s _ => s.ReadFrom w (w.settingsFile? named)) fun _ _ => True := by
  cases named with
  | some path => exact (finds_loadFile path).ends (.refl w) rfl
  | none =>
    refine (ends_tellsFile w _).bind (fun here v hv ⟨hhere, hdisk, hrequests⟩ => ?_)
      fun _ _ _ => False.elim
    cases here with
    | true =>
      rw [w.settingsFile?_local hhere.symm]
      exact (finds_loadFile fileName).ends hv hdisk
    | false =>
      rw [w.settingsFile?_user hhere.symm]
      refine (ends_userFile v).bind (fun user u hu ⟨huser, hdisk', hrequests'⟩ => ?_)
        fun _ _ _ => False.elim
      have hsystem := hv.trans hu
      have hsame : u.disk = w.disk := hdisk'.trans hdisk
      have hasked : u.requests = w.requests + 2 := hrequests'.trans (congrArg (· + 1) hrequests)
      have huser' : user = w.userSettings? := by
        rw [huser, World.userSettings?, World.userSettings?, hv.settingsFolder, hv.environment]
      rw [← huser']
      cases user with
      | none => exact .pure (readFrom_default w)
      | some path =>
        refine (ends_tellsFile u path).bind (fun there t ht ⟨hthere, hkept, _⟩ => ?_)
          fun _ _ _ => False.elim
        rw [World.tellsFile_eq hsystem hsame hasked] at hthere
        rw [Option.filter, ← hthere]
        cases there with
        | true => exact (finds_loadFile path).ends (hsystem.trans ht) (hkept.trans hsame)
        | false => exact .pure (readFrom_default w)

section Arguments

variable {s : Settings} {file : Option String} {found : Stated} (inputs : InputArguments)
  (history : HistoryArguments)

theorem Follow.applyInputs (h : s.Follow .nothing file found) :
    (inputs.apply s).Follow (Command.stated.ofInputs inputs) file found :=
  { h with
    siteData := congrArg inputs.siteData.getD h.siteData
    issueExport := congrArg inputs.issueExport.getD h.issueExport
    mode := by
      have hmode : s.mode = found.mode.getD default.mode := h.mode
      unfold InputArguments.apply Command.stated.ofInputs
      cases inputs.strict with
      | true => rfl
      | false => exact hmode }

theorem Follow.applyHistory (h : s.Follow (Command.stated.ofInputs inputs) file found) :
    (history.apply s).Follow
      { Command.stated.ofInputs inputs with
        repository := history.repository
        workers := history.workers.map (max 1)
        timeout := history.timeout.map (max 1) } file found :=
  { h with
    repository := congrArg history.repository.getD h.repository
    workers := congrArg (history.workers.map (max 1)).getD h.workers
    timeout := congrArg (history.timeout.map (max 1)).getD h.timeout }

theorem one_le_getD_max {n : Nat} (h : 1 ≤ n) (o : Option Nat) : 1 ≤ (o.map (max 1)).getD n := by
  cases o with
  | none => exact h
  | some m => exact Nat.le_max_left 1 m

theorem IsValid.applyHistory (h : s.IsValid) : (history.apply s).IsValid where
  workers := one_le_getD_max h.workers history.workers
  timeout := one_le_getD_max h.timeout history.timeout
  labelStart := h.labelStart

end Arguments

end Settings

namespace Command

/-- The settings that a command works with, made of those that were read. -/
def override (c : Command) (s : Settings) : Settings :=
  match c with
  | .reconcile inputs history out =>
    let s := history.apply (inputs.apply s)
    { s with outputFolder := out.getD s.outputFolder }
  | .classify inputs _ => inputs.apply s
  | .check inputs history listing _ =>
    let s := history.apply (inputs.apply s)
    { s with listing := listing.getD s.listing }
  | _ => s

variable (c : Command) {s : Settings}

theorem follow_override {file : Option String} {found : Stated}
    (h : s.Follow .nothing file found) : (c.override s).Follow c.stated file found := by
  cases c with
  | reconcile inputs history out =>
    have hgiven := (h.applyInputs inputs).applyHistory inputs history
    exact { hgiven with outputFolder := congrArg out.getD hgiven.outputFolder }
  | classify inputs list => exact h.applyInputs inputs
  | check inputs history listing denyErrors =>
    have hgiven := (h.applyInputs inputs).applyHistory inputs history
    exact { hgiven with listing := congrArg listing.getD hgiven.listing }
  | _ => exact h

theorem isValid_override (h : s.IsValid) : (c.override s).IsValid := by
  have hinputs : ∀ inputs : InputArguments, (inputs.apply s).IsValid :=
    fun _ => ⟨h.workers, h.timeout, h.labelStart⟩
  cases c with
  | reconcile inputs history out | check inputs history listing denyErrors =>
    have hgiven := (hinputs inputs).applyHistory history
    exact ⟨hgiven.workers, hgiven.timeout, hgiven.labelStart⟩
  | classify inputs list => exact hinputs inputs
  | _ => exact h

end Command

theorem Invocation.ends_loadSettings (i : Invocation) (w : World) :
    i.loadSettings.Ends w (fun s _ => s.ReadFrom w (w.settingsFile? i.settings))
      fun _ _ => True := by
  refine (Settings.ends_load w i.settings).bind (fun s v hv hs => ?_) fun _ _ _ => id
  have hprogress : ∀ part message, Action.Ends (i.console.progressOf part message) v
      (fun _ _ => True) fun _ _ => True := fun part message => .ofProgram trivial
  exact (hprogress _ _).bind (fun _ _ _ _ => .pure hs) fun _ _ _ => id

/-- Once its settings have been read, a command is carried out with valid settings of which each is
the one that the arguments state, as it stands there, else that of the settings file, else its
default. Only a path that is not absolute and does not come from the arguments is seen from the
folder of the settings file, if there is one. -/
theorem settings_in_effect {i : Invocation} {w : World} {loaded : Settings}
    (h : (i.loadSettings.run.run w).1 = .ok loaded) :
    let file := w.settingsFile? i.settings
    let before := (i.loadSettings.run.run w).2
    ∃ found s, w.States file found ∧ s.Follow i.command.stated file found ∧ s.IsValid ∧
      match i.command with
      | .reconcile _ history _ =>
        i.carryOut.run.run w = (Pipeline.reconcile i.console s history).run.run before
      | .classify _ list =>
        i.carryOut.run.run w = (Pipeline.classify i.console s list).run.run before
      | .check _ history _ denyErrors =>
        i.carryOut.run.run w = (Pipeline.check i.console s history denyErrors).run.run before
      | .release sheet number out =>
        i.carryOut.run.run w = (Standalone.release i.console s sheet number out).run.run before
      | _ => True := by
  intro file before
  obtain ⟨found, hfound, hfollow, hvalid⟩ := (i.ends_loadSettings w).of_ok h
  refine ⟨found, i.command.override loaded, hfound, i.command.follow_override hfollow,
    i.command.isValid_override hvalid, ?_⟩
  cases hi : i.command with
  | init | hash content | rehash file out => trivial
  | _ =>
    dsimp only
    rw [Invocation.carryOut, hi]
    exact Action.run_bind_of_ok h

/-- The arguments state a path and a number, and the user's own settings file states a folder and
that number. -/
theorem settings_in_effect_own :
    let text := "out_dir = \"sql\"\n[history]\nworkers = 2\n"
    let w := { World.start (.ofNodes [(["ant"], .folder), (["ant", ".config"], .folder),
      (["ant", ".config", "antledger"], .folder),
      (["ant", ".config", "antledger", "config.toml"], .file text.toUTF8)]) [] with
        environment := [("HOME", "/ant")] }
    let history : HistoryArguments := ⟨none, none, some 0, none⟩
    let i : Invocation := ⟨⟨.text, false⟩, none,
      .reconcile ⟨some "site.json", none, false⟩ history none⟩
    ∃ s : Settings, s.siteData = "site.json" ∧
      s.listing = "/ant/.config/antledger/ants.txt" ∧
      s.outputFolder = "/ant/.config/antledger/sql" ∧ s.history.workers = 1 ∧ s.IsValid ∧
      i.carryOut.run.run w = (Pipeline.reconcile i.console s history).run.run
        (i.loadSettings.run.run w).2 := by
  intro text w history i
  have hloaded : (i.loadSettings.run.run w).1 = .ok {
      siteData := "/ant/.config/antledger/data/site_data.json"
      issueExport := "/ant/.config/antledger/data/raw_issues.json"
      listing := "/ant/.config/antledger/ants.txt"
      outputFolder := "/ant/.config/antledger/sql"
      mode := .lenient
      sql := .default
      history := ⟨"/ant/.config/antledger/.", 2, 30⟩
      source := some "/ant/.config/antledger/config.toml" } := by
    decide +kernel
  have hfile : w.settingsFile? i.settings = some "/ant/.config/antledger/config.toml" := by
    decide +kernel
  obtain ⟨found, s, hstates, hfollow, hvalid, hrun⟩ := settings_in_effect hloaded
  rw [hfile] at hstates hfollow
  obtain ⟨text', es, htext', hes, hin⟩ := hstates
  have htext : w.disk.readText w.here "/ant/.config/antledger/config.toml" = .ok text := by
    decide +kernel
  obtain rfl : text = text' := Except.ok.inj (htext.symm.trans htext')
  have hentries : (Toml.read? text).map (fun es => ((es.get? "legacy_list").map Toml.asText?,
      (es.get? "out_dir").map Toml.asText?)) = some (none, some (some "sql")) := by
    decide +kernel
  rw [hes, Option.map_some, Option.some.injEq, Prod.mk.injEq] at hentries
  have hlisting : found.listing = none := Option.map_eq_none_iff.mp
    (hin.listing.symm.trans hentries.1)
  have hfolder : found.outputFolder = some "sql" := by
    have hsome := hin.outputFolder.symm.trans hentries.2
    simpa using hsome
  refine ⟨s, hfollow.siteData, ?_, ?_, hfollow.workers, hvalid, hrun⟩
  · rw [hfollow.listing, hlisting]
    decide +kernel
  · rw [hfollow.outputFolder, hfolder]
    decide +kernel

end AntRegister
