import AntRegister.Command.Run
import AntRegister.Proofs.Command.Progress
import AntRegister.Proofs.Command.Reconciling
/-! What a run that fails leaves behind. Up to the end of collecting it leaves everything as it was,
and after that no file of its own is left in part. -/

namespace AntRegister

open AntRegister.Action Disk OutputFolder Reconciliation Request

namespace Settings

theorem uses_loadFile (path : String) : (loadFile path).Uses IsInquiry := by
  refine .bind (.request trivial) fun text => .bind (.ofExcept _ _) fun _ => ?_
  exact .bind (.ofExcept _ _) fun _ => .pure _

theorem uses_load (named : Option String) : (load named).Uses IsInquiry := by
  unfold load
  split
  · exact uses_loadFile _
  · refine .bind (.request trivial) fun here => ?_
    split
    · exact uses_loadFile _
    · have huser : userFile?.Uses IsInquiry := .bind (.request trivial) fun _ => .pure _
      refine .bind huser fun file => ?_
      split
      · refine .bind (.request trivial) fun there => ?_
        split
        · exact uses_loadFile _
        · exact .pure _
      · exact .pure _

end Settings

namespace Invocation

variable {inputs : InputArguments} {history : HistoryArguments} {out : Option String}

theorem uses_loadSettings (i : Invocation) : i.loadSettings.Uses IsInquiry :=
  .bind (Settings.uses_load _) fun _ =>
    .bind (Pipeline.uses_progress i.console _ _) fun _ => .pure _

theorem carryOut_reconcile {i : Invocation} (hi : i.command = .reconcile inputs history out) :
    i.carryOut = i.loadSettings >>= fun loaded =>
      let s := history.apply (inputs.apply loaded)
      Pipeline.reconcile i.console { s with outputFolder := out.getD s.outputFolder } history := by
  rw [carryOut, hi]

/-- A run that fails before it has collected everything leaves all files and folders as they were.
One that fails later leaves under each owned name what was there, or all that it has for it, where
the owned names and those of their drafts are no links, no two drafts are one file, and no owned
name is one file with a draft. -/
theorem reconcile_failure_atomic (i : Invocation) (hi : i.command = .reconcile inputs history out)
    (w : World) (e : Failure) (he : (i.carryOut.run.run w).1 = .error e) :
    let after := (i.carryOut.run.run w).2
    match i.loadSettings.run.run w with
    | (.error _, _) => after.disk = w.disk
    | (.ok loaded, v) =>
      let given := history.apply (inputs.apply loaded)
      let s := { given with outputFolder := out.getD given.outputFolder }
      match Pipeline.collected i.console s history v with
      | .error _ => after.disk = w.disk
      | .ok r =>
        let seed := r.seed s.sql
        ∀ p, IsAt ⟨s.outputFolder⟩ w.here w.disk p → Plain p ownedFiles w.disk →
          (∀ n ∈ ownedFiles, ∀ m ∈ ownedFiles, ¬w.disk.SameFile (p ++ [n]) (p ++ [draft m])) →
            ∀ n ∈ ownedFiles, Holds w.here s.outputFolder p
              (seed.files ++ [("seed.sql", seed.transaction)]) w.disk after.disk n := by
  intro after
  have hinquires := i.uses_loadSettings.disk_run w
  have hsame : w.SameSystem (i.loadSettings.run.run w).2 := Program.sameSystem_run _ w
  split
  next failure v hloaded =>
    change (i.carryOut.run.run w).2.disk = w.disk
    rw [carryOut_reconcile hi, run_bind_of_error (congrArg Prod.fst hloaded)]
    exact hinquires
  next loaded v hloaded =>
    rw [hloaded] at hsame hinquires
    intro given s
    have hafter : i.carryOut.run.run w = (Pipeline.reconcile i.console s history).run.run v := by
      rw [carryOut_reconcile hi, run_bind_of_ok (congrArg Prod.fst hloaded), hloaded]
    split
    next failure hcollected =>
      change (i.carryOut.run.run w).2.disk = w.disk
      rw [hafter, Pipeline.disk_of_not_collected hcollected]
      exact hinquires
    next r hcollected =>
      intro seed p hp hplain hshared
      rw [hafter] at he
      have hends := Pipeline.ends_reconcile i.console s history v
      rw [hsame.here, hinquires] at hends
      have hall : ∀ q, IsAt ⟨s.outputFolder⟩ w.here w.disk q → Plain q ownedFiles w.disk :=
        fun q hq => hq.unique hp ▸ hplain
      rcases (hends hall).of_error he with ⟨hr, -⟩ | ⟨r', hr, -, hstopped, -⟩
      · rw [hcollected] at hr
        cases hr
      · obtain rfl := Except.ok.inj (hcollected.symm.trans hr)
        rw [← hafter] at hstopped
        obtain ⟨unfinished, hprogress⟩ := hstopped.progress (owned_files r s.sql) hall
        exact hprogress.names p hp hshared

def nearby (out : String) : Invocation where
  console := ⟨.text, false⟩
  settings := none
  command := .reconcile ⟨some "site", some "issues", false⟩ ⟨none, none, none, none⟩ (some out)

theorem reconcile_failure_atomic_folder_in_place :
    let w := World.bare [(["out"], .folder), (["out", "migration.sql"], .folder)]
    let after := (nearby "out").carryOut.run.run w
    after.1 = .error (.notRenamed "out/migration.sql.tmp" "out/migration.sql" .isFolder) ∧
      ∃ files, ∀ n ∈ ownedFiles, Holds [] "out" ["out"] files w.disk after.2.disk n := by
  intro w after
  have he : after.1 =
      .error (.notRenamed "out/migration.sql.tmp" "out/migration.sql" .isFolder) := by
    decide +kernel
  have hat : IsAt ⟨"out"⟩ w.here w.disk ["out"] := by decide +kernel
  have hplain : Plain ["out"] ownedFiles w.disk := by decide +kernel
  have hshared : ∀ n ∈ ownedFiles, ∀ m ∈ ownedFiles,
      ¬w.disk.SameFile (["out"] ++ [n]) (["out"] ++ [draft m]) := by
    decide +kernel
  have hleft := reconcile_failure_atomic (nearby "out") rfl w _ he
  have hsame : after.2.disk = w.disk →
      ∃ files, ∀ n ∈ ownedFiles, Holds [] "out" ["out"] files w.disk after.2.disk n := by
    intro h
    rw [h]
    exact ⟨[], fun n _ => .inl (.refl _ _ _ _)⟩
  refine ⟨he, ?_⟩
  split at hleft
  · exact hsame hleft
  · dsimp only at hleft
    split at hleft
    · exact hsame hleft
    · exact ⟨_, hleft ["out"] hat hplain hshared⟩

/-- What an owned name holds after a failure may be neither what was there nor nothing nor a file:
a path may lead through the name, and then a folder is made there. And it may be a file that is not
the one of the run, where that is one file with a draft. -/
theorem reconcile_failure_not_atomic :
    (¬∀ (i : Invocation) (inputs : InputArguments) (history : HistoryArguments) (out : String)
        (w : World) (e : Failure) (p : Location),
      i.command = .reconcile inputs history (some out) → (i.carryOut.run.run w).1 = .error e →
        IsAt ⟨out⟩ w.here w.disk p → ∀ n ∈ ownedFiles,
          let left := (i.carryOut.run.run w).2.disk.find? (p ++ [n])
          left = w.disk.find? (p ++ [n]) ∨ left = none ∨ ∃ content, left = some (.file content)) ∧
    ¬∀ (i : Invocation) (inputs : InputArguments) (history : HistoryArguments) (out : String)
        (w v : World) (e : Failure) (p : Location) (loaded : Settings) (r : Reconciliation),
      let s := { history.apply (inputs.apply loaded) with outputFolder := out }
      i.command = .reconcile inputs history (some out) → (i.carryOut.run.run w).1 = .error e →
        i.loadSettings.run.run w = (.ok loaded, v) →
          Pipeline.collected i.console s history v = .ok r →
            IsAt ⟨out⟩ w.here w.disk p → ∀ n ∈ ownedFiles,
              let left := (i.carryOut.run.run w).2.disk.find? (p ++ [n])
              left = w.disk.find? (p ++ [n]) ∨ left = none ∨
                ∃ content, (n, content) ∈ files (r.seed s.sql) ∧
                  left = some (.file content.toUTF8) := by
  constructor
  · intro h
    let i := nearby "out/migration.sql/.."
    let w := World.bare []
    have he : (i.carryOut.run.run w).1 = .error (.notRenamed
        "out/migration.sql/../migration.sql.tmp" "out/migration.sql/../migration.sql"
        .isFolder) := by
      decide +kernel
    have hat : IsAt ⟨"out/migration.sql/.."⟩ w.here w.disk ["out"] := by decide +kernel
    have hbefore : w.disk.entryAt? ["out", "migration.sql"] = none := by decide +kernel
    have hafter : (i.carryOut.run.run w).2.disk.entryAt? ["out", "migration.sql"] =
        some .folder := by
      decide +kernel
    have hfolder := find?_eq_folder_iff.mpr hafter
    have hnone := find?_eq_none_iff.mpr hbefore
    rcases h i _ _ _ w _ _ rfl he hat "migration.sql" (by decide) with hleft | hleft | ⟨_, hleft⟩
    · exact nomatch (hfolder.symm.trans hleft).trans hnone
    · exact nomatch hfolder.symm.trans hleft
    · exact nomatch hfolder.symm.trans hleft
  · intro h
    let i := nearby "out"
    let w := (World.bare [(["out"], .folder), (["out", "migration.sql"], .folder),
      (["out", "migration.sql.tmp"], .file .empty)]).linked
        ["out", "migration.sql.tmp"] ["out", "seed.sql"]
    let draft := "insert into migration (migration_label) values ('seed-ants:0');\n"
    have he : (i.carryOut.run.run w).1 = .error (.notRenamed "out/migration.sql.tmp"
        "out/migration.sql" .isFolder) := by
      decide +kernel
    have hat : IsAt ⟨"out"⟩ w.here w.disk ["out"] := by decide +kernel
    have hlocate : (i.carryOut.run.run w).2.disk.locate true [] "out/seed.sql" =
        .ok ["out", "seed.sql"] := by
      decide +kernel
    have hread : (i.carryOut.run.run w).2.disk.readText [] "out/seed.sql" = .ok draft := by
      decide +kernel
    have hdraft : ∀ content, (i.carryOut.run.run w).2.disk.find? ["out", "seed.sql"] =
        some (.file content.toUTF8) → content = draft := fun content hfile =>
      Except.ok.inj ((readText_of_find? hlocate hfile).symm.trans hread)
    -- the file of that name that the run has is another one
    have hnew : (match i.loadSettings.run.run w with
        | (.ok loaded, v) =>
          match Pipeline.collected i.console { loaded with
              siteData := "site", issueExport := "issues", outputFolder := "out" }
              ⟨none, none, none, none⟩ v with
          | .ok r => decide (("seed.sql", draft) ∉ files (r.seed loaded.sql))
          | .error _ => false
        | (.error _, _) => false) = true := by
      decide +kernel
    split at hnew
    next loaded v hloaded =>
      split at hnew
      next r hcollected =>
        rcases h i _ _ "out" w v _ _ loaded r rfl he hloaded hcollected hat "seed.sql"
          (by decide) with hleft | hleft | ⟨content, hmem, hleft⟩
        · have hbefore : w.disk.find? ["out", "seed.sql"] = some (.file "".toUTF8) := rfl
          exact absurd (hdraft "" (hleft.trans hbefore)) (by decide)
        · have hthere : (i.carryOut.run.run w).2.disk.entryAt? ["out", "seed.sql"] ≠ none := by
            decide +kernel
          exact hthere (find?_eq_none_iff.mp hleft)
        · rw [hdraft content hleft] at hmem
          exact of_decide_eq_true hnew hmem
      next => cases hnew
    next => cases hnew

end Invocation

end AntRegister
