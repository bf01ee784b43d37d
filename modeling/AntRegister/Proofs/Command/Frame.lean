import AntRegister.Proofs.Command.Progress
import AntRegister.Proofs.Command.Reconciling
/-! What a run does to everything that it does not own. It leaves all of it alone, except that it
makes the folders on the way to its output folder, and that it takes the names of its drafts for
its own. -/

namespace AntRegister

open Disk OutputFolder Reconciliation

namespace Pipeline

theorem progress_reconcile (c : Console) (s : Settings) (history : HistoryArguments) (w : World)
    (hplain : ∀ p, IsAt ⟨s.outputFolder⟩ w.here w.disk p → Plain p ownedFiles w.disk) :
    let after := (reconcile c s history).run.run w
    ∃ files unfinished, Progress ⟨s.outputFolder⟩ w.here files w.disk after.2.disk unfinished ∧
      (after.1 = .ok () → unfinished = none) := by
  intro after
  have hends := ends_reconcile c s history w hplain
  cases hafter : after.1 with
  | ok _ =>
    obtain ⟨r, -, p, hpublished, -⟩ := hends.of_ok hafter
    exact ⟨_, none, hpublished.progress (owned_files r s.sql) hplain, fun _ => rfl⟩
  | error e =>
    rcases hends.of_error hafter with ⟨hcollected, -⟩ | ⟨r, -, -, hstopped, -⟩
    · rw [disk_of_not_collected hcollected]
      exact ⟨[], none, .of_kept fun l => .refl _ _ _ l, nofun⟩
    · obtain ⟨unfinished, hprogress⟩ := hstopped.progress (owned_files r s.sql) hplain
      exact ⟨_, unfinished, hprogress, nofun⟩

end Pipeline

/-- Where the owned names and those of their drafts are no links, and no two drafts are one file, a
run that ends well or not leaves everything else as it was, unless it is one file with a draft, and
makes no more than the folders on the way to the output folder. What has the name of a draft stays
too, or it is replaced by the draft and goes with it when that is moved into place, unless both were
one file, or it is the draft that a failed run has left, and there is one such draft at most. -/
theorem reconcile_frame (c : Console) (s : Settings) (history : HistoryArguments) (w : World)
    (hplain : ∀ p, IsAt ⟨s.outputFolder⟩ w.here w.disk p → Plain p ownedFiles w.disk) :
    let folder : OutputFolder := ⟨s.outputFolder⟩
    let after := (Pipeline.reconcile c s history).run.run w
    let kept := Kept w.here s.outputFolder w.disk after.2.disk
    (∀ l, (∀ p, folder.IsAt w.here w.disk p → ∀ n ∈ ownedFiles, l ≠ p ++ [n] ∧
      l ≠ p ++ [draft n] ∧ ¬w.disk.SameFile l (p ++ [draft n])) → kept l) ∧
    ∃ unfinished : Option String, (after.1 = .ok () → unfinished = none) ∧
      ∀ p, folder.IsAt w.here w.disk p → ∀ n ∈ ownedFiles,
        let left := after.2.disk.find? (p ++ [draft n])
        kept (p ++ [draft n]) ∨
          ((∃ content, after.2.disk.find? (p ++ [n]) = some (.file content)) ∧
            (left = none ∨ w.disk.SameFile (p ++ [n]) (p ++ [draft n]) ∧
              after.2.disk.SameFile (p ++ [n]) (p ++ [draft n]))) ∨
          unfinished = some n ∧ ∃ content, left = some (.file content) := by
  intro folder after kept
  obtain ⟨files, unfinished, hprogress, hok⟩ :=
    Pipeline.progress_reconcile c s history w hplain
  refine ⟨fun l hl => hprogress.foreign l fun p hp n hn => ?_, unfinished, hok,
    fun p hp n hn => ?_⟩
  · obtain ⟨hname, hdraft, hsame⟩ := hl p hp n hn
    exact ⟨⟨hname, hdraft⟩, hsame⟩
  · rcases hprogress.drafts p hp n hn with (hkept | ⟨⟨content, -, hwritten⟩, hcases⟩) | hleft
    · exact .inl hkept
    · exact .inr (.inl ⟨⟨_, hwritten⟩, hcases⟩)
    · exact .inr (.inr hleft)

/-- A run that cannot put a file in place leaves another file beside it alone. -/
theorem reconcile_frame_foreign_file :
    let w := World.bare [(["out"], .folder), (["out", "migration.sql"], .folder),
      (["out", "notes"], .file .empty)]
    let after := (Pipeline.reconcile ⟨.text, false⟩ .nearby ⟨none, none, none, none⟩).run.run w
    after.1.isOk = false ∧ after.2.disk.find? ["out", "notes"] = w.disk.find? ["out", "notes"] := by
  intro w after
  have hat : IsAt ⟨Settings.nearby.outputFolder⟩ w.here w.disk ["out"] := by decide +kernel
  have hplain : Plain ["out"] ownedFiles w.disk := by decide +kernel
  have hforeign : ∀ n ∈ ownedFiles, ["out", "notes"] ≠ ["out"] ++ [n] ∧
      ["out", "notes"] ≠ ["out"] ++ [draft n] ∧
        ¬w.disk.SameFile ["out", "notes"] (["out"] ++ [draft n]) := by
    decide +kernel
  obtain ⟨hkept, -⟩ := reconcile_frame ⟨.text, false⟩ .nearby ⟨none, none, none, none⟩ w
    fun p hp => hp.unique hat ▸ hplain
  refine ⟨by decide +kernel, ?_⟩
  rcases hkept ["out", "notes"] fun p hp => hp.unique hat ▸ hforeign with heq | ⟨-, hnone, -⟩
  · exact heq
  · -- there was a file
    have hfile : w.disk.entryAt? ["out", "notes"] ≠ none := by decide +kernel
    exact absurd (find?_eq_none_iff.mp hnone) hfile

/-- A file that has the name of a draft is lost to a run that ends well. -/
theorem reconcile_takes_draft_name : ¬∀ (c : Console) (s : Settings) (history : HistoryArguments)
    (w : World) (p : Location), IsAt ⟨s.outputFolder⟩ w.here w.disk p →
      ∀ n ∉ ownedFiles,
        ((Pipeline.reconcile c s history).run.run w).2.disk.find? (p ++ [n]) =
          w.disk.find? (p ++ [n]) := by
  intro h
  have hlost := congrArg Option.isSome (h ⟨.text, false⟩ .nearby ⟨none, none, none, none⟩
    (.bare [(["out"], .folder), (["out", "migration.sql.tmp"], .file .empty)]) ["out"]
    (by decide +kernel) "migration.sql.tmp" (by decide))
  revert hlost
  decide +kernel

end AntRegister
