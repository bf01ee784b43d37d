import AntRegister.Proofs.Command.Inputs
import AntRegister.Proofs.Release.Ranking
/-! What a run shows: nothing if it fails, and otherwise the counts of what it has written. -/

namespace AntRegister

/-- What a run counts. -/
structure RunCounts where
  unseen : Nat
  declined : Nat
  accepted : Nat
  legacy : Nat
  skipped : Nat
  releases : Nat

namespace RunCounts

/-- A label with its value, in columns. -/
def row (label value : String) : String :=
  Text.leftAligned 16 (label ++ ":") ++ " " ++ value ++ "\n"

def lines (k : RunCounts) (label folder : String) (written : List String) : String :=
  row "Unseen" (Text.decimal k.unseen) ++ row "Declined" (Text.decimal k.declined) ++
    row "Accepted" (Text.decimal k.accepted) ++ row "Legacy" (Text.decimal k.legacy) ++
    row "Skipped" (Text.decimal k.skipped) ++ row "Releases" (Text.decimal k.releases) ++
    row "Migration" label ++ "\n" ++
    ("Wrote " ++ Text.decimal written.length ++ " files to " ++ folder ++ "\n")

/-- Releases are numbered from 1, so that their count is also the latest of them. -/
def latest? (k : RunCounts) : Option Nat := if k.releases = 0 then none else some k.releases

def document (k : RunCounts) (label : String) (written : List String) : Json :=
  .object [
    ("unseen", .integer k.unseen),
    ("declined", .integer k.declined),
    ("accepted", .integer k.accepted),
    ("legacy", .integer k.legacy),
    ("skipped", .integer k.skipped),
    ("releases", .integer k.releases),
    ("latest_release", Json.orNull (fun n => .integer n) k.latest?),
    ("migration_label", .text label),
    ("files", .array (written.map .text))]

/-- The counts as they are shown, with the label of the script and the files that were written. -/
def shown (k : RunCounts) (format : Format) (label folder : String) (written : List String) :
    String :=
  match format with
  | .text => k.lines label folder written
  | .json => (k.document label written).compact ++ "\n"

end RunCounts

theorem output_print (s : String) (w : World) :
    ((Program.print s).run w).2.output = w.output ++ s := by
  have hgranted : (Request.print s).IsGranted := trivial
  change (w.answer (.print s)).2.output = w.output ++ s
  rw [w.answer_granted hgranted]
  rfl

namespace Console

theorem output_line (s : String) (w : World) :
    ((line s).run w).2.output = w.output ++ (s ++ "\n") := output_print _ w

theorem output_field (verbose : Bool) (label value : String) (w : World) :
    ((field ⟨.text, verbose⟩ label value).run w).2.output =
      w.output ++ RunCounts.row label value := output_line _ w

theorem output_count (verbose : Bool) (label : String) (n : Nat) (w : World) :
    ((count ⟨.text, verbose⟩ label n).run w).2.output =
      w.output ++ RunCounts.row label (Text.decimal n) := output_field verbose label _ w

end Console

namespace Reconciliation

variable (r : Reconciliation)

def counts : RunCounts where
  unseen := r.classification.unseen.length
  declined := r.classification.declined.length
  accepted := r.classification.accepted.length
  legacy := r.legacy.length
  skipped := r.classification.skipped
  releases := r.numbered.releases.length

theorem releases_counts : r.counts.releases =
    (creationDays r.classification.accepted r.legacy).toFinset.card := by
  rw [counts, numbered, releases_assignReleases, List.length_map, List.length_range']

theorem latest?_numbered : r.numbered.latest? = r.counts.latest? := by
  have hnone : r.counts.releases = 0 ↔ r.classification.accepted = [] ∧ r.legacy = [] := by
    rw [releases_counts, Finset.card_eq_zero, List.toFinset_eq_empty_iff, creationDays,
      List.append_eq_nil_iff, List.map_eq_nil_iff, List.map_eq_nil_iff]
  rw [numbered, latest?_assignReleases, RunCounts.latest?, ← releases_counts]
  simp only [hnone]

theorem summary_eq (label : String) (written : List String) :
    r.summary label written = r.counts.document label written := by
  rw [summary, latest?_numbered]
  rfl

theorem output_report (c : Console) (label folder : String) (written : List String) (w : World) :
    ((r.report c label folder written).run w).2.output =
      w.output ++ r.counts.shown c.format label folder written := by
  obtain ⟨format, verbose⟩ := c
  cases format with
  | text =>
    unfold report RunCounts.shown RunCounts.lines
    simp only [Program.run_bind, Console.output_count, Console.output_field, Console.blank,
      Console.textLine, Console.success, Console.output_line, String.append_assoc]
    rfl
  | json =>
    refine (Console.output_line _ w).trans ?_
    rw [summary_eq]
    rfl

end Reconciliation

namespace Pipeline

variable (c : Console) (s : Settings) (history : HistoryArguments) (w : World)

/-- Between collecting and publishing a run only notes its progress. -/
theorem run_reconcile_of_collected {r : Reconciliation}
    (h : ((collect c s history).run.run w).1 = .ok r) :
    ∃ before, before.disk = w.disk ∧ before.output = w.output ∧
      (reconcile c s history).run.run w = (publish c ⟨s.outputFolder⟩ (r.seed s.sql) >>=
        fun written => r.report c (r.seed s.sql).label s.outputFolder written).run.run before := by
  have hcollect := uses_collect c s history
  have hprogress : ∀ part message, (c.progressOf part message).Uses Request.IsInquiry :=
    Console.uses_progressOf (fun _ => trivial) c
  refine ⟨_, ?_, ?_, (Action.run_bind_of_ok h).trans
    ((Action.run_ofProgram_bind _ _ _).trans (Action.run_ofProgram_bind _ _ _))⟩
  · rw [(hprogress _ _).disk_run, (hprogress _ _).disk_run, hcollect.disk_run]
  · rw [(hprogress _ _).isSilent.output_run, (hprogress _ _).isSilent.output_run,
      hcollect.isSilent.output_run]

/-- A run that fails shows nothing. One that does not shows the counts of what it collected, and has
published the script of just that. -/
theorem run_reconcile :
    let after := (reconcile c s history).run.run w
    (∃ e, after.1 = .error e ∧ after.2.output = w.output) ∨
      ∃ r written before, ((collect c s history).run.run w).1 = .ok r ∧ before.disk = w.disk ∧
        ((publish c ⟨s.outputFolder⟩ (r.seed s.sql)).run.run before).1 = .ok written ∧
        after.1 = .ok () ∧ after.2.output =
          w.output ++ r.counts.shown c.format (r.seed s.sql).label s.outputFolder written := by
  intro after
  cases hcollected : ((collect c s history).run.run w).1 with
  | error e =>
    have hafter : after = (.error e, ((collect c s history).run.run w).2) :=
      Action.run_bind_of_error hcollected
    rw [hafter]
    exact .inl ⟨e, rfl, (uses_collect c s history).isSilent.output_run w⟩
  | ok r =>
    obtain ⟨before, hdisk, hbefore, hafter : after = _⟩ :=
      run_reconcile_of_collected c s history w hcollected
    have hpublish := (uses_publish c ⟨s.outputFolder⟩ (r.seed s.sql)).output_run before
    cases hpublished : ((publish c ⟨s.outputFolder⟩ (r.seed s.sql)).run.run before).1 with
    | error e =>
      rw [hafter, Action.run_bind_of_error hpublished]
      exact .inl ⟨e, rfl, hpublish.trans hbefore⟩
    | ok written =>
      rw [hafter, Action.run_bind_of_ok hpublished, Action.run_ofProgram]
      refine .inr ⟨r, written, before, rfl, hdisk, hpublished, rfl, ?_⟩
      rw [r.output_report, hpublish, hbefore]

end Pipeline

end AntRegister
