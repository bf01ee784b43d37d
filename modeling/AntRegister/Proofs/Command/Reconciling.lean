import AntRegister.Proofs.Command.Collection
import AntRegister.Proofs.Command.Inputs
import AntRegister.Proofs.Command.Publication
/-! A run from its sources to its report. It publishes what it has collected, or it ends before
anything is written, or it stops in the middle of publishing. -/

namespace AntRegister

open AntRegister.Action Disk OutputFolder Reconciliation Request

namespace Console

variable (c : Console)

theorem uses_textLine (s : String) : (c.textLine s).Uses SparesDisk := by
  unfold textLine
  split
  · exact .request trivial
  · exact .pure ()

theorem uses_success (s : String) : (c.success s).Uses SparesDisk := by
  unfold success
  split <;> exact .request trivial

end Console

theorem Reconciliation.uses_report (r : Reconciliation) (c : Console) (label folder : String)
    (written : List String) : (r.report c label folder written).Uses SparesDisk := by
  unfold report
  split
  · exact .request trivial
  · refine .bind (c.uses_textLine _) fun _ => .bind (c.uses_textLine _) fun _ => ?_
    refine .bind (c.uses_textLine _) fun _ => .bind (c.uses_textLine _) fun _ => ?_
    refine .bind (c.uses_textLine _) fun _ => .bind (c.uses_textLine _) fun _ => ?_
    refine .bind (c.uses_textLine _) fun _ => .bind (c.uses_textLine _) fun _ => ?_
    exact c.uses_success _

namespace Pipeline

variable (c : Console) (s : Settings) (history : HistoryArguments) (w : World)

def collected : Except Failure Reconciliation := ((collect c s history).run.run w).1

/-- A run that fails before it has collected everything writes nothing. -/
theorem disk_of_not_collected {c s history w} {e : Failure}
    (he : collected c s history w = .error e) :
    ((reconcile c s history).run.run w).2.disk = w.disk := by
  rw [reconcile, run_bind_of_error he]
  exact (uses_collect c s history).disk_run w

theorem ends_reconcile
    (hplain : ∀ p, IsAt ⟨s.outputFolder⟩ w.here w.disk p → Plain p ownedFiles w.disk) :
    (reconcile c s history).Ends w
      (fun _ v => ∃ r, collected c s history w = .ok r ∧ ∃ p,
        Published ⟨s.outputFolder⟩ w.here p (files (r.seed s.sql)) w.disk v.disk ∧
          (w.Sees → Gone p (stale (files (r.seed s.sql))) v.disk))
      (fun e v => (collected c s history w = .error e ∧ ¬e.IsOfWriting) ∨
        ∃ r, collected c s history w = .ok r ∧ e.IsOfWriting ∧
          Stopped ⟨s.outputFolder⟩ w.here (files (r.seed s.sql)) w.disk v.disk ∧
          (w.IsCalm → ∀ p, ¬∀ x ∈ files (r.seed s.sql),
            Ready ⟨s.outputFolder⟩ w.here p x.1 w.disk)) := by
  have hinquires := (uses_collect c s history).disk_run w
  have hnotes : ∀ part message (u : World), ((c.progressOf part message).run u).2.disk = u.disk :=
    fun part message => Program.Uses.disk_run (Console.uses_progressOf (fun _ => trivial) c _ _)
  refine (ends_run (collect c s history) w).bind (fun r v hv hr => ?_) fun e v hv he => .inl
    ⟨congrArg Prod.fst he, (returns_collect c s history).of_error (congrArg Prod.fst he)⟩
  have hcollected : collected c s history w = .ok r := congrArg Prod.fst hr
  rw [hr] at hinquires
  refine Ends.bind (.ofProgram (P := fun _ u => u.disk = w.disk) (F := fun _ _ => False)
    ((hnotes _ _ v).trans hinquires)) (fun _ u hu hdisk => ?_) fun _ _ _ => False.elim
  refine Ends.bind (.ofProgram (P := fun _ u => u.disk = w.disk) (F := fun _ _ => False)
    ((hnotes _ _ u).trans hdisk)) (fun _ t ht hdisk => ?_) fun _ _ _ => False.elim
  have hsame := hv.trans (hu.trans ht)
  have hpublish := ends_publish c ⟨s.outputFolder⟩ (owned_files r s.sql) t
  rw [hdisk, hsame.here] at hpublish
  refine (hpublish hplain).bind (fun written x hx ⟨p, hpublished, hgone⟩ => .ofProgram ?_)
    fun e x hx ⟨hwriting, hstopped, hcalm⟩ =>
      .inr ⟨r, hcollected, hwriting, hstopped, fun h => hcalm (hsame.isCalm h)⟩
  rw [(r.uses_report c _ _ written).disk_run_of_spares x]
  exact ⟨r, hcollected, p, hpublished, fun h => hgone (hsame.sees h)⟩

end Pipeline

def Settings.nearby : Settings :=
  { Settings.default with siteData := "site", issueExport := "issues" }

/-- A world in which such settings name documents with nothing in them, among other files and
folders. -/
def World.bare (others : List (Location × Node)) : World :=
  .start (.ofNodes ((["site"], .file "\x7b\"ants\": []\x7d".toUTF8) ::
    (["issues"], .file "[]".toUTF8) :: others)) []

/-- A world with a second name for a file. -/
def World.linked (w : World) (old new : Location) : World :=
  match w.disk.entryAt? old with
  | some file => { w with disk := w.disk.enter new file }
  | none => w

end AntRegister
