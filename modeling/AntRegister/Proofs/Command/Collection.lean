import AntRegister.Command.Pipeline
import AntRegister.Proofs.Outcomes
/-! What comes of reading, classifying and dating, whatever the documents are and whatever the
history says. Nothing is written up to then, so that no failure is one of writing. -/

namespace AntRegister

open Calendar (Instant)

def Failure.IsOfWriting : Failure → Prop
  | .folderNotMade _ _ | .draftNotOpened _ _ | .draftNotLocked _ _ | .draftNotWritten _ _
  | .draftNotFlushed _ | .notRenamed _ _ _ | .notRemoved _ _ => True
  | _ => False

abbrev Failure.IsBeforeWriting (e : Failure) : Prop := ¬e.IsOfWriting

/-- The site's flagged ants with dates, as legacy ants. -/
def Site.Dated (site : Site) (legacy : List Legacy) : Prop :=
  ∃ dated, dated.map Prod.fst = site.legacyAnts ∧ legacy = legacyOfDated dated

theorem Document.returns_text (doc : Document) (path : String) :
    (doc.text path).Returns (fun _ => True) Failure.IsBeforeWriting :=
  .bind (.request _) fun _ _ => .ofExcept (fun _ _ => trivial) fun _ => id

theorem Document.returns_load {α : Type} (doc : Document) (read : Json → Option α)
    (path : String) :
    (doc.load read path).Returns (fun _ => True) Failure.IsBeforeWriting := by
  refine .bind (doc.returns_text path) fun text _ => ?_
  split
  · exact .pure trivial
  · exact .throw id

/-- Asking for dates ends at the first error, so that if there is none all ants are dated. -/
theorem returns_datesOf (history : String → Program (Except HistoryError Instant))
    (ants : List SiteAnt) :
    (datesOf history ants).Returns fun outcome =>
      ∀ dated, outcome = .ok dated → dated.map Prod.fst = ants := by
  induction ants with
  | nil =>
    rintro dated ⟨⟩
    rfl
  | cons a ants ih =>
    refine .bind (.of_forall (P := fun _ => True) _ fun _ => trivial) fun answer _ => ?_
    cases answer with
    | error e =>
      refine .pure fun dated h => ?_
      cases h
    | ok i =>
      refine .bind ih fun outcome h => ?_
      cases outcome with
      | error e =>
        refine .pure fun dated h => ?_
        cases h
      | ok found =>
        refine .pure ?_
        rintro dated ⟨⟩
        rw [List.map_cons, h found rfl]

theorem Site.returns_resolveLegacy (site : Site)
    (history : String → Program (Except HistoryError Instant)) :
    (site.resolveLegacy history).Returns fun outcome =>
      ∀ legacy, outcome = .ok legacy → site.Dated legacy := by
  refine .bind (returns_datesOf history _) fun outcome h => .pure fun legacy hlegacy => ?_
  cases outcome with
  | error e => cases hlegacy
  | ok dated => exact ⟨dated, h dated rfl, (Except.ok.inj hlegacy).symm⟩

namespace Pipeline

variable (c : Console)

theorem returns_progress (part message : String) :
    Action.Returns (fun _ => True) Failure.IsBeforeWriting (c.progressOf part message) :=
  .ofProgram (.of_forall _ fun _ => trivial)

theorem returns_loadSources (s : Settings) :
    (Sources.load c s).Returns (fun sources => sources.matcher = .ofAnts sources.site.ants)
      Failure.IsBeforeWriting := by
  refine .bind (returns_progress c _ _) fun _ _ => ?_
  refine .bind (Document.returns_load _ _ _) fun site _ => ?_
  refine .bind (returns_progress c _ _) fun _ _ => .bind (returns_progress c _ _) fun _ _ => ?_
  have hissues : (loadIssues s.issueExport).Returns (fun _ => True) Failure.IsBeforeWriting :=
    .bind (Document.returns_load _ _ _) fun _ _ => .pure trivial
  exact .bind hissues fun issues _ => .bind (returns_progress c _ _) fun _ _ => .pure rfl

theorem returns_classify (sources : Sources) (mode : Mode) :
    (sources.classify c mode).Returns
      (fun found => AntRegister.classify sources.issues sources.matcher mode = .ok found)
      Failure.IsBeforeWriting :=
  .bind (.ofExcept (fun _ h => h) fun _ => id) fun _ h =>
    .bind (returns_progress c _ _) fun _ _ => .pure h

theorem returns_source (history : HistoryArguments) (s : Settings) :
    (history.source c s).Returns (fun _ => True) Failure.IsBeforeWriting := by
  unfold HistoryArguments.source
  split
  · refine .bind (returns_progress c _ _) fun _ _ => ?_
    exact .bind (Document.returns_load _ _ _) fun _ _ => .pure trivial
  · exact .bind (returns_progress c _ _) fun _ _ => .pure trivial

theorem returns_resolveLegacy (sources : Sources) (workers : Nat)
    (lookups : String → Program (Except HistoryError Instant)) :
    (sources.resolveLegacy c workers lookups).Returns sources.site.Dated
      Failure.IsBeforeWriting := by
  refine .bind (returns_progress c _ _) fun _ _ => ?_
  refine .bind (.ofProgram (sources.site.returns_resolveLegacy lookups)) fun outcome h => ?_
  refine .bind (.ofExcept h fun _ => id) fun legacy hlegacy => ?_
  exact .bind (returns_progress c _ _) fun _ _ => .pure hlegacy

theorem returns_collect (s : Settings) (history : HistoryArguments) :
    (collect c s history).Returns (fun _ => True) Failure.IsBeforeWriting := by
  refine .bind (returns_loadSources c s) fun sources _ => ?_
  refine .bind (returns_classify c sources s.mode) fun classification _ => ?_
  have hrest : Action.Returns (fun _ => True) Failure.IsBeforeWriting (do
      let lookups ← history.source c s
      let legacy ← sources.resolveLegacy c s.history.workers lookups
      return Reconciliation.mk classification legacy) :=
    .bind (returns_source c history s) fun _ _ =>
      .bind (returns_resolveLegacy c sources _ _) fun _ _ => .pure trivial
  dsimp only
  split
  · exact .bind (.ofProgram (.of_forall _ fun _ => trivial)) fun _ _ => hrest
  · exact hrest

end Pipeline

end AntRegister
