import AntRegister.Command.Pipeline
import AntRegister.Proofs.Legacy.Outcome
/-! Dating the legacy ants of a site with a pool. Every run of the pool ends, and it ends with what
the commands get by asking for one ant after the other, so that neither the number of workers nor
the order of their turns can be seen in a seed. -/

namespace AntRegister

open Calendar (Instant)

variable {m : Type → Type} [Monad m] [LawfulMonad m]

theorem datesOf_pure (history : String → Except HistoryError Instant) (ants : List SiteAnt) :
    datesOf (fun content => (pure (history content) : m _)) ants =
      pure ((ants.mapM fun a => history a.content).map ants.zip) := by
  induction ants with
  | nil => rfl
  | cons a ants ih =>
    rw [datesOf, pure_bind, ih, List.mapM_cons]
    cases history a.content with
    | error e => rfl
    | ok i =>
      dsimp only
      rw [pure_bind]
      cases ants.mapM fun a => history a.content <;> rfl

theorem Site.resolveLegacy_pure (site : Site) (history : String → Except HistoryError Instant) :
    site.resolveLegacy (fun content => (pure (history content) : m _)) =
      pure ((site.legacyAnts.mapM fun a => history a.content).map fun dates =>
        legacyOfDated (site.legacyAnts.zip dates)) := by
  rw [Site.resolveLegacy, datesOf_pure, pure_bind]
  cases site.legacyAnts.mapM fun a => history a.content <;> rfl

namespace Site

/-- The pool that dates the legacy ants of a site, after some turns. -/
def legacyPool (site : Site) (history : String → Except HistoryError Instant) (workers : Nat)
    (ts : List Turn) : Pool SiteAnt HistoryError Instant :=
  (Pool.start workers site.legacyAnts.length).run site.legacyAnts (fun a => history a.content) ts

/-- The legacy ants with the dates of a pool. -/
def legacyOfPool (site : Site) (p : Pool SiteAnt HistoryError Instant) :
    Except HistoryError (List Legacy) :=
  p.outcome.map fun dates => legacyOfDated (site.legacyAnts.zip dates)

variable (site : Site) (history : String → Except HistoryError Instant) (workers : Nat)

theorem outcome_legacyPool {ts : List Turn}
    (h : (site.legacyPool history workers ts).isFinished = true) :
    (site.legacyPool history workers ts).outcome =
      site.legacyAnts.mapM fun a => history a.content :=
  Pool.outcome_run workers ts h

theorem resolveLegacy_eq_pool {ts : List Turn}
    (h : (site.legacyPool history workers ts).isFinished = true) :
    site.resolveLegacy (fun content => (pure (history content) : m _)) =
      pure (site.legacyOfPool (site.legacyPool history workers ts)) := by
  rw [resolveLegacy_pure, legacyOfPool, outcome_legacyPool site history workers h]

end Site

/-- Every run of the pool ends. It ends with all dates in the order of the ants, or with the error
of the first ant that has none, and this is what asking in order gives, so that other workers and
other turns lead to the same seed. -/
theorem legacyPool_sequential (site : Site) (history : String → Except HistoryError Instant)
    (workers : Nat) (ts : List Turn) :
    ((Pool.start workers site.legacyAnts.length).IsRun site.legacyAnts
        (fun a => history a.content) ts →
      ts.length ≤ 5 * site.legacyAnts.length + 2 * Pool.size workers site.legacyAnts.length ∧
      ((site.legacyPool history workers ts).isFinished = true ∨
        ∃ t, (Pool.start workers site.legacyAnts.length).IsRun site.legacyAnts
          (fun a => history a.content) (ts ++ [t]))) ∧
    ((site.legacyPool history workers ts).isFinished = true →
      (∀ dates, (site.legacyPool history workers ts).outcome = .ok dates ↔
        site.legacyAnts.map (fun a => history a.content) = dates.map .ok) ∧
      (∀ e, (site.legacyPool history workers ts).outcome = .error e ↔
        ∃ before a after, site.legacyAnts = before ++ a :: after ∧
          (∀ b ∈ before, ∃ i, history b.content = .ok i) ∧ history a.content = .error e) ∧
      site.resolveLegacy (fun content => (pure (history content) : Program _)) =
        pure (site.legacyOfPool (site.legacyPool history workers ts)) ∧
      ∀ workers' us, (site.legacyPool history workers' us).isFinished = true →
        ∀ classification options,
          (site.legacyOfPool (site.legacyPool history workers ts)).map
              (fun legacy => Reconciliation.seed ⟨classification, legacy⟩ options) =
            (site.legacyOfPool (site.legacyPool history workers' us)).map
              fun legacy => Reconciliation.seed ⟨classification, legacy⟩ options) := by
  refine ⟨fun hrun => ⟨?_, hrun.isFinished_or_concat⟩, fun h => ⟨?_, ?_, ?_, ?_⟩⟩
  · rw [← Pool.turnsLeft_start]
    exact hrun.length_le
  · intro dates
    rw [site.outcome_legacyPool history workers h, mapM_eq_ok_iff]
  · intro e
    rw [site.outcome_legacyPool history workers h, mapM_eq_error_iff]
  · exact site.resolveLegacy_eq_pool history workers h
  · intro workers' us h' classification options
    rw [Site.legacyOfPool, Site.legacyOfPool, site.outcome_legacyPool history workers h,
      site.outcome_legacyPool history workers' h']

/-- The second of two ants fails first, and the first one still gives the error. -/
theorem legacyPool_sequential_two_missing :
    let site := Site.ofAnts [(SiteAnt.plain "a").markedLegacy, (SiteAnt.plain "b").markedLegacy]
    let ts := [⟨0, false⟩, ⟨0, false⟩, ⟨1, false⟩, ⟨1, false⟩, ⟨1, false⟩, ⟨1, false⟩, ⟨1, false⟩,
      ⟨1, true⟩, ⟨1, false⟩, ⟨0, false⟩, ⟨0, false⟩, ⟨0, false⟩, ⟨0, false⟩]
    ts.length ≤ 14 ∧
      (site.legacyPool (fun content => .error (.notFound content)) 2 ts).isFinished = true ∧
      (site.legacyPool (fun content => .error (.notFound content)) 2 ts).outcome =
        .error (.notFound "a") := by
  intro site ts
  have hfinished :
      (site.legacyPool (fun content => .error (.notFound content)) 2 ts).isFinished = true := by
    decide
  have h := legacyPool_sequential site (fun content => .error (.notFound content)) 2 ts
  refine ⟨(h.1 (by decide)).1, hfinished, ((h.2 hfinished).2.1 _).mpr ?_⟩
  exact ⟨[], _, _, rfl, by simp, rfl⟩

end AntRegister
