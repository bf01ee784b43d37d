import AntRegister.Proofs.Classification.Partition
import AntRegister.Proofs.Legacy.Resolution
import AntRegister.Proofs.Site.Matching
/-! What a run makes of its documents. Accepted and legacy ants are on the site and declined ones
are not, so that a suggestion tells them apart. -/

namespace AntRegister

open Calendar (Instant)

/-- The outcome for documents in which neither an issue nor a legacy ant is an error. -/
structure Reconciles (site : Site) (issues : List Issue) (mode : Mode)
    (history : String → Except HistoryError Instant) (r : Reconciliation) : Prop where
  classified : classify issues (.ofAnts site.ants) mode = .ok r.classification
  resolved : site.resolveLegacy (m := Id) history = .ok r.legacy

theorem exists_of_mem_legacyOfDated {dated : List (SiteAnt × Instant)} {a : Legacy}
    (h : a ∈ legacyOfDated dated) : ∃ d ∈ dated, a = .ofEntry d.1.entry d.2 := by
  obtain ⟨d, hd, rfl⟩ := List.mem_map.mp (mem_of_mem_latestBy h)
  exact ⟨d, hd, rfl⟩

theorem suggestion_eq_content {dated : List (SiteAnt × Instant)} {a : Legacy}
    (h : a ∈ legacyOfDated dated) : a.suggestion = a.content := by
  obtain ⟨d, -, rfl⟩ := exists_of_mem_legacyOfDated h
  rfl

theorem nodup_suggestions (dated : List (SiteAnt × Instant)) :
    ((legacyOfDated dated).map fun a => a.suggestion).Nodup := by
  rw [List.map_congr_left fun a ha => suggestion_eq_content ha]
  exact nodup_map_latestBy _ _

/-- The contents of legacy ants, each where it comes first. -/
theorem map_content_legacyOfDated (dated : List (SiteAnt × Instant)) :
    (legacyOfDated dated).map (fun a => a.content) =
      (dated.map fun d => d.1.content).eraseDups := by
  rw [legacyOfDated, map_latestBy, List.map_map]
  rfl

namespace Reconciles

variable {site : Site} {issues : List Issue} {mode : Mode}
  {history : String → Except HistoryError Instant} {r : Reconciliation}

theorem legacy_eq (h : Reconciles site issues mode history r) :
    ∃ dates, site.legacyAnts.map (fun a => history a.content) = dates.map .ok ∧
      r.legacy = legacyOfDated (site.legacyAnts.zip dates) := by
  have hdates : (site.legacyAnts.mapM fun a => history a.content).map
      (fun dates => legacyOfDated (site.legacyAnts.zip dates)) = .ok r.legacy :=
    (site.resolveLegacy_pure (m := Id) history).symm.trans h.resolved
  cases hmap : site.legacyAnts.mapM fun a => history a.content with
  | error e =>
    rw [hmap] at hdates
    cases hdates
  | ok dates =>
    rw [hmap] at hdates
    exact ⟨dates, mapM_eq_ok_iff.mp hmap, (Except.ok.inj hdates).symm⟩

/-- Neither the number of workers nor the order of their turns matters. -/
theorem of_pool {workers : Nat} {ts : List Turn}
    (hclassified : classify issues (.ofAnts site.ants) mode = .ok r.classification)
    (hfinished : (site.legacyPool history workers ts).isFinished = true)
    (hresolved : site.legacyOfPool (site.legacyPool history workers ts) = .ok r.legacy) :
    Reconciles site issues mode history r where
  classified := hclassified
  resolved := (site.resolveLegacy_eq_pool (m := Id) history workers hfinished).trans hresolved

theorem contents_legacy (h : Reconciles site issues mode history r) :
    r.legacy.map (fun a => a.content) =
      (site.legacyAnts.map fun a => a.content).eraseDups := by
  obtain ⟨dates, hdates, hlegacy⟩ := h.legacy_eq
  have hlength : site.legacyAnts.length = dates.length := by
    simpa using congrArg List.length hdates
  have hfst : (site.legacyAnts.zip dates).map Prod.fst = site.legacyAnts :=
    List.map_fst_zip hlength.le
  rw [hlegacy, map_content_legacyOfDated, ← hfst, List.map_map, hfst]
  rfl

/-- A legacy ant is an entry of the site that is flagged as one, dated by the history. -/
theorem exists_legacyAnt (h : Reconciles site issues mode history r) {a : Legacy}
    (ha : a ∈ r.legacy) :
    ∃ s ∈ site.legacyAnts, ∃ i, history s.content = .ok i ∧ a = .ofEntry s.entry i := by
  obtain ⟨dates, hdates, hlegacy⟩ := h.legacy_eq
  rw [hlegacy] at ha
  obtain ⟨⟨s, i⟩, hd, rfl⟩ := exists_of_mem_legacyOfDated ha
  have hasked := ask_of_mem_zip hdates hd
  exact ⟨s, (List.of_mem_zip hd).1, i, hasked, rfl⟩

/-- An accepted ant is an entry of the site, with the dates of an issue. -/
theorem exists_siteAnt (h : Reconciles site issues mode history r) {a : Accepted}
    (ha : a ∈ r.classification.accepted) :
    ∃ s ∈ site.ants, ∃ createdAt closedAt, a = .ofEntry s.entry createdAt closedAt :=
  exists_siteAnt_of_mem_accepted h.classified ha

theorem nodup_legacy (h : Reconciles site issues mode history r) :
    (r.legacy.map fun a => a.suggestion).Nodup := by
  obtain ⟨dates, -, hlegacy⟩ := h.legacy_eq
  rw [hlegacy]
  exact nodup_suggestions _

theorem lookup_declined (h : Reconciles site issues mode history r) {a : Declined}
    (ha : a ∈ r.classification.declined) : (Matcher.ofAnts site.ants).lookup a.suggestion = none :=
  lookup_of_mem_declined h.classified ha

theorem lookup_accepted (h : Reconciles site issues mode history r) {a : Accepted}
    (ha : a ∈ r.classification.accepted) :
    (Matcher.ofAnts site.ants).lookup a.suggestion ≠ none := by
  obtain ⟨s, hs, createdAt, closedAt, rfl⟩ := h.exists_siteAnt ha
  exact Matcher.lookup_suggestion_ne_none hs

theorem lookup_legacy (h : Reconciles site issues mode history r) {a : Legacy}
    (ha : a ∈ r.legacy) : (Matcher.ofAnts site.ants).lookup a.suggestion ≠ none := by
  obtain ⟨s, hs, i, -, rfl⟩ := h.exists_legacyAnt ha
  exact Matcher.lookup_content_ne_none (List.mem_of_mem_filter hs)

end Reconciles

end AntRegister
