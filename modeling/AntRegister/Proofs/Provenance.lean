import AntRegister.Proofs.Reconciliation
import AntRegister.Proofs.Release.Ranking
/-! Where the ants of a run come from. The document may repeat a content, and one entry may have
the content or the suggestion of another. Still no ant is mixed from two entries, and no content
appears twice among the accepted ants or among the legacy ones. -/

namespace AntRegister

open Calendar (Instant)

/-- Whether an ant has the content, the ordering and the tweet of an entry of the site data. -/
structure Resident.IsFrom (a : Resident) (s : SiteAnt) : Prop where
  content : a.content = s.content
  ordering : a.ordering = contentHash s.content
  tweeted : a.tweeted = s.tweeted.getD false
  tweetedAt : a.tweetedAt = s.tweetedAt

theorem Accepted.isFrom (s : SiteAnt) (createdAt closedAt : Instant) :
    (Accepted.ofEntry s.entry createdAt closedAt).IsFrom s := ⟨rfl, rfl, rfl, rfl⟩

theorem Legacy.isFrom (s : SiteAnt) (createdAt : Instant) :
    (Legacy.ofEntry s.entry createdAt).IsFrom s := ⟨rfl, rfl, rfl, rfl⟩

namespace Reconciles

variable {site : Site} {issues : List Issue} {mode : Mode}
  {history : String → Except HistoryError Instant} {r : Reconciliation}

theorem nodup_contents_accepted (h : Reconciles site issues mode history r) :
    (r.classification.accepted.map fun a => a.content).Nodup := by
  rw [contents_accepted h.classified]
  exact nodup_eraseDups _

theorem nodup_contents_legacy (h : Reconciles site issues mode history r) :
    (r.legacy.map fun a => a.content).Nodup := by
  rw [h.contents_legacy]
  exact nodup_eraseDups _

theorem mem_contents_legacy_iff (h : Reconciles site issues mode history r) {content : String} :
    content ∈ r.legacy.map (fun a => a.content) ↔
      ∃ s ∈ site.ants, s.isLegacy = true ∧ s.content = content := by
  rw [h.contents_legacy, List.mem_eraseDups, List.mem_map, Site.legacyAnts]
  simp only [List.mem_filter, and_assoc]

end Reconciles

/-- Each ant of a run is one entry of the site data, with what the issue or the history adds to it:
an accepted one has the entry's suggestion, a legacy one is flagged, takes its content for its
suggestion and has the date that the history gives for it. Each flagged content is a legacy ant
once. -/
theorem released_from_site {site : Site} {issues : List Issue} {mode : Mode}
    {history : String → Except HistoryError Instant} {workers : Nat} {ts : List Turn}
    {classification : Classification} {legacy : List Legacy}
    (hclassified : classify issues (.ofAnts site.ants) mode = .ok classification)
    (hfinished : (site.legacyPool history workers ts).isFinished = true)
    (hresolved : site.legacyOfPool (site.legacyPool history workers ts) = .ok legacy) :
    let n := assignReleases classification.accepted legacy
    (∀ x ∈ n.accepted, x.ant.ordering = contentHash x.ant.content ∧
      ∃ s ∈ site.ants, x.ant.IsFrom s ∧ x.ant.suggestion = s.suggested.getD s.content) ∧
    (∀ x ∈ n.legacy, x.ant.suggestion = x.ant.content ∧
      history x.ant.content = .ok x.ant.createdAt ∧
      ∃ s ∈ site.ants, s.isLegacy = true ∧ x.ant.IsFrom s) ∧
    (∀ s ∈ site.ants, s.isLegacy = true →
      (n.legacy.map fun x => x.ant.content).count s.content = 1) ∧
    (n.accepted.map fun x => x.ant.content).Nodup ∧
    (n.legacy.map fun x => x.ant.content).Nodup := by
  have h : Reconciles site issues mode history ⟨classification, legacy⟩ :=
    .of_pool hclassified hfinished hresolved
  intro n
  have haccepted : n.accepted.map (fun x => x.ant) = classification.accepted :=
    map_ant_accepted
  have hlegacy : n.legacy.map (fun x => x.ant) = legacy := map_ant_legacy
  have hcontents : n.legacy.map (fun x => x.ant.content) = legacy.map fun a => a.content := by
    rw [← hlegacy, List.map_map]
    rfl
  refine ⟨?_, ?_, ?_, ?_, ?_⟩
  · intro x hx
    have hmem : x.ant ∈ classification.accepted := haccepted ▸ List.mem_map_of_mem hx
    obtain ⟨s, hs, createdAt, closedAt, heq⟩ := h.exists_siteAnt hmem
    rw [heq]
    exact ⟨rfl, s, hs, Accepted.isFrom s createdAt closedAt, rfl⟩
  · intro x hx
    have hmem : x.ant ∈ legacy := hlegacy ▸ List.mem_map_of_mem hx
    obtain ⟨s, hs, i, hi, heq⟩ := h.exists_legacyAnt hmem
    obtain ⟨hsite, hflag⟩ := List.mem_filter.mp hs
    rw [heq]
    exact ⟨rfl, hi, s, hsite, hflag, Legacy.isFrom s i⟩
  · intro s hs hflag
    rw [hcontents]
    exact List.count_eq_one_of_mem h.nodup_contents_legacy
      (h.mem_contents_legacy_iff.mpr ⟨s, hs, hflag, rfl⟩)
  · have hnodup := h.nodup_contents_accepted
    rw [← haccepted, List.map_map] at hnodup
    exact hnodup
  · rw [hcontents]
    exact h.nodup_contents_legacy

/-- Three entries share a content, and two of them are flagged. The issue that names a suggestion
comes last, so that its entry is the one accepted, and the last flagged entry is the legacy ant. -/
theorem released_from_site_three_entries :
    let now := Instant.midnight ⟨2020, 1, 1, by decide, by decide, by decide⟩
    let tweeted := ((SiteAnt.plain "a").withSuggestion "b").tweetedOn now
    let site := Site.ofAnts [(SiteAnt.plain "a").markedLegacy.tweetedOn now, tweeted,
      ((SiteAnt.plain "a").withSuggestion "c").markedLegacy]
    let issues := [Issue.closedOn "`a`" now now, Issue.closedOn "`b`" now now]
    let history : String → Except HistoryError Instant := fun _ => .ok now
    let ts := (List.replicate 6 [⟨0, false⟩, ⟨1, false⟩]).flatten
    let accepted := Accepted.ofEntry tweeted.entry now now
    let legacy := Legacy.ofEntry (SiteAnt.plain "a").entry now
    let n := assignReleases [accepted] [legacy]
    classify issues (.ofAnts site.ants) .strict = .ok ⟨[], [], [accepted], 0⟩ ∧
      (site.legacyPool history 2 ts).isFinished = true ∧
      site.legacyOfPool (site.legacyPool history 2 ts) = .ok [legacy] ∧
      (∃ x ∈ n.accepted, ∃ s ∈ site.ants, x.ant.IsFrom s ∧
        x.ant.suggestion = s.suggested.getD s.content) ∧
      (∃ x ∈ n.legacy, ∃ s ∈ site.ants, s.isLegacy = true ∧ x.ant.IsFrom s) ∧
      (n.legacy.map fun x => x.ant.content).count "a" = 1 := by
  intro now tweeted site issues history ts accepted legacy n
  have ha : (Matcher.ofAnts site.ants).lookup "a" =
      some ((SiteAnt.plain "a").withSuggestion "c").entry := by
    rw [Matcher.lookup_ofAnts]
    rfl
  have hb : (Matcher.ofAnts site.ants).lookup "b" = some tweeted.entry := by
    rw [Matcher.lookup_ofAnts]
    rfl
  have hverdicts : issues.map (Verdict.ofIssue (.ofAnts site.ants) .strict) =
      [.accepted (.ofEntry ((SiteAnt.plain "a").withSuggestion "c").entry now now),
        .accepted accepted].map .ok := by
    have hca : (Issue.closedOn "`a`" now now).content? = some "a" := by decide
    have hcb : (Issue.closedOn "`b`" now now).content? = some "b" := by decide
    rw [List.map_cons, List.map_singleton, Verdict.ofIssue_of_closed rfl rfl hca,
      Verdict.ofIssue_of_closed rfl rfl hcb, Verdict.ofClosed, Verdict.ofClosed, ha, hb]
    rfl
  have hclassified : classify issues (.ofAnts site.ants) .strict =
      .ok ⟨[], [], [accepted], 0⟩ := by
    refine classify_eq_ok_iff.mpr ⟨_, hverdicts, ?_⟩
    rw [Classification.ofVerdicts, latestBy_eq]
    rfl
  have hfinished : (site.legacyPool history 2 ts).isFinished = true := by decide
  have hresolved : site.legacyOfPool (site.legacyPool history 2 ts) = .ok [legacy] := by
    rw [Site.legacyOfPool, site.outcome_legacyPool history 2 hfinished]
    unfold legacyOfDated
    simp only [latestBy_eq]
    rfl
  obtain ⟨haccepted, hlegacy, hcount, -, -⟩ :=
    released_from_site hclassified hfinished hresolved
  refine ⟨hclassified, hfinished, hresolved, ?_, ?_, hcount _ List.mem_cons_self rfl⟩
  · have hmem : (⟨accepted, _⟩ : Released Accepted) ∈ n.accepted := List.mem_cons_self
    exact ⟨_, hmem, (haccepted _ hmem).2⟩
  · have hmem : (⟨legacy, _⟩ : Released Legacy) ∈ n.legacy := List.mem_cons_self
    exact ⟨_, hmem, (hlegacy _ hmem).2.2⟩

end AntRegister
