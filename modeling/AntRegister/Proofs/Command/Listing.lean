import AntRegister.Proofs.Command.Checking
/-! What a check says of a listed ant that is on the site. An entry of the listing may name its ant
by content or by suggestion. Only the suggestions of accepted ants are recognized, so that a legacy
ant is reported if it is listed by its suggestion, and so is an accepted one whose content stands
in the site data twice, with two suggestions. -/

namespace AntRegister

open Integrity

namespace Pipeline.Fits

variable {mode : Mode} {g : Gathered} {entry : String}

theorem listedNeedsSuggested_mem_iff (h : Fits mode g) :
    .listedNeedsSuggested entry ∈ g.report.findings ↔ entry ∈ g.listed ∧
      g.sources.matcher.lookup entry ≠ none ∧
      ¬Known g.classification.accepted g.legacy entry := by
  constructor
  · intro hmem
    rcases h.mem_findings_cases hmem with hlisted | ⟨a, -, ha⟩ | ⟨content, -, hc⟩
    · obtain ⟨other, hother, ⟨-, hf⟩ | ⟨hsite, hknown, hf⟩⟩ := mem_listedFindings_iff.mp hlisted
      · cases hf
      · obtain rfl := Finding.listedNeedsSuggested.inj hf
        exact ⟨hother, hsite, hknown⟩
    · cases ha
    · cases hc
  · rintro ⟨hlisted, hsite, hknown⟩
    have hmem := mem_listedFindings_iff.mpr ⟨entry, hlisted, .inr ⟨hsite, hknown, rfl⟩⟩
    simp only [Gathered.report, checkIntegrity, List.mem_append, hmem, true_or]

theorem not_known_iff {content : String} :
    ¬Known g.classification.accepted g.legacy content ↔
      (∀ a ∈ g.classification.accepted, a.content ≠ content ∧ a.suggestion ≠ content) ∧
        ∀ a ∈ g.legacy, a.content ≠ content := by
  simp only [Known, not_or, not_exists, not_and, ne_eq]

/-- A text that only was suggested is no content of any ant. -/
theorem not_known_suggestion_iff (h : Fits mode g) {e : SiteEntry}
    (hlookup : g.sources.matcher.lookup entry = some e) (hne : e.content ≠ entry) :
    ¬Known g.classification.accepted g.legacy entry ↔
      ∀ a ∈ g.classification.accepted, a.suggestion ≠ entry := by
  rw [h.matcher] at hlookup
  have hnone : ∀ s ∈ g.sources.site.ants, s.content ≠ entry :=
    fun s hs hcontent => hne (Matcher.content_eq_of_lookup hlookup hs hcontent)
  rw [not_known_iff]
  constructor
  · intro hunknown a ha
    exact (hunknown.1 a ha).2
  · intro hunknown
    refine ⟨fun a ha => ⟨?_, hunknown a ha⟩, fun a ha => ?_⟩
    · obtain ⟨s, hs, createdAt, closedAt, rfl⟩ := h.exists_siteAnt ha
      exact hnone s hs
    · obtain ⟨s, hs, i, rfl⟩ := h.dated.exists_legacyAnt ha
      exact hnone s (List.mem_of_mem_filter hs)

end Pipeline.Fits

/-- No text of an accepted ant and no content of a legacy one is reported. A listed ant is reported,
if it is listed by its content, when this is that of no accepted and no legacy ant nor what an
accepted one was suggested as; if it is listed by its suggestion, when no accepted ant has just
this suggestion, whether or not the ant is legacy. Where its content stands in the site data once,
an ant that is reported is not accepted. -/
theorem listedNeedsSuggested_by_route {c : Console} {s : Settings} {history : HistoryArguments}
    {w : World} {g : Gathered} (h : ((Pipeline.gather c s history).run.run w).1 = .ok g) :
    let accepted := g.classification.accepted
    let reported (entry : String) := Finding.listedNeedsSuggested entry ∈ g.report.findings
    (∀ a ∈ accepted, ¬reported a.content ∧ ¬reported a.suggestion) ∧
    (∀ a ∈ g.legacy, ¬reported a.content) ∧
    ∀ entry e, g.sources.matcher.lookup entry = some e →
      (e.content = entry → (reported entry ↔ entry ∈ g.listed ∧
        (∀ a ∈ accepted, a.content ≠ e.content ∧ a.suggestion ≠ e.content) ∧
          ∀ a ∈ g.legacy, a.content ≠ e.content)) ∧
      (e.content ≠ entry → e.suggestion = entry ∧
        (reported entry ↔ entry ∈ g.listed ∧ ∀ a ∈ accepted, a.suggestion ≠ entry)) ∧
      ((∀ s ∈ g.sources.site.ants, s.content = e.content → s.entry = e) → reported entry →
        ∀ a ∈ accepted, a.content ≠ e.content) := by
  have hfits : Pipeline.Fits s.mode g := (Pipeline.returns_gather c s history).of_ok h
  intro accepted reported
  have hreported : ∀ entry, reported entry ↔ entry ∈ g.listed ∧
      g.sources.matcher.lookup entry ≠ none ∧ ¬Known accepted g.legacy entry :=
    fun entry => hfits.listedNeedsSuggested_mem_iff
  have hknown : ∀ entry, Known accepted g.legacy entry → ¬reported entry :=
    fun entry hentry hmem => ((hreported entry).mp hmem).2.2 hentry
  refine ⟨fun a ha => ⟨hknown _ (.inl ⟨a, ha, .inl rfl⟩), hknown _ (.inl ⟨a, ha, .inr rfl⟩)⟩,
    fun a ha => hknown _ (.inr ⟨a, ha, rfl⟩), fun entry e hlookup => ⟨?_, ?_, ?_⟩⟩
  · rintro rfl
    rw [hreported, Pipeline.Fits.not_known_iff, hlookup]
    simp only [ne_eq, reduceCtorEq, not_false_eq_true, true_and, accepted]
  · intro hne
    rw [hreported, hfits.not_known_suggestion_iff hlookup hne, hlookup]
    rw [hfits.matcher] at hlookup
    refine ⟨Matcher.suggestion_eq_of_lookup hlookup hne, ?_⟩
    simp only [ne_eq, reduceCtorEq, not_false_eq_true, true_and, accepted]
  · intro honce hmem a ha hcontent
    -- the accepted ant has the texts of the only entry with its content
    obtain ⟨ant, hant, createdAt, closedAt, rfl⟩ := hfits.exists_siteAnt ha
    obtain rfl := honce ant hant hcontent
    refine hknown entry (.inl ⟨_, ha, ?_⟩) hmem
    by_cases hroute : ant.entry.content = entry
    · exact .inl hroute
    · rw [hfits.matcher] at hlookup
      exact .inr (Matcher.suggestion_eq_of_lookup hlookup hroute)

theorem Pipeline.exists_of_gather {c : Console} {s : Settings} {history : HistoryArguments}
    {w : World} {site : Site} {issues : List Issue} {listed : List String}
    (hrun : ((Pipeline.gather c s history).run.run w).1.map
      (fun g => (g.sources.site, g.sources.issues, g.listed)) = .ok (site, issues, listed)) :
    ∃ g, ((Pipeline.gather c s history).run.run w).1 = .ok g ∧ Pipeline.Fits s.mode g ∧
      g.sources.site = site ∧ g.sources.issues = issues ∧ g.listed = listed := by
  cases hgathered : ((Pipeline.gather c s history).run.run w).1 with
  | error e =>
    rw [hgathered] at hrun
    cases hrun
  | ok g =>
    rw [hgathered] at hrun
    obtain ⟨hsite, hrest⟩ := Prod.mk.inj (Except.ok.inj hrun)
    obtain ⟨hissues, hlisted⟩ := Prod.mk.inj hrest
    exact ⟨g, rfl, (returns_gather c s history).of_ok hgathered, hsite, hissues, hlisted⟩

/-- An accepted ant stands in the site data twice, and is listed by its content and by both
suggestions. The suggestion that no issue names is reported. -/
theorem listedNeedsSuggested_by_route_repeated :
    let siteText := "\x7b\"ants\":[[\"a\",\"b\"],[\"a\",\"c\"]]\x7d"
    let exportText := "[[\"`c`\",\"CLOSED\",\"2020-01-01T00:00:00Z\",true," ++
      "\"2020-01-01T00:00:00Z\"]]"
    let disk : Disk := .ofNodes [(["site"], .file siteText.toUTF8),
      (["issues"], .file exportText.toUTF8), (["listing"], .file "a\nb\nc\n".toUTF8)]
    let s : Settings := { Settings.default with
      siteData := "site", issueExport := "issues", listing := "listing" }
    ∃ g, ((Pipeline.gather ⟨.text, false⟩ s ⟨none, none, none, none⟩).run.run
        (.start disk [])).1 = .ok g ∧
      (∃ a ∈ g.classification.accepted, a.content = "a" ∧ a.suggestion = "c") ∧
      .listedNeedsSuggested "b" ∈ g.report.findings ∧
      .listedNeedsSuggested "a" ∉ g.report.findings ∧
      .listedNeedsSuggested "c" ∉ g.report.findings := by
  intro siteText exportText disk s
  let now := Calendar.Instant.midnight ⟨2020, 1, 1, by decide, by decide, by decide⟩
  let first := (SiteAnt.plain "a").withSuggestion "b"
  let second := (SiteAnt.plain "a").withSuggestion "c"
  have hrun : ((Pipeline.gather ⟨.text, false⟩ s ⟨none, none, none, none⟩).run.run
      (.start disk [])).1.map (fun g => (g.sources.site, g.sources.issues, g.listed)) =
        .ok (.ofAnts [first, second], [.closedOn "`c`" now now], ["a", "b", "c"]) := by
    decide +kernel
  obtain ⟨g, hg, hfits, hsite, hissues, hlisted⟩ := Pipeline.exists_of_gather hrun
  have hmatcher : g.sources.matcher = .ofAnts [first, second] := by rw [hfits.matcher, hsite]; rfl
  have hb : g.sources.matcher.lookup "b" = some first.entry := by
    rw [hmatcher, Matcher.lookup_ofAnts]
    rfl
  have hc : g.sources.matcher.lookup "c" = some second.entry := by
    rw [hmatcher, Matcher.lookup_ofAnts]
    rfl
  have haccepted : g.classification.accepted = [.ofEntry second.entry now now] := by
    have hsettled : (Issue.closedOn "`c`" now now).settled? = some ⟨"c", now, now⟩ :=
      Issue.settled?_eq_some rfl rfl (by decide)
    rw [accepted_eq hfits.classified, hissues, Matcher.hits_singleton hsettled hc]
    exact latestBy_singleton _ _
  obtain ⟨hknown, -, hroutes⟩ := listedNeedsSuggested_by_route hg
  rw [haccepted] at hknown hroutes
  obtain ⟨ha, hsuggestion⟩ := hknown _ List.mem_cons_self
  obtain ⟨-, hreported⟩ := (hroutes "b" _ hb).2.1 (by decide)
  refine ⟨g, hg, ⟨_, haccepted ▸ List.mem_cons_self, rfl, rfl⟩, hreported.mpr ⟨?_, ?_⟩, ha,
    hsuggestion⟩
  · rw [hlisted]
    decide
  · decide

/-- A legacy ant is listed by its content and by its suggestion, and the suggestion is reported. -/
theorem listedNeedsSuggested_legacy :
    let siteText := "\x7b\"ants\":[[\"a\",\"b\",true]]\x7d"
    let disk : Disk := .ofNodes [(["site"], .file siteText.toUTF8), (["issues"], .file "[]".toUTF8),
      (["listing"], .file "a\nb\n".toUTF8)]
    let w : World := { World.start disk [] with
      log := fun _ => .ended (.code 0) "2020-01-01T00:00:00Z".toUTF8 .empty }
    let s : Settings := { Settings.default with
      siteData := "site", issueExport := "issues", listing := "listing" }
    ∃ g e, ((Pipeline.gather ⟨.text, false⟩ s ⟨none, none, none, none⟩).run.run w).1 = .ok g ∧
      g.listed = ["a", "b"] ∧ g.sources.matcher.lookup "b" = some e ∧
      e.content ∈ g.legacy.map (fun a => a.content) ∧
      .listedNeedsSuggested "b" ∈ g.report.findings ∧
      .listedNeedsSuggested "a" ∉ g.report.findings := by
  intro siteText disk w s
  let ant := ((SiteAnt.plain "a").withSuggestion "b").markedLegacy
  have hrun : ((Pipeline.gather ⟨.text, false⟩ s ⟨none, none, none, none⟩).run.run w).1.map
      (fun g => (g.sources.site, g.sources.issues, g.listed)) =
        .ok (.ofAnts [ant], [], ["a", "b"]) := by
    decide +kernel
  obtain ⟨g, hg, hfits, hsite, hissues, hlisted⟩ := Pipeline.exists_of_gather hrun
  have hb : g.sources.matcher.lookup "b" = some ant.entry := by
    rw [hfits.matcher, hsite, Matcher.lookup_ofAnts]
    rfl
  have haccepted : g.classification.accepted = [] := by
    rw [accepted_eq hfits.classified, hissues]
    rfl
  have hflagged : ant ∈ g.sources.site.legacyAnts := hsite ▸ List.mem_cons_self
  obtain ⟨l, hl, hcontent⟩ := hfits.dated.exists_content hflagged
  refine ⟨g, ant.entry, hg, hlisted, hb, List.mem_map.mpr ⟨l, hl, hcontent⟩, ?_, ?_⟩
  · have hsuggested : ant.entry.content ≠ "b" := by decide
    have hmem : "b" ∈ g.listed := by
      rw [hlisted]
      decide
    have hfound : g.sources.matcher.lookup "b" ≠ none := by
      rw [hb]
      exact Option.some_ne_none _
    refine hfits.listedNeedsSuggested_mem_iff.mpr ⟨hmem, hfound, ?_⟩
    rw [hfits.not_known_suggestion_iff hb hsuggested, haccepted]
    exact List.forall_mem_nil _
  · intro hmem
    exact (hfits.listedNeedsSuggested_mem_iff.mp hmem).2.2 (.inr ⟨l, hl, hcontent⟩)

end AntRegister
