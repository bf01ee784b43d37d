import AntRegister.Proofs.Command.Collection
import AntRegister.Proofs.Integrity.Findings
import AntRegister.Proofs.Reconciliation
import AntRegister.Proofs.Requests
/-! A check of sources that load. Each ant that it finds to be accepted or legacy is on the site, so
that only the listing can be in error. -/

namespace AntRegister

open Integrity

/-- What a check compares: the sources, the ants that are made of them, and the listing. -/
structure Gathered where
  sources : Sources
  classification : Classification
  legacy : List Legacy
  listed : List String

def Gathered.report (g : Gathered) : IntegrityReport :=
  checkIntegrity g.sources.site g.sources.matcher g.classification.accepted g.legacy g.listed

namespace Pipeline

variable (c : Console) (s : Settings) (history : HistoryArguments) (denyErrors : Bool)

def gather : Action Gathered := do
  let sources ← Sources.load c s
  let classification ← sources.classify c s.mode
  let lookups ← history.source c s
  let legacy ← sources.resolveLegacy c s.history.workers lookups
  c.progressOf "check" ("Listing: " ++ s.listing)
  let listed ← loadListing s.listing
  return { sources, classification, legacy, listed }

def conclude (report : IntegrityReport) : Action Unit := do
  showReport c report
  if denyErrors ∧ 0 < report.errors then throw (.integrity report.errors)
  match c.format with
  | .json => pure ()
  | .text =>
    c.blank
    c.success (verdict report)

theorem check_eq : check c s history denyErrors =
    gather c s history >>= fun g => conclude c denyErrors g.report := by
  unfold check gather
  simp only [bind_assoc, pure_bind]
  rfl

theorem outcome_conclude (report : IntegrityReport) (w : World) :
    ((conclude c denyErrors report).run.run w).1 =
      if denyErrors ∧ 0 < report.errors then .error (.integrity report.errors) else .ok () := by
  unfold conclude
  rw [Action.run_ofProgram_bind]
  by_cases hdenied : denyErrors ∧ 0 < report.errors
  · cases c.format <;> (dsimp only; rw [if_pos hdenied, if_pos hdenied]; rfl)
  · cases c.format with
    | json =>
      dsimp only
      rw [if_neg hdenied, if_neg hdenied]
      rfl
    | text =>
      dsimp only
      rw [if_neg hdenied, if_neg hdenied, Action.run_ofProgram_bind, Action.run_ofProgram]

/-- The facts about what a check has gathered that do not depend on the world. -/
structure Fits (mode : Mode) (g : Gathered) : Prop where
  matcher : g.sources.matcher = .ofAnts g.sources.site.ants
  classified : AntRegister.classify g.sources.issues g.sources.matcher mode = .ok g.classification
  dated : g.sources.site.Dated g.legacy

theorem returns_gather :
    (gather c s history).Returns (Fits s.mode) Failure.IsBeforeWriting := by
  refine .bind (returns_loadSources c s) fun sources hmatcher => ?_
  refine .bind (returns_classify c sources s.mode) fun classification hclassified => ?_
  refine .bind (returns_source c history s) fun lookups _ => ?_
  refine .bind (returns_resolveLegacy c sources _ lookups) fun legacy hdated => ?_
  refine .bind (returns_progress c _ _) fun _ _ => ?_
  have hlisting : (loadListing s.listing).Returns (fun _ => True) Failure.IsBeforeWriting :=
    .bind (Document.returns_text _ _) fun _ _ => .pure trivial
  exact .bind hlisting fun listed _ => .pure ⟨hmatcher, hclassified, hdated⟩

end Pipeline

theorem Site.Dated.exists_legacyAnt {site : Site} {legacy : List Legacy} (h : site.Dated legacy)
    {a : Legacy} (ha : a ∈ legacy) : ∃ s ∈ site.legacyAnts, ∃ i, a = .ofEntry s.entry i := by
  obtain ⟨dated, hants, rfl⟩ := h
  obtain ⟨d, hd, rfl⟩ := exists_of_mem_legacyOfDated ha
  exact ⟨d.1, hants ▸ List.mem_map_of_mem hd, d.2, rfl⟩

theorem Site.Dated.exists_content {site : Site} {legacy : List Legacy} (h : site.Dated legacy)
    {a : SiteAnt} (ha : a ∈ site.legacyAnts) : ∃ l ∈ legacy, l.content = a.content := by
  obtain ⟨dated, hants, rfl⟩ := h
  rw [← hants, List.mem_map] at ha
  obtain ⟨d, hd, rfl⟩ := ha
  rw [← List.mem_map, map_content_legacyOfDated, List.mem_eraseDups]
  exact List.mem_map_of_mem hd

namespace Pipeline.Fits

variable {mode : Mode} {g : Gathered}

theorem exists_siteAnt (h : Fits mode g) {a : Accepted} (ha : a ∈ g.classification.accepted) :
    ∃ s ∈ g.sources.site.ants, ∃ createdAt closedAt, a = .ofEntry s.entry createdAt closedAt :=
  exists_siteAnt_of_mem_accepted (h.matcher ▸ h.classified) ha

theorem contains_accepted (h : Fits mode g) {a : Accepted} (ha : a ∈ g.classification.accepted) :
    g.sources.matcher.contains a.content = true := by
  obtain ⟨s, hs, createdAt, closedAt, rfl⟩ := h.exists_siteAnt ha
  rw [h.matcher]
  exact Matcher.contains_content hs

theorem contains_legacy (h : Fits mode g) {a : Legacy} (ha : a ∈ g.legacy) :
    g.sources.matcher.contains a.content = true ∧
      g.sources.matcher.contains a.suggestion = true := by
  obtain ⟨s, hs, i, rfl⟩ := h.dated.exists_legacyAnt ha
  rw [h.matcher]
  have hfound := Matcher.contains_content (List.mem_of_mem_filter hs)
  exact ⟨hfound, hfound⟩

/-- Only the listing can be in error, and only a content that is not flagged can be unaccounted
for. -/
theorem mem_findings_cases (h : Fits mode g) {f : Finding} (hf : f ∈ g.report.findings) :
    f ∈ listedFindings g.sources.matcher g.classification.accepted g.legacy g.listed ∨
      (∃ a ∈ g.classification.accepted, f = .acceptedNotListed a.content a.suggestion) ∨
      ∃ content, (∀ a ∈ g.sources.site.legacyAnts, a.content ≠ content) ∧
        f = .unaccounted content := by
  have haccepted := acceptedFindings_eq_nil fun a ha => h.contains_accepted ha
  have hlegacy := legacyFindings_eq_nil fun a ha => h.contains_legacy ha
  unfold Gathered.report checkIntegrity at hf
  dsimp only at hf
  rw [haccepted, hlegacy, List.append_nil, List.append_nil] at hf
  rcases List.mem_append.mp hf with hf | hf
  · rcases List.mem_append.mp hf with hf | hf
    · exact .inl hf
    · exact .inr (.inl (exists_of_mem_unlisted hf))
  · obtain ⟨a, -, hleft, rfl⟩ := exists_of_mem_unaccounted hf
    refine .inr (.inr ⟨_, fun b hb hcontent => hleft ?_, rfl⟩)
    -- a flagged content is that of a legacy ant, which accounts for it
    obtain ⟨l, hl, hlegacy⟩ := h.dated.exists_content hb
    rw [← hcontent, ← hlegacy]
    exact mem_accountedFor_of_legacy hl (h.contains_legacy hl).1

theorem errors_pos_iff (h : Fits mode g) : 0 < g.report.errors ↔
    ∃ entry ∈ g.listed, (∀ a ∈ g.sources.site.ants, a.content ≠ entry ∧ a.suggested ≠ some entry) ∨
      ¬Known g.classification.accepted g.legacy entry := by
  simp only [← Matcher.lookup_eq_none_iff, ← h.matcher]
  rw [IntegrityReport.errors, List.countP_pos_iff]
  constructor
  · rintro ⟨f, hf, herror⟩
    have hseverity : f.severity = .error := of_decide_eq_true herror
    rcases h.mem_findings_cases hf with hlisted | ⟨a, -, rfl⟩ | ⟨content, -, rfl⟩
    · obtain ⟨entry, hentry, ⟨hsite, -⟩ | ⟨-, hknown, -⟩⟩ := mem_listedFindings_iff.mp hlisted
      · exact ⟨entry, hentry, .inl hsite⟩
      · exact ⟨entry, hentry, .inr hknown⟩
    · cases hseverity
    · cases hseverity
  · rintro ⟨entry, hentry, hwrong⟩
    obtain ⟨f, hf⟩ : ∃ f, f ∈ listedFindings g.sources.matcher g.classification.accepted g.legacy
        g.listed := by
      by_cases hsite : g.sources.matcher.lookup entry = none
      · exact ⟨_, mem_listedFindings_iff.mpr ⟨entry, hentry, .inl ⟨hsite, rfl⟩⟩⟩
      · have hknown := hwrong.resolve_left hsite
        exact ⟨_, mem_listedFindings_iff.mpr ⟨entry, hentry, .inr ⟨hsite, hknown, rfl⟩⟩⟩
    refine ⟨f, ?_, decide_eq_true (severity_of_mem_listed hf)⟩
    simp only [Gathered.report, checkIntegrity, List.mem_append, hf, true_or]

end Pipeline.Fits

/-- Once a check has gathered all that it compares, no finding says that an accepted or a legacy ant
is not on the site, and none that a flagged ant is unaccounted for. If errors are denied it fails
exactly for the listing: for an entry that is no site ant's content or suggestion, or that belongs
to no accepted and no legacy ant. -/
theorem check_denies_iff {c : Console} {s : Settings} {history : HistoryArguments} {w : World}
    {g : Gathered} (h : ((Pipeline.gather c s history).run.run w).1 = .ok g) :
    (∀ f ∈ g.report.findings, ∀ content, f ≠ .acceptedNotOnSite content ∧
      f ≠ .legacyNotOnSite content ∧ f ≠ .legacySuggestionNotOnSite content) ∧
    (∀ a ∈ g.sources.site.ants, a.isLegacy = true →
      .unaccounted a.content ∉ g.report.findings) ∧
    ((∃ e, ((Pipeline.check c s history true).run.run w).1 = .error e) ↔
      ∃ entry ∈ g.listed,
        (∀ a ∈ g.sources.site.ants, a.content ≠ entry ∧ a.suggested ≠ some entry) ∨
          ¬Known g.classification.accepted g.legacy entry) := by
  have hfits : Pipeline.Fits s.mode g := (Pipeline.returns_gather c s history).of_ok h
  refine ⟨fun f hf content => ?_, fun a ha hflag hf => ?_, ?_⟩
  · rcases hfits.mem_findings_cases hf with hlisted | ⟨a, -, rfl⟩ | ⟨content, -, rfl⟩
    · obtain ⟨entry, -, ⟨-, rfl⟩ | ⟨-, -, rfl⟩⟩ := mem_listedFindings_iff.mp hlisted <;> simp
    · simp
    · simp
  · rcases hfits.mem_findings_cases hf with hlisted | ⟨b, -, hb⟩ | ⟨content, hplain, hb⟩
    · obtain ⟨entry, -, ⟨-, he⟩ | ⟨-, -, he⟩⟩ := mem_listedFindings_iff.mp hlisted <;> cases he
    · cases hb
    · exact hplain a (List.mem_filter.mpr ⟨ha, hflag⟩) (Finding.unaccounted.inj hb)
  · rw [← hfits.errors_pos_iff, Pipeline.check_eq, Action.run_bind_of_ok h,
      Pipeline.outcome_conclude]
    by_cases herrors : 0 < g.report.errors <;> simp [herrors]

/-- The first entry is a flagged ant and the second an ant that nothing accounts for. The third is
not on the site. -/
theorem check_denies_iff_three_entries :
    let site := Site.ofAnts [((SiteAnt.plain "a").withSuggestion "b").markedLegacy, .plain "c"]
    let disk : Disk := .ofNodes [
      (["site"], .file "\x7b\"ants\":[[\"a\",\"b\",true],[\"c\"]]\x7d".toUTF8),
      (["issues"], .file "[]".toUTF8), (["listing"], .file "a\nc\nd\n".toUTF8)]
    let w : World := { World.start disk [] with
      log := fun _ => .ended (.code 0) "2020-01-01T00:00:00Z".toUTF8 .empty }
    let s : Settings := { Settings.default with
      siteData := "site", issueExport := "issues", listing := "listing" }
    let history : HistoryArguments := ⟨none, none, none, none⟩
    ∃ g, ((Pipeline.gather ⟨.text, false⟩ s history).run.run w).1 = .ok g ∧
      g.sources.site = site ∧ g.listed = ["a", "c", "d"] ∧
      .unaccounted "a" ∉ g.report.findings ∧
      ∃ e, ((Pipeline.check ⟨.text, false⟩ s history true).run.run w).1 = .error e := by
  intro site disk w s history
  have hgathered : (((Pipeline.gather ⟨.text, false⟩ s history).run.run w).1.map fun g =>
      (g.sources.site, g.listed)) = .ok (site, ["a", "c", "d"]) := by decide +kernel
  cases hrun : ((Pipeline.gather ⟨.text, false⟩ s history).run.run w).1 with
  | error e =>
    rw [hrun] at hgathered
    cases hgathered
  | ok g =>
    rw [hrun] at hgathered
    obtain ⟨hsite, hlisted⟩ := Prod.mk.inj (Except.ok.inj hgathered)
    obtain ⟨-, hflagged, hdenied⟩ := check_denies_iff hrun
    have hants : g.sources.site.ants = site.ants := by rw [hsite]
    have hfirst := hflagged ((SiteAnt.plain "a").withSuggestion "b").markedLegacy
      (hants ▸ List.mem_cons_self) rfl
    refine ⟨g, rfl, hsite, hlisted, hfirst, hdenied.mpr ?_⟩
    refine ⟨"d", hlisted ▸ by decide, .inl ?_⟩
    rw [hants]
    decide

end AntRegister
