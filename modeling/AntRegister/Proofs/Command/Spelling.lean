import AntRegister.Proofs.Classification.Modes
import AntRegister.Proofs.Classification.Partition
import AntRegister.Proofs.Disk.Files
import AntRegister.Proofs.Readings
import AntRegister.Proofs.Title.Apostrophes
/-! How a suggestion is spelled in the two documents. Apostrophes are written plain in the titles of
issues and left as they are in the site data, so that an issue finds its ant only by the plain
spelling, and no issue finds an ant that the site spells with a typographic apostrophe. -/

namespace AntRegister

open Calendar (Instant)

/-- Whether a text is the content of an ant of the site, or what it was suggested as. -/
def Site.Has (site : Site) (text : String) : Prop :=
  ∃ s ∈ site.ants, s.content = text ∨ s.suggested = some text

theorem Site.has_iff {site : Site} {text : String} :
    site.Has text ↔ (Matcher.ofAnts site.ants).lookup text ≠ none := by
  rw [ne_eq, Matcher.lookup_eq_none_iff, Has]
  push Not
  simp only [or_iff_not_imp_left, ne_eq]

section

variable {site : Site} {issues : List Issue} {mode : Mode} {found : Classification} {i : Issue}
  {d : Declined}

/-- A settled suggestion that the site has is accepted as the ant that it finds. -/
theorem exists_accepted_of_settled
    (h : classify issues (.ofAnts site.ants) mode = .ok found) (hi : i ∈ issues)
    (hsettled : i.settled? = some d) (hsite : site.Has d.suggestion) :
    ∃ a ∈ found.accepted, ∃ s ∈ site.ants,
      (s.content = d.suggestion ∨ s.suggested = some d.suggestion) ∧ a.content = s.content := by
  obtain ⟨e, he⟩ := Option.ne_none_iff_exists'.mp (Site.has_iff.mp hsite)
  have hhit : Accepted.ofEntry e d.createdAt d.closedAt ∈
      (Matcher.ofAnts site.ants).hits issues := by
    refine List.mem_filterMap.mpr ⟨i, hi, ?_⟩
    rw [hsettled, Option.bind_some, Matcher.hit?, he]
    rfl
  have hcontent : e.content ∈ found.accepted.map fun a => a.content := by
    rw [contents_accepted h, List.mem_eraseDups]
    exact List.mem_map_of_mem hhit
  obtain ⟨a, ha, hsame⟩ := List.mem_map.mp hcontent
  obtain ⟨s, hs, rfl, hname⟩ := Matcher.exists_of_lookup he
  exact ⟨a, ha, s, hs, hname, hsame⟩

theorem suggestion_ne_of_has (h : classify issues (.ofAnts site.ants) mode = .ok found)
    {text : String} (hsite : site.Has text) : ∀ d ∈ found.declined, d.suggestion ≠ text := by
  rintro d hd rfl
  exact Site.has_iff.mp hsite (lookup_of_mem_declined h hd)

theorem mem_declined_of_settled (h : classify issues (.ofAnts site.ants) mode = .ok found)
    (hi : i ∈ issues) (hsettled : i.settled? = some d) (hsite : ¬site.Has d.suggestion) :
    d ∈ found.declined := by
  rw [declined_eq h, List.mem_filter]
  refine ⟨List.mem_filterMap.mpr ⟨i, hi, hsettled⟩, ?_⟩
  rw [Option.isNone_iff_eq_none]
  exact not_not.mp fun hne => hsite (Site.has_iff.mpr hne)

end

/-- A closed and dated issue is accepted if the site has what the export says, with its apostrophes
written plain, and then nothing that reads so is declined. If the site does not have it so, the
issue is declined, even if the site has just what the export says. A suggestion without
typographic apostrophes is its own plain spelling, and what the issues say contains none. -/
theorem settled_by_plain_spelling {c : Console} {s : Settings} {w : World} {sources : Sources}
    (h : ((Sources.load c s).run.run w).1 = .ok sources) :
    ∃ exported, sources.AreFrom w s exported ∧
      ∀ mode found, classify sources.issues sources.matcher mode = .ok found →
      ∀ i ∈ exported, ∀ text closedAt, i.closed = true → i.closedAt = some closedAt →
        i.content? = some text →
        let plain := Title.plainApostrophes text
        (sources.site.Has plain → (∃ a ∈ found.accepted, ∃ ant ∈ sources.site.ants,
            (ant.content = plain ∨ ant.suggested = some plain) ∧ a.content = ant.content) ∧
          ∀ d ∈ found.declined, d.suggestion ≠ plain) ∧
        (¬sources.site.Has plain → ⟨plain, i.createdAt, closedAt⟩ ∈ found.declined) ∧
        ('\u2019' ∉ text.toList → plain = text) ∧ '\u2019' ∉ plain.toList := by
  obtain ⟨exported, hfrom⟩ := (Pipeline.finds_loadSources c s).of_ok h
  refine ⟨exported, hfrom, fun mode found hfound i hi text closedAt hclosed hdate hcontent => ?_⟩
  intro plain
  rw [hfrom.matcher] at hfound
  have hmem : i.plain ∈ sources.issues := hfrom.issues ▸ List.mem_map_of_mem hi
  have hplain : i.plain.content? = some plain := by
    rw [i.content?_plain, hcontent]
    rfl
  have hsettled : i.plain.settled? = some ⟨plain, i.createdAt, closedAt⟩ :=
    Issue.settled?_eq_some hclosed hdate hplain
  refine ⟨fun hsite => ⟨?_, suggestion_ne_of_has hfound hsite⟩, fun hsite => ?_,
    Title.plainApostrophes_eq_self, Title.not_mem_plainApostrophes text⟩
  · exact exists_accepted_of_settled hfound hmem hsettled hsite
  · exact mem_declined_of_settled hfound hmem hsettled hsite

/-- The site has a suggestion plain that the export has with a typographic apostrophe. -/
theorem settled_by_plain_spelling_suggested :
    let now := Instant.midnight ⟨2020, 1, 1, by decide, by decide, by decide⟩
    let siteText := "\x7b\"ants\":[[\"a\",\"it's\"]]\x7d"
    let exportText := "[[\"`it\\u2019s`\",\"CLOSED\",\"2020-01-01T00:00:00Z\",true," ++
      "\"2020-01-01T00:00:00Z\"]]"
    let disk : Disk :=
      .ofNodes [(["site"], .file siteText.toUTF8), (["issues"], .file exportText.toUTF8)]
    let w : World := .start disk []
    let s : Settings := { Settings.default with siteData := "site", issueExport := "issues" }
    let i := Issue.closedOn "`it\u2019s`" now now
    ∃ sources found, ((Sources.load ⟨.text, false⟩ s).run.run w).1 = .ok sources ∧
      sources.AreFrom w s [i] ∧ classify sources.issues sources.matcher .lenient = .ok found ∧
      i.content? = some "it\u2019s" ∧
      (∃ a ∈ found.accepted, a.content = "a") ∧ ∀ d ∈ found.declined, d.suggestion ≠ "it's" := by
  intro now siteText exportText disk w s i
  have hsite : ((Sources.load ⟨.text, false⟩ s).run.run w).1.map Sources.site =
      .ok (.ofAnts [(SiteAnt.plain "a").withSuggestion "it's"]) := by decide +kernel
  have hexport : w.Holds s.issueExport (Json.asList? Issue.ofJson?) [i] :=
    ⟨exportText, Disk.readText_of_find? (l := ["issues"]) (by decide) rfl, by decide +kernel⟩
  have hcontent : i.content? = some "it\u2019s" := by decide +kernel
  obtain ⟨sources, hload, hfrom, hants⟩ := Sources.exists_of_load hsite hexport
  obtain ⟨found, hfound⟩ := exists_classify_lenient sources.issues sources.matcher
  obtain ⟨exported, hfrom', hsettled⟩ := settled_by_plain_spelling hload
  obtain rfl := hfrom'.issueExport.unique hexport
  obtain ⟨haccepted, -, -⟩ :=
    hsettled .lenient found hfound i List.mem_cons_self _ now rfl rfl hcontent
  have hplain : Title.plainApostrophes "it\u2019s" = "it's" := by decide +kernel
  rw [hplain, hants] at haccepted
  obtain ⟨⟨a, ha, ant, hant, -, hsame⟩, hdeclined⟩ :=
    haccepted ⟨_, List.mem_cons_self, .inr rfl⟩
  obtain rfl := List.mem_singleton.mp hant
  exact ⟨sources, found, hload, hfrom, hfound, hcontent, ⟨a, ha, hsame⟩, hdeclined⟩

/-- The site and the export have a suggestion letter for letter alike, and it is declined. -/
theorem settled_declined_on_site :
    let now := Instant.midnight ⟨2020, 1, 1, by decide, by decide, by decide⟩
    let siteText := "\x7b\"ants\":[[\"it\\u2019s\"]]\x7d"
    let exportText := "[[\"`it\\u2019s`\",\"CLOSED\",\"2020-01-01T00:00:00Z\",true," ++
      "\"2020-01-01T00:00:00Z\"]]"
    let disk : Disk :=
      .ofNodes [(["site"], .file siteText.toUTF8), (["issues"], .file exportText.toUTF8)]
    let w : World := .start disk []
    let s : Settings := { Settings.default with siteData := "site", issueExport := "issues" }
    let i := Issue.closedOn "`it\u2019s`" now now
    ∃ sources, ((Sources.load ⟨.text, false⟩ s).run.run w).1 = .ok sources ∧
      sources.AreFrom w s [i] ∧ i.content? = some "it\u2019s" ∧ sources.site.Has "it\u2019s" ∧
      ∀ mode, classify sources.issues sources.matcher mode =
        .ok ⟨[], [⟨"it's", now, now⟩], [], 0⟩ := by
  intro now siteText exportText disk w s i
  have hsite : ((Sources.load ⟨.text, false⟩ s).run.run w).1.map Sources.site =
      .ok (.ofAnts [.plain "it\u2019s"]) := by decide +kernel
  have hexport : w.Holds s.issueExport (Json.asList? Issue.ofJson?) [i] :=
    ⟨exportText, Disk.readText_of_find? (l := ["issues"]) (by decide) rfl, by decide +kernel⟩
  obtain ⟨sources, hload, hfrom, hants⟩ := Sources.exists_of_load hsite hexport
  have hhas : sources.site.Has "it\u2019s" := hants ▸ ⟨_, List.mem_cons_self, .inl rfl⟩
  refine ⟨sources, hload, hfrom, by decide +kernel, hhas, fun mode => ?_⟩
  have hlookup : sources.matcher.lookup "it's" = none := by
    rw [hfrom.matcher, hants, Matcher.lookup_ofAnts]
    rfl
  have hsettled : i.plain.settled? = some ⟨"it's", now, now⟩ :=
    Issue.settled?_eq_some rfl rfl (by decide +kernel)
  refine classify_eq_ok_iff.mpr ⟨[.declined ⟨"it's", now, now⟩], ?_, rfl⟩
  rw [hfrom.issues, List.map_singleton, List.map_singleton, Verdict.ofIssue_of_settled hsettled,
    Verdict.ofClosed, hlookup]
  rfl

end AntRegister
