import AntRegister.Proofs.Provenance
import AntRegister.Proofs.Sql.Rows
/-! Ants that are accepted and legacy at once. Nothing rules them out: a content that is flagged as
legacy may be hit by an issue too. A script then releases it twice, and in two releases unless both
dates are of one day. -/

namespace AntRegister

open Sql

theorem column_antContents_seed (r : Reconciliation) (o : Options) :
    column (r.seed o).inserts .antRelease "ant_content" =
      (r.classification.accepted.map (fun a => a.content) ++
        r.legacy.map fun a => a.content).map fun s => some (literal s) := by
  have hcontents : (r.numbered.records.map fun x => x.ant.content) =
      r.classification.accepted.map (fun a => a.content) ++ r.legacy.map fun a => a.content :=
    map_records fun a => a.content
  rw [Reconciliation.seed, column_antContents, ← hcontents, List.map_map]
  rfl

theorem someLiteral_injective : Function.Injective fun s => some (literal s) :=
  (Option.some_injective _).comp literal_injective

namespace Reconciles

variable {site : Site} {issues : List Issue} {mode : Mode}
  {history : String → Except HistoryError Calendar.Instant} {r : Reconciliation}

theorem mem_contents_accepted_iff (h : Reconciles site issues mode history r) {content : String} :
    content ∈ r.classification.accepted.map (fun a => a.content) ↔
      ∃ a ∈ (Matcher.ofAnts site.ants).hits issues, a.content = content := by
  rw [contents_accepted h.classified, List.mem_eraseDups, List.mem_map]

theorem nodup_contents_iff (h : Reconciles site issues mode history r) :
    (r.classification.accepted.map (fun a => a.content) ++
        r.legacy.map fun a => a.content).Nodup ↔
      ∀ content ∈ r.classification.accepted.map (fun a => a.content),
        content ∉ r.legacy.map fun a => a.content := by
  rw [List.nodup_append]
  constructor
  · rintro ⟨-, -, hdiff⟩ content haccepted hlegacy
    exact hdiff content haccepted content hlegacy rfl
  · intro hdiff
    refine ⟨h.nodup_contents_accepted, h.nodup_contents_legacy, ?_⟩
    rintro content haccepted _ hlegacy rfl
    exact hdiff content haccepted hlegacy

theorem count_contents_le (h : Reconciles site issues mode history r) (content : String) :
    (r.classification.accepted.map (fun a => a.content) ++
        r.legacy.map fun a => a.content).count content ≤ 2 := by
  have haccepted := List.nodup_iff_count_le_one.mp h.nodup_contents_accepted content
  have hlegacy := List.nodup_iff_count_le_one.mp h.nodup_contents_legacy content
  rw [List.count_append]
  omega

/-- A content is in one release, unless it is that of an accepted and a legacy ant of two days. -/
theorem one_release_iff (h : Reconciles site issues mode history r) :
    (∀ x ∈ r.numbered.records, ∀ y ∈ r.numbered.records, x.ant.content = y.ant.content →
        x.release = y.release) ↔
      ∀ a ∈ r.classification.accepted, ∀ b ∈ r.legacy, a.content = b.content →
        a.createdAt.date = b.createdAt.date := by
  constructor
  · intro hone a ha b hb hcontent
    have hx : ⟨a.toResident, releaseOn _ _ a.createdAt.date⟩ ∈ r.numbered.records :=
      mem_records_of_accepted ha
    have hy : ⟨b.toResident, releaseOn _ _ b.createdAt.date⟩ ∈ r.numbered.records :=
      mem_records_of_legacy hb
    exact (release_eq_iff hx hy).mp (hone _ hx _ hy hcontent)
  · intro hdays x hx y hy hcontent
    refine (release_eq_iff hx hy).mpr ?_
    rcases ant_of_mem_records hx with ⟨a, ha, hxa⟩ | ⟨a, ha, hxa⟩ <;>
      rcases ant_of_mem_records hy with ⟨b, hb, hyb⟩ | ⟨b, hb, hyb⟩ <;>
      rw [hxa, hyb] at hcontent ⊢
    · rw [List.inj_on_of_nodup_map h.nodup_contents_accepted ha hb hcontent]
    · exact hdays a ha b hb hcontent
    · exact (hdays b hb a ha hcontent.symm).symm
    · rw [List.inj_on_of_nodup_map h.nodup_contents_legacy ha hb hcontent]

/-- One issue that hits an ant, and one flagged ant. -/
theorem of_single {i : Issue} {closedAt now : Calendar.Instant} {text : String} {s l : SiteAnt}
    (hclosed : i.closed = true) (hdate : i.closedAt = some closedAt)
    (hcontent : i.content? = some text)
    (hlookup : (Matcher.ofAnts site.ants).lookup text = some s.entry)
    (hlegacy : site.legacyAnts = [l]) :
    Reconciles site [i] mode (fun _ => .ok now)
      ⟨⟨[], [], [.ofEntry s.entry i.createdAt closedAt], 0⟩, [.ofEntry l.entry now]⟩ where
  classified := by
    have hverdict : [i].map (Verdict.ofIssue (.ofAnts site.ants) mode) =
        [.accepted (.ofEntry s.entry i.createdAt closedAt)].map .ok := by
      rw [List.map_singleton, Verdict.ofIssue_of_closed hclosed hdate hcontent, Verdict.ofClosed,
        hlookup]
      rfl
    refine classify_eq_ok_iff.mpr ⟨_, hverdict, ?_⟩
    have hkept := latestBy_singleton (fun a => a.content)
      (Accepted.ofEntry s.entry i.createdAt closedAt)
    exact congrArg (Classification.mk [] [] · 0) hkept.symm
  resolved := by
    refine (site.resolveLegacy_pure (m := Id) fun _ => .ok now).trans ?_
    rw [hlegacy]
    exact congrArg Except.ok (latestBy_singleton _ _)

end Reconciles

/-- A content is accepted and legacy at once if it is both hit by an issue and flagged. The rows of
released ants repeat no content exactly if there is none such, they have no content more than twice,
and they have it in one release exactly if both ants were created on one day. -/
theorem antContents_nodup_iff {site : Site} {issues : List Issue} {mode : Mode}
    {history : String → Except HistoryError Calendar.Instant} {r : Reconciliation}
    (h : Reconciles site issues mode history r) (o : Options) :
    let contents := column (r.seed o).inserts .antRelease "ant_content"
    let rows := rowsOf (r.seed o).inserts .antRelease
    (∀ content, content ∈ r.classification.accepted.map (fun a => a.content) ∧
        content ∈ r.legacy.map (fun a => a.content) ↔
      (∃ a ∈ (Matcher.ofAnts site.ants).hits issues, a.content = content) ∧
        ∃ s ∈ site.ants, s.isLegacy = true ∧ s.content = content) ∧
    (contents.Nodup ↔ ∀ content ∈ r.classification.accepted.map (fun a => a.content),
      content ∉ r.legacy.map fun a => a.content) ∧
    (∀ content, contents.count (some (literal content)) ≤ 2) ∧
    ((∀ x ∈ rows, ∀ y ∈ rows,
        Table.antRelease.valueIn "ant_content" x = Table.antRelease.valueIn "ant_content" y →
        Table.antRelease.valueIn "release_number" x = Table.antRelease.valueIn "release_number" y) ↔
      ∀ a ∈ r.classification.accepted, ∀ b ∈ r.legacy, a.content = b.content →
        a.createdAt.date = b.createdAt.date) := by
  intro contents rows
  have hcontents : contents = (r.classification.accepted.map (fun a => a.content) ++
      r.legacy.map fun a => a.content).map fun s => some (literal s) := column_antContents_seed r o
  refine ⟨fun content => ?_, ?_, fun content => ?_, ?_⟩
  · rw [h.mem_contents_accepted_iff, h.mem_contents_legacy_iff]
  · rw [hcontents, List.nodup_map_iff someLiteral_injective]
    exact h.nodup_contents_iff
  · rw [hcontents, List.count_map_of_injective _ _ someLiteral_injective]
    exact h.count_contents_le content
  · have hrows : rows = r.numbered.records.map antReleaseRow := rowsOf_antRelease
    rw [← h.one_release_iff, hrows]
    simp only [List.forall_mem_map, valueIn_content, valueIn_number, Option.some.injEq,
      literal_injective.eq_iff, Text.decimal_injective.eq_iff]

/-- One ant of the site is flagged and an issue hits the other. -/
theorem antContents_nodup_two_ants :
    let now := Calendar.Instant.midnight ⟨2020, 1, 1, by decide, by decide, by decide⟩
    let site := Site.ofAnts [(SiteAnt.plain "a").markedLegacy, SiteAnt.plain "b"]
    let r : Reconciliation := ⟨⟨[], [], [.ofEntry (SiteAnt.plain "b").entry now now], 0⟩,
      [.ofEntry (SiteAnt.plain "a").entry now]⟩
    Reconciles site [Issue.closedOn "`b`" now now] .strict (fun _ => .ok now) r ∧
      (column (r.seed .default).inserts .antRelease "ant_content").Nodup := by
  intro now site r
  have hcontent : (Issue.closedOn "`b`" now now).content? = some "b" := by decide
  have hlookup : (Matcher.ofAnts site.ants).lookup "b" = some (SiteAnt.plain "b").entry := by
    rw [Matcher.lookup_ofAnts]
    rfl
  have h : Reconciles site [Issue.closedOn "`b`" now now] .strict (fun _ => .ok now) r :=
    .of_single (l := (SiteAnt.plain "a").markedLegacy) rfl rfl hcontent hlookup rfl
  exact ⟨h, (antContents_nodup_iff h .default).2.1.mpr (by decide)⟩

/-- An ant is flagged and an issue hits it. It is in two releases, since the history has it a day
before the issue. -/
theorem antContents_repeated :
    let now := Calendar.Instant.midnight ⟨2020, 1, 1, by decide, by decide, by decide⟩
    let later := Calendar.Instant.midnight ⟨2020, 1, 2, by decide, by decide, by decide⟩
    let site := Site.ofAnts [(SiteAnt.plain "a").markedLegacy]
    let r : Reconciliation := ⟨⟨[], [], [.ofEntry (SiteAnt.plain "a").entry later later], 0⟩,
      [.ofEntry (SiteAnt.plain "a").entry now]⟩
    Reconciles site [Issue.closedOn "`a`" later later] .lenient (fun _ => .ok now) r ∧
      "a" ∈ r.classification.accepted.map (fun a => a.content) ∧
      "a" ∈ r.legacy.map (fun a => a.content) ∧
      ¬(column (r.seed .default).inserts .antRelease "ant_content").Nodup ∧
      column (r.seed .default).inserts .antRelease "ant_content" = [some "'a'", some "'a'"] ∧
      column (r.seed .default).inserts .antRelease "release_number" = [some "2", some "1"] := by
  intro now later site r
  have hcontent : (Issue.closedOn "`a`" later later).content? = some "a" := by decide
  have hlookup : (Matcher.ofAnts site.ants).lookup "a" =
      some (SiteAnt.plain "a").markedLegacy.entry := by
    rw [Matcher.lookup_ofAnts]
    rfl
  have h : Reconciles site [Issue.closedOn "`a`" later later] .lenient (fun _ => .ok now) r :=
    .of_single (l := (SiteAnt.plain "a").markedLegacy) rfl rfl hcontent hlookup rfl
  have hcontents : column (r.seed .default).inserts .antRelease "ant_content" =
      [some "'a'", some "'a'"] := by
    rw [column_antContents_seed]
    decide
  have hnumbers : column (r.seed .default).inserts .antRelease "release_number" =
      [some "2", some "1"] := by
    have hreleases : r.numbered.records.map (fun x => x.release) = [2, 1] := by
      rw [Reconciliation.numbered, releases_of_records]
      decide
    have hdecimals := congrArg (List.map fun n => some (Text.decimal n)) hreleases
    rw [Reconciliation.seed, column_antNumbers]
    rw [List.map_map] at hdecimals
    exact hdecimals
  refine ⟨h, by decide, by decide, ?_, hcontents, hnumbers⟩
  rw [hcontents]
  decide

end AntRegister
