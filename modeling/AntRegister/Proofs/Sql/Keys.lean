import AntRegister.Proofs.Reconciliation
import AntRegister.Proofs.Release.Ranking
import AntRegister.Proofs.Sql.Escaping
import AntRegister.Proofs.Sql.Script
/-! Scripts refer to an ant by its suggestion and the second of its creation. Nothing makes that
pair a key: it is one exactly for documents without repetitions, and then no subquery is
ambiguous. -/

namespace AntRegister

/-- What a script knows an ant by. -/
def Resident.key (a : Resident) : String × String := (a.suggestion, a.createdAt.stamp)

def Declined.key (a : Declined) : String × String := (a.suggestion, a.createdAt.stamp)

namespace Sql

open Calendar (Date Instant)

/-- What a row has in a column. -/
def Table.valueIn (t : Table) (column : String) (row : List Cell) : Option String :=
  ((t.columns.zip row).lookup column).map Cell.render

def Table.antKeys (t : Table) (rows : List (List Cell)) : List (Option String × Option String) :=
  if t = .ant then
    rows.map fun row => (t.valueIn "suggested_content" row, t.valueIn "created_at" row)
  else []

/-- The literals of suggestion and time in the rows of ants. -/
def antKeys (inserts : List Insert) : List (Option String × Option String) :=
  inserts.flatMap fun i => i.table.antKeys i.rows

def quoted (key : String × String) : Option String × Option String :=
  (some (literal key.1), some (literal key.2))

def Cell.antLookup? : Cell → Option (Option String × Option String)
  | .antId suggestion createdAt => some (quoted (suggestion, createdAt.stamp))
  | _ => none

/-- The literals that the subqueries for ants compare with. -/
def antLookups (inserts : List Insert) : List (Option String × Option String) :=
  inserts.flatMap fun i => i.rows.flatMap fun row => row.filterMap Cell.antLookup?

theorem literal_injective : Function.Injective literal := by
  intro s t h
  rw [literal, literal, String.append_left_inj, String.append_right_inj] at h
  exact escape_injective h

theorem quoted_injective : Function.Injective quoted := by
  intro k l h
  obtain ⟨hsuggestion, hstamp⟩ := Prod.mk.inj h
  exact Prod.ext (literal_injective (Option.some.inj hsuggestion))
    (literal_injective (Option.some.inj hstamp))

theorem nodup_iff_count_lookups {keys lookups : List (Option String × Option String)}
    (h : keys ⊆ lookups) : keys.Nodup ↔ ∀ k ∈ lookups, keys.count k ≤ 1 := by
  rw [List.nodup_iff_count_le_one]
  refine ⟨fun hk k _ => hk k, fun hk k => ?_⟩
  by_cases hmem : k ∈ keys
  · exact hk k (h hmem)
  · rw [List.count_eq_zero_of_not_mem hmem]
    exact Nat.zero_le 1

theorem mem_antLookups {tables : List (Table × List (List Cell))}
    {t : Table × List (List Cell)} {row : List Cell} {c : Cell} {k : Option String × Option String}
    (ht : t ∈ tables) (hrow : row ∈ t.2) (hc : c ∈ row) (hk : c.antLookup? = some k) :
    k ∈ antLookups (tables.filterMap fun t => Insert.ofRows? t.1 t.2) := by
  have htables := flatMap_ofRows
    (f := fun _ rows => rows.flatMap fun row => row.filterMap Cell.antLookup?) (fun _ => rfl) tables
  have hcell : k ∈ row.filterMap Cell.antLookup? := List.mem_filterMap.mpr ⟨c, hc, hk⟩
  rw [antLookups, htables]
  exact List.mem_flatMap.mpr ⟨t, ht, List.mem_flatMap.mpr ⟨row, hrow, hcell⟩⟩

theorem antKeys_tables (tables : List (Table × List (List Cell))) :
    antKeys (tables.filterMap fun t => Insert.ofRows? t.1 t.2) =
      tables.flatMap fun t => t.1.antKeys t.2 :=
  flatMap_ofRows (fun t => by rw [Table.antKeys, List.map_nil, ite_self]) tables

theorem antKeys_seed (n : Numbered) (declined : List Declined) (o : Options) :
    antKeys (Seed.ofAnts n declined o).inserts =
      (n.records.map (fun r => r.ant.key) ++ declined.map Declined.key).map quoted := by
  refine (antKeys_tables (Seed.tables n declined o)).trans ?_
  have hants : Table.ant.antKeys
      (n.records.map (fun r => suggestionRow o.suggester r.ant.suggestion r.ant.createdAt) ++
        declined.map fun a => suggestionRow o.suggester a.suggestion a.createdAt) =
      (n.records.map (fun r => r.ant.key) ++ declined.map Declined.key).map quoted := by
    rw [Table.antKeys, if_pos rfl]
    simp only [List.map_append, List.map_map]
    rfl
  unfold Seed.tables
  simp only [List.flatMap_cons, List.flatMap_nil, hants]
  exact List.append_nil _

theorem antKeys_releaseInserts (date : Date) (number : Nat) (ants : List String) (o : Options) :
    antKeys (releaseInserts date number ants o) =
      ((releaseRecords date number ants).map fun r => r.ant.key).map quoted := by
  refine (antKeys_tables _).trans ?_
  have hants : Table.ant.antKeys ((releaseRecords date number ants).map fun r =>
      suggestionRow o.suggester r.ant.suggestion r.ant.createdAt) =
      ((releaseRecords date number ants).map fun r => r.ant.key).map quoted := by
    rw [Table.antKeys, if_pos rfl]
    simp only [List.map_map]
    rfl
  simp only [List.flatMap_cons, List.flatMap_nil, hants]
  exact List.append_nil _

theorem map_key_releaseRecords (date : Date) (number : Nat) (ants : List String) :
    (releaseRecords date number ants).map (fun r => r.ant.key) =
      ants.map fun s => (s, (Instant.midnight date).stamp) := by
  conv_rhs => rw [← List.zipIdx_map_fst 0 ants]
  unfold releaseRecords
  simp only [List.map_map]
  rfl

theorem antKeys_subset_seed (n : Numbered) (declined : List Declined) (o : Options) :
    antKeys (Seed.ofAnts n declined o).inserts ⊆ antLookups (Seed.ofAnts n declined o).inserts := by
  intro k hk
  rw [antKeys_seed, List.map_append, List.map_map, List.map_map] at hk
  rcases List.mem_append.mp hk with hk | hk
  · obtain ⟨r, hr, rfl⟩ := List.mem_map.mp hk
    have htable : (Table.antRelease, n.records.map antReleaseRow) ∈ Seed.tables n declined o := by
      simp [Seed.tables]
    exact mem_antLookups htable (List.mem_map_of_mem hr) List.mem_cons_self rfl
  · obtain ⟨a, ha, rfl⟩ := List.mem_map.mp hk
    have htable : (Table.antDeclined, declined.map (declinedRow o.reviewer)) ∈
        Seed.tables n declined o := by
      simp [Seed.tables]
    exact mem_antLookups htable (List.mem_map_of_mem ha) List.mem_cons_self rfl

theorem antKeys_subset_release (date : Date) (number : Nat) (ants : List String) (o : Options) :
    antKeys (releaseInserts date number ants o) ⊆
      antLookups (releaseInserts date number ants o) := by
  intro k hk
  rw [antKeys_releaseInserts, List.map_map] at hk
  obtain ⟨r, hr, rfl⟩ := List.mem_map.mp hk
  unfold releaseInserts
  refine mem_antLookups (t := (.antRelease, (releaseRecords date number ants).map antReleaseRow))
    ?_ (List.mem_map_of_mem hr) List.mem_cons_self rfl
  simp

end Sql

open Sql

theorem keys_assignReleases (accepted : List Accepted) (legacy : List Legacy) :
    ((assignReleases accepted legacy).records.map fun r => r.ant.key) =
      accepted.map (fun a => a.key) ++ legacy.map fun a => a.key := map_records Resident.key

namespace Reconciles

variable {site : Site} {issues : List Issue} {mode : Mode}
  {history : String → Except HistoryError Calendar.Instant} {r : Reconciliation}

theorem nodup_legacy_keys (h : Reconciles site issues mode history r) :
    (r.legacy.map fun a => a.key).Nodup := by
  have hfst : ((r.legacy.map fun a => a.key).map Prod.fst).Nodup := by
    rw [List.map_map]
    exact h.nodup_legacy
  exact hfst.of_map _

/-- A declined ant never has the suggestion of an ant on the site. -/
theorem key_ne_declined (h : Reconciles site issues mode history r) {a : Resident}
    (ha : a ∈ r.classification.accepted.map (fun a => a.toResident) ++
      r.legacy.map fun a => a.toResident)
    {d : Declined} (hd : d ∈ r.classification.declined) : a.key ≠ d.key := by
  intro hkey
  have hsuggestion : a.suggestion = d.suggestion := (Prod.mk.inj hkey).1
  have hnone := h.lookup_declined hd
  rw [← hsuggestion] at hnone
  rcases List.mem_append.mp ha with ha | ha
  · obtain ⟨b, hb, rfl⟩ := List.mem_map.mp ha
    exact h.lookup_accepted hb hnone
  · obtain ⟨b, hb, rfl⟩ := List.mem_map.mp ha
    exact h.lookup_legacy hb hnone

theorem nodup_keys_iff (h : Reconciles site issues mode history r) :
    ((r.numbered.records.map fun a => a.ant.key) ++
        r.classification.declined.map Declined.key).Nodup ↔
      (r.classification.declined.map Declined.key).Nodup ∧
        (r.classification.accepted.map fun a => a.key).Nodup ∧
        ∀ a ∈ r.classification.accepted, ∀ b ∈ r.legacy, a.key ≠ b.key := by
  rw [Reconciliation.numbered, keys_assignReleases, List.nodup_append, List.nodup_append]
  constructor
  · rintro ⟨⟨haccepted, -, hpairs⟩, hdeclined, -⟩
    refine ⟨hdeclined, haccepted, fun a ha b hb => ?_⟩
    exact hpairs _ (List.mem_map_of_mem ha) _ (List.mem_map_of_mem hb)
  · rintro ⟨hdeclined, haccepted, hpairs⟩
    refine ⟨⟨haccepted, h.nodup_legacy_keys, ?_⟩, hdeclined, ?_⟩
    · intro k hk l hl
      obtain ⟨a, ha, rfl⟩ := List.mem_map.mp hk
      obtain ⟨b, hb, rfl⟩ := List.mem_map.mp hl
      exact hpairs a ha b hb
    · intro k hk l hl
      obtain ⟨d, hd, rfl⟩ := List.mem_map.mp hl
      have hmem : k ∈ (r.classification.accepted.map (fun a => a.toResident) ++
          r.legacy.map fun a => a.toResident).map Resident.key := by
        rw [List.map_append, List.map_map, List.map_map]
        exact hk
      obtain ⟨a, ha, rfl⟩ := List.mem_map.mp hmem
      exact h.key_ne_declined ha hd

end Reconciles

/-- The pairs that a script refers to ants by are different exactly if no two declined ants, no two
accepted ants and no accepted and legacy ant share theirs, and in a single release exactly if no ant
is listed twice. This is the same as that no subquery finds two of the script's own rows. No other
two ants of a run share theirs. -/
theorem antKeys_nodup_iff (o : Options) :
    (∀ site issues mode history r, Reconciles site issues mode history r →
      ((antKeys (r.seed o).inserts).Nodup ↔
        (r.classification.declined.map Declined.key).Nodup ∧
          (r.classification.accepted.map fun a => a.key).Nodup ∧
          ∀ a ∈ r.classification.accepted, ∀ b ∈ r.legacy, a.key ≠ b.key) ∧
      ((antKeys (r.seed o).inserts).Nodup ↔
        ∀ k ∈ antLookups (r.seed o).inserts, (antKeys (r.seed o).inserts).count k ≤ 1) ∧
      (∀ d ∈ r.classification.declined,
        (∀ a ∈ r.classification.accepted, a.key ≠ d.key) ∧ ∀ a ∈ r.legacy, a.key ≠ d.key) ∧
      (r.legacy.map fun a => a.key).Nodup) ∧
    ∀ date number ants,
      ((antKeys (releaseInserts date number ants o)).Nodup ↔ ants.Nodup) ∧
      ((antKeys (releaseInserts date number ants o)).Nodup ↔
        ∀ k ∈ antLookups (releaseInserts date number ants o),
          (antKeys (releaseInserts date number ants o)).count k ≤ 1) := by
  refine ⟨fun site issues mode history r h => ⟨?_, ?_, fun d hd => ⟨fun a ha => ?_, fun a ha => ?_⟩,
    h.nodup_legacy_keys⟩, fun date number ants => ⟨?_, ?_⟩⟩
  · rw [Reconciliation.seed, antKeys_seed, List.nodup_map_iff quoted_injective]
    exact h.nodup_keys_iff
  · exact nodup_iff_count_lookups (antKeys_subset_seed _ _ _)
  · exact h.key_ne_declined (List.mem_append_left _ (List.mem_map_of_mem ha)) hd
  · exact h.key_ne_declined (List.mem_append_right _ (List.mem_map_of_mem ha)) hd
  · have hpair : Function.Injective fun s : String => (s, (Calendar.Instant.midnight date).stamp) :=
      fun s t hst => (Prod.mk.inj hst).1
    rw [antKeys_releaseInserts, List.nodup_map_iff quoted_injective, map_key_releaseRecords,
      List.nodup_map_iff hpair]
  · exact nodup_iff_count_lookups (antKeys_subset_release _ _ _ _)

/-- Three ants of different kinds on one day: one was accepted, one declined and one is legacy. -/
theorem antKeys_nodup_three_kinds :
    let now := Calendar.Instant.midnight ⟨2020, 1, 1, by decide, by decide, by decide⟩
    let site := Site.ofAnts [(SiteAnt.plain "a").markedLegacy, SiteAnt.plain "b"]
    let issues := [Issue.closedOn "`b`" now now, Issue.closedOn "`c`" now now]
    let accepted := Accepted.ofEntry (SiteAnt.plain "b").entry now now
    let r : Reconciliation := ⟨⟨[], [⟨"c", now, now⟩], [accepted], 0⟩,
      [.ofEntry (SiteAnt.plain "a").entry now]⟩
    Reconciles site issues .strict (fun _ => .ok now) r ∧
      (antKeys (r.seed .default).inserts).Nodup := by
  intro now site issues accepted r
  have haccepted : (Matcher.ofAnts site.ants).lookup "b" = some (SiteAnt.plain "b").entry := by
    rw [Matcher.lookup_ofAnts]
    rfl
  have hdeclined : (Matcher.ofAnts site.ants).lookup "c" = none := by
    rw [Matcher.lookup_ofAnts]
    rfl
  have hverdicts : issues.map (Verdict.ofIssue (.ofAnts site.ants) .strict) =
      [.accepted accepted, .declined ⟨"c", now, now⟩].map .ok := by
    have hb : (Issue.closedOn "`b`" now now).content? = some "b" := by decide
    have hc : (Issue.closedOn "`c`" now now).content? = some "c" := by decide
    rw [List.map_cons, List.map_singleton, Verdict.ofIssue_of_closed rfl rfl hb,
      Verdict.ofIssue_of_closed rfl rfl hc, Verdict.ofClosed, Verdict.ofClosed, haccepted,
      hdeclined]
    rfl
  have hclassified : classify issues (.ofAnts site.ants) .strict = .ok r.classification := by
    refine classify_eq_ok_iff.mpr ⟨_, hverdicts, ?_⟩
    rw [Classification.ofVerdicts, latestBy_eq]
    rfl
  have hresolved : site.resolveLegacy (m := Id) (fun _ => .ok now) = .ok r.legacy := by
    refine (site.resolveLegacy_pure (m := Id) fun _ => .ok now).trans ?_
    unfold legacyOfDated
    simp only [latestBy_eq]
    rfl
  have h := ((antKeys_nodup_iff .default).1 site issues .strict _ r ⟨hclassified, hresolved⟩).1
  refine ⟨⟨hclassified, hresolved⟩, h.mpr ⟨by simp [r], by simp [r], ?_⟩⟩
  simp [r, accepted, Resident.key, SiteAnt.entry, SiteAnt.suggestion, SiteAnt.plain,
    Accepted.ofEntry, Legacy.ofEntry]

/-- Two suggestions of one text in one second, both declined, and one text listed twice. -/
theorem antKeys_repeated :
    let day : Calendar.Date := ⟨2020, 1, 1, by decide, by decide, by decide⟩
    let now := Calendar.Instant.midnight day
    let issue := Issue.closedOn "`a`" now now
    let r : Reconciliation := ⟨⟨[], [⟨"a", now, now⟩, ⟨"a", now, now⟩], [], 0⟩, []⟩
    (Reconciles (.ofAnts []) [issue, issue] .lenient (fun content => .error (.notFound content)) r ∧
        ¬ (antKeys (r.seed .default).inserts).Nodup ∧
        ¬ ∀ k ∈ antLookups (r.seed .default).inserts,
          (antKeys (r.seed .default).inserts).count k ≤ 1) ∧
      ¬ (antKeys (releaseInserts day 1 ["a", "a"] .default)).Nodup := by
  intro day now issue r
  have hcontent : issue.content? = some "a" := by decide
  have hnone : (Matcher.ofAnts []).lookup "a" = none := Matcher.lookup_eq_none_iff.mpr (by simp)
  have hverdicts : [issue, issue].map (Verdict.ofIssue (.ofAnts []) .lenient) =
      [.declined ⟨"a", now, now⟩, .declined ⟨"a", now, now⟩].map .ok := by
    rw [List.map_cons, List.map_singleton, Verdict.ofIssue_of_closed rfl rfl hcontent,
      Verdict.ofClosed, hnone]
    rfl
  have hrepeated : ¬ (antKeys (r.seed .default).inserts).Nodup := by
    rw [Reconciliation.seed, antKeys_seed, List.nodup_map_iff quoted_injective]
    intro h
    simpa [r] using (List.nodup_append.mp h).2.1
  refine ⟨⟨⟨classify_eq_ok_iff.mpr ⟨_, hverdicts, rfl⟩, rfl⟩, hrepeated, ?_⟩, ?_⟩
  · exact fun h => hrepeated ((nodup_iff_count_lookups (antKeys_subset_seed _ _ _)).mpr h)
  · rw [antKeys_releaseInserts, map_key_releaseRecords, List.nodup_map_iff quoted_injective]
    simp

end AntRegister
