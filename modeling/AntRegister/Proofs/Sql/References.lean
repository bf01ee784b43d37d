import AntRegister.Proofs.Command.Report
import AntRegister.Proofs.Sql.Rows
/-! What the rows of a script refer to is in the script too, in rows that come before them. The
counts that a run shows are those of the rows. -/

namespace AntRegister

namespace Sql

/-- The tables that the rows of a table refer to. -/
def Table.references : Table → List Table
  | .ant | .release => []
  | .antTweeted | .antDeclined => [.ant]
  | .antRelease => [.ant, .release]

variable {n : Numbered} {declined : List Declined} {o : Options}

theorem length_rowsOf_ant : (rowsOf (Seed.ofAnts n declined o).inserts .ant).length =
    n.records.length + declined.length := by
  rw [rowsOf_ant, List.length_append, List.length_map, List.length_map]

/-- A row that refers to an ant starts with the key of a record or of a declined ant. -/
theorem exists_key_of_mem_rowsOf {t : Table} (ht : .ant ∈ t.references) {row : List Cell}
    (hrow : row ∈ rowsOf (Seed.ofAnts n declined o).inserts t) :
    ∃ suggestion createdAt cells, row = .antId suggestion createdAt :: cells ∧
      (suggestion, createdAt.stamp) ∈
        n.records.map (fun r => r.ant.key) ++ declined.map Declined.key := by
  cases t with
  | ant | release => exact absurd ht (by decide)
  | antTweeted =>
    rw [rowsOf_antTweeted] at hrow
    obtain ⟨r, hr, htweet⟩ := List.mem_filterMap.mp hrow
    have hkey := List.mem_map_of_mem (f := fun r => r.ant.key) hr
    unfold tweetRow? at htweet
    split at htweet
    · obtain ⟨i, -, rfl⟩ := Option.map_eq_some_iff.mp htweet
      exact ⟨_, _, _, rfl, List.mem_append_left _ hkey⟩
    · cases htweet
  | antDeclined =>
    rw [rowsOf_antDeclined] at hrow
    obtain ⟨a, ha, rfl⟩ := List.mem_map.mp hrow
    exact ⟨_, _, _, rfl, List.mem_append_right _ (List.mem_map_of_mem (f := Declined.key) ha)⟩
  | antRelease =>
    rw [rowsOf_antRelease] at hrow
    obtain ⟨r, hr, rfl⟩ := List.mem_map.mp hrow
    have hkey := List.mem_map_of_mem (f := fun r => r.ant.key) hr
    exact ⟨_, _, _, rfl, List.mem_append_left _ hkey⟩

theorem valueIn_antId {t : Table} (ht : .ant ∈ t.references) (suggestion : String)
    (createdAt : Calendar.Instant) (cells : List Cell) :
    t.valueIn "ant_id" (.antId suggestion createdAt :: cells) =
      some (antId suggestion createdAt) := by
  cases t with
  | ant | release => exact absurd ht (by decide)
  | antTweeted | antDeclined | antRelease => rfl

theorem exists_key_of_mem_column {t : Table} (ht : .ant ∈ t.references) {v : Option String}
    (hv : v ∈ column (Seed.ofAnts n declined o).inserts t "ant_id") :
    ∃ suggestion createdAt, v = some (antId suggestion createdAt) ∧
      quoted (suggestion, createdAt.stamp) ∈ antKeys (Seed.ofAnts n declined o).inserts := by
  obtain ⟨row, hrow, rfl⟩ := List.mem_map.mp hv
  obtain ⟨suggestion, createdAt, cells, rfl, hkey⟩ := exists_key_of_mem_rowsOf ht hrow
  refine ⟨suggestion, createdAt, valueIn_antId ht suggestion createdAt cells, ?_⟩
  rw [antKeys_seed]
  exact List.mem_map_of_mem hkey

theorem someDecimal_injective : Function.Injective fun k => some (Text.decimal k) :=
  (Option.some_injective _).comp Text.decimal_injective

theorem column_releaseNumbers_eq :
    column (Seed.ofAnts n declined o).inserts .release "release_number" =
      ((n.records.map fun r => r.release).toFinset.sort).map fun k => some (Text.decimal k) := by
  rw [column_releaseNumbers, releasesOf_eq, List.map_map]
  rfl

theorem nodup_releaseNumbers :
    (column (Seed.ofAnts n declined o).inserts .release "release_number").Nodup := by
  rw [column_releaseNumbers_eq, List.nodup_map_iff someDecimal_injective]
  exact Finset.sort_nodup _ _

theorem mem_releaseNumbers_iff {v : Option String} :
    v ∈ column (Seed.ofAnts n declined o).inserts .release "release_number" ↔
      v ∈ column (Seed.ofAnts n declined o).inserts .antRelease "release_number" := by
  rw [column_releaseNumbers_eq, column_antNumbers, List.mem_map, List.mem_map]
  simp only [Finset.mem_sort, List.mem_toFinset, List.mem_map, exists_exists_and_eq_and]

theorem rowsOf_ne_nil {t u : Table} (hu : u ∈ t.references)
    (ht : rowsOf (Seed.ofAnts n declined o).inserts t ≠ []) :
    rowsOf (Seed.ofAnts n declined o).inserts u ≠ [] := by
  obtain ⟨row, hrow⟩ := List.exists_mem_of_ne_nil _ ht
  cases u with
  | ant =>
    obtain ⟨suggestion, createdAt, -, -, hkey⟩ := exists_key_of_mem_rowsOf hu hrow
    have hlength := List.length_pos_of_mem hkey
    rw [List.length_append, List.length_map, List.length_map, ← length_rowsOf_ant] at hlength
    exact List.ne_nil_of_length_pos hlength
  | release =>
    cases t with
    | ant | antTweeted | antDeclined | release => exact absurd hu (by decide)
    | antRelease =>
      have hnumber := List.mem_map_of_mem (f := Table.antRelease.valueIn "release_number") hrow
      have hreleased := List.ne_nil_of_mem (mem_releaseNumbers_iff.mpr hnumber)
      exact fun hnil => hreleased (by rw [column, hnil, List.map_nil])
  | antTweeted | antDeclined | antRelease => cases t <;> exact absurd hu (by decide)

theorem map_table_ofRows (tables : List (Table × List (List Cell))) :
    (tables.filterMap fun u => Insert.ofRows? u.1 u.2).map (fun i => i.table) =
      (tables.filter fun u => u.2 ≠ []).map fun u => u.1 := by
  induction tables with
  | nil => rfl
  | cons u tables ih =>
    rw [List.filterMap_cons, Insert.ofRows?, List.filter_cons]
    by_cases hrows : u.2 = []
    · simpa [hrows] using ih
    · simpa [hrows] using ih

/-- The tables that a script has statements for, in the order of the statements. -/
theorem tables_present : (Seed.ofAnts n declined o).inserts.map (fun i => i.table) =
    [.ant, .antTweeted, .antDeclined, .release, .antRelease].filter fun t =>
      rowsOf (Seed.ofAnts n declined o).inserts t ≠ [] := by
  have hrows : ∀ u ∈ Seed.tables n declined o,
      decide (u.2 ≠ []) = decide (rowsOf (Seed.ofAnts n declined o).inserts u.1 ≠ []) :=
    fun u hu => by rw [rowsOf_seed hu]
  have hpresent := map_table_ofRows (Seed.tables n declined o)
  rw [List.filter_congr hrows] at hpresent
  refine hpresent.trans ?_
  change _ = ((Seed.tables n declined o).map fun u => u.1).filter _
  rw [List.filter_map]
  rfl

/-- A table has a statement only behind those of the tables that it refers to. -/
theorem references_before {t u : Table} (hu : u ∈ t.references)
    (ht : t ∈ (Seed.ofAnts n declined o).inserts.map fun i => i.table) :
    [u, t].Sublist ((Seed.ofAnts n declined o).inserts.map fun i => i.table) := by
  rw [tables_present] at ht ⊢
  have hrows := (List.mem_filter.mp ht).2
  have hboth : [u, t].filter (fun t => rowsOf (Seed.ofAnts n declined o).inserts t ≠ []) =
      [u, t] := by
    refine List.filter_eq_self.mpr fun x hx => ?_
    rcases List.mem_pair.mp hx with rfl | rfl
    · exact decide_eq_true (rowsOf_ne_nil hu (of_decide_eq_true hrows))
    · exact hrows
  have horder : [u, t].Sublist [.ant, .antTweeted, .antDeclined, .release, .antRelease] := by
    revert hu
    cases t <;> cases u <;> decide
  rw [← hboth]
  exact horder.filter _

theorem nodup_tables :
    ((Seed.ofAnts n declined o).inserts.map fun i => i.table).Nodup := by
  rw [tables_present]
  exact List.Nodup.filter _ (by decide)

end Sql

open Sql

namespace Reconciliation

variable (r : Reconciliation) (o : Options)

theorem length_records : r.numbered.records.length = r.counts.accepted + r.counts.legacy := by
  rw [numbered, records_assignReleases, List.length_map, List.length_append, List.length_map,
    List.length_map]
  rfl

theorem length_ants : r.counts.accepted + r.counts.legacy + r.counts.declined =
    (rowsOf (r.seed o).inserts .ant).length := by
  rw [seed, length_rowsOf_ant, length_records]
  rfl

theorem length_antReleases : r.counts.accepted + r.counts.legacy =
    (rowsOf (r.seed o).inserts .antRelease).length := by
  rw [seed, rowsOf_antRelease, List.length_map, length_records]

theorem length_antDeclined : r.counts.declined =
    (rowsOf (r.seed o).inserts .antDeclined).length := by
  rw [seed, rowsOf_antDeclined, List.length_map]
  rfl

theorem length_releases : r.counts.releases =
    (rowsOf (r.seed o).inserts .release).length := by
  rw [seed, rowsOf_release, List.length_map]
  rfl

end Reconciliation

/-- Whatever a row of a script refers to is in the script, in a statement before that of the row.
The counts are those of the rows, and the count of releases is the latest release. A run that ends
well shows the counts of what it collected and published, and one that fails shows nothing. -/
theorem seed_closed :
    (∀ (r : Reconciliation) (o : Options),
      let inserts := (r.seed o).inserts
      let present := inserts.map fun i => i.table
      (∀ t, .ant ∈ t.references → ∀ v ∈ column inserts t "ant_id",
        ∃ suggestion createdAt, v = some (antId suggestion createdAt) ∧
          quoted (suggestion, createdAt.stamp) ∈ antKeys inserts) ∧
      (∀ v ∈ column inserts .antRelease "release_number",
        (column inserts .release "release_number").count v = 1) ∧
      (∀ v ∈ column inserts .release "release_number",
        v ∈ column inserts .antRelease "release_number") ∧
      present.Nodup ∧
      (∀ t ∈ present, ∀ u ∈ t.references, [u, t].Sublist present) ∧
      r.counts.accepted + r.counts.legacy + r.counts.declined = (rowsOf inserts .ant).length ∧
      r.counts.accepted + r.counts.legacy = (rowsOf inserts .antRelease).length ∧
      r.counts.declined = (rowsOf inserts .antDeclined).length ∧
      r.counts.releases = (rowsOf inserts .release).length ∧
      r.numbered.latest? = if r.counts.releases = 0 then none else some r.counts.releases) ∧
    ∀ c s history w,
      let after := (Pipeline.reconcile c s history).run.run w
      (∃ e, after.1 = .error e ∧ after.2.output = w.output) ∨
        ∃ r written before, ((Pipeline.collect c s history).run.run w).1 = .ok r ∧
          before.disk = w.disk ∧
          ((Pipeline.publish c ⟨s.outputFolder⟩ (r.seed s.sql)).run.run before).1 = .ok written ∧
          after.1 = .ok () ∧ after.2.output =
            w.output ++ r.counts.shown c.format (r.seed s.sql).label s.outputFolder written := by
  refine ⟨fun r o => ?_, Pipeline.run_reconcile⟩
  intro inserts present
  refine ⟨fun t ht v hv => exists_key_of_mem_column ht hv, fun v hv => ?_, fun v hv => ?_,
    nodup_tables, fun t ht u hu => references_before hu ht, r.length_ants o,
    r.length_antReleases o, r.length_antDeclined o, r.length_releases o, r.latest?_numbered⟩
  · exact List.count_eq_one_of_mem nodup_releaseNumbers (mem_releaseNumbers_iff.mpr hv)
  · exact mem_releaseNumbers_iff.mp hv

/-- Three ants of different kinds, one of them tweeted. -/
theorem seed_closed_every_table :
    let now := Calendar.Instant.midnight ⟨2020, 1, 1, by decide, by decide, by decide⟩
    let r : Reconciliation :=
      ⟨⟨[], [⟨"c", now, now⟩], [.ofEntry ((SiteAnt.plain "b").tweetedOn now).entry now now], 0⟩,
        [.ofEntry (SiteAnt.plain "a").entry now]⟩
    let inserts := (r.seed .default).inserts
    let present := inserts.map fun i => i.table
    present = [.ant, .antTweeted, .antDeclined, .release, .antRelease] ∧
      some (antId "b" now) ∈ column inserts .antTweeted "ant_id" ∧
      (∃ suggestion createdAt, some (antId "b" now) = some (antId suggestion createdAt) ∧
        quoted (suggestion, createdAt.stamp) ∈ antKeys inserts) ∧
      [.release, .antRelease].Sublist present ∧
      (rowsOf inserts .ant).length = 3 := by
  intro now r inserts present
  have htweets : rowsOf inserts .antTweeted = [[.antId "b" now, .moment now]] := by
    refine rowsOf_antTweeted.trans ?_
    rw [Reconciliation.numbered, records_assignReleases]
    rfl
  have htweeted : some (antId "b" now) ∈ column inserts .antTweeted "ant_id" := by
    rw [column, htweets]
    exact List.mem_singleton.mpr rfl
  have hreleased : 0 < (rowsOf inserts .antRelease).length :=
    (r.length_antReleases .default).symm ▸ Nat.zero_lt_succ 1
  have hdeclined : 0 < (rowsOf inserts .antDeclined).length :=
    (r.length_antDeclined .default).symm ▸ Nat.zero_lt_succ 0
  have hpresent : present = [.ant, .antTweeted, .antDeclined, .release, .antRelease] := by
    refine tables_present.trans (List.filter_eq_self.mpr fun t _ => decide_eq_true ?_)
    cases t with
    | ant | release => exact rowsOf_ne_nil (by decide) (List.ne_nil_of_length_pos hreleased)
    | antTweeted => exact fun hnil => List.cons_ne_nil _ _ (htweets.symm.trans hnil)
    | antDeclined => exact List.ne_nil_of_length_pos hdeclined
    | antRelease => exact List.ne_nil_of_length_pos hreleased
  have hmem : .antRelease ∈ present := by
    rw [hpresent]
    decide
  obtain ⟨hkeys, -, -, -, horder, hcount, -⟩ := seed_closed.1 r .default
  exact ⟨hpresent, htweeted, hkeys .antTweeted (by decide) _ htweeted,
    horder .antRelease hmem .release (by decide), hcount.symm⟩

end AntRegister
