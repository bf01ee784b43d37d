import AntRegister.Proofs.Sql.Keys
/-! The rows of a script, table by table, and the columns of them. -/

namespace AntRegister.Sql

/-- The rows that statements insert into a table. -/
def rowsOf (inserts : List Insert) (t : Table) : List (List Cell) :=
  inserts.flatMap fun i => if i.table = t then i.rows else []

/-- What the rows of a table have in a column. -/
def column (inserts : List Insert) (t : Table) (name : String) : List (Option String) :=
  (rowsOf inserts t).map (t.valueIn name)

theorem rowsOf_tables (tables : List (Table × List (List Cell))) (t : Table) :
    rowsOf (tables.filterMap fun u => Insert.ofRows? u.1 u.2) t =
      tables.flatMap fun u => if u.1 = t then u.2 else [] :=
  flatMap_ofRows (f := fun u rows => if u = t then rows else []) (fun _ => ite_self _) tables

variable {n : Numbered} {declined : List Declined} {o : Options}

theorem rowsOf_seed {u : Table × List (List Cell)} (hu : u ∈ Seed.tables n declined o) :
    rowsOf (Seed.ofAnts n declined o).inserts u.1 = u.2 := by
  refine (rowsOf_tables _ _).trans ?_
  unfold Seed.tables at hu ⊢
  simp only [List.mem_cons, List.not_mem_nil, or_false] at hu
  rcases hu with rfl | rfl | rfl | rfl | rfl <;> simp

theorem rowsOf_ant : rowsOf (Seed.ofAnts n declined o).inserts .ant =
    n.records.map (fun r => suggestionRow o.suggester r.ant.suggestion r.ant.createdAt) ++
      declined.map fun a => suggestionRow o.suggester a.suggestion a.createdAt :=
  rowsOf_seed (List.mem_of_getElem? (i := 0) rfl)

theorem rowsOf_antTweeted : rowsOf (Seed.ofAnts n declined o).inserts .antTweeted =
    n.records.filterMap fun r => tweetRow? r.ant :=
  rowsOf_seed (List.mem_of_getElem? (i := 1) rfl)

theorem rowsOf_antDeclined : rowsOf (Seed.ofAnts n declined o).inserts .antDeclined =
    declined.map (declinedRow o.reviewer) :=
  rowsOf_seed (List.mem_of_getElem? (i := 2) rfl)

theorem rowsOf_antRelease :
    rowsOf (Seed.ofAnts n declined o).inserts .antRelease = n.records.map antReleaseRow :=
  rowsOf_seed (List.mem_of_getElem? (i := 4) rfl)

theorem rowsOf_release : rowsOf (Seed.ofAnts n declined o).inserts .release =
    (releasesOf n.records).map releaseRow :=
  rowsOf_seed (List.mem_of_getElem? (i := 3) rfl)

theorem valueIn_content (r : Released Resident) :
    Table.antRelease.valueIn "ant_content" (antReleaseRow r) = some (literal r.ant.content) := rfl

theorem valueIn_number (r : Released Resident) :
    Table.antRelease.valueIn "release_number" (antReleaseRow r) =
      some (Text.decimal r.release) := rfl

theorem column_antContents : column (Seed.ofAnts n declined o).inserts .antRelease "ant_content" =
    n.records.map fun r => some (literal r.ant.content) := by
  rw [column, rowsOf_antRelease, List.map_map]
  rfl

theorem column_antNumbers :
    column (Seed.ofAnts n declined o).inserts .antRelease "release_number" =
      n.records.map fun r => some (Text.decimal r.release) := by
  rw [column, rowsOf_antRelease, List.map_map]
  rfl

theorem column_releaseNumbers :
    column (Seed.ofAnts n declined o).inserts .release "release_number" =
      (releasesOf n.records).map fun r => some (Text.decimal r.number) := by
  rw [column, rowsOf_release, List.map_map]
  rfl

end AntRegister.Sql
