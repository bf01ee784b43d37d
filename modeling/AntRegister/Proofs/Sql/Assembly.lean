import AntRegister.Proofs.Sql.Script
import Mathlib.Logic.Function.Basic
/-! How a seed is put together. The script is made of the files, and the label is the hash of what
stands in front of the marker, so that the marker guards the very text that is executed. -/

namespace AntRegister.Sql

/-- A text and the blank line behind it, or nothing. -/
def block (text : String) : String := if text = "" then "" else text ++ "\n\n"

/-- The text is all that a script has between its opening and its marker. -/
def Guards (script label text : String) : Prop :=
  script = "BEGIN;\n\n" ++ block text ++ marker label ++ "\n\nCOMMIT;\n"

theorem marker_eq (label : String) : marker label =
    "insert into migration (migration_label) values ('" ++ escape label ++ "');" := by
  have hopen : "insert into migration (migration_label) values (" ++ "'" =
      "insert into migration (migration_label) values ('" := by decide
  have hclose : "'" ++ ");" = "');" := by decide
  rw [← hopen, ← hclose]
  delta marker literal
  simp only [String.append_assoc]

theorem block_of_ne {text : String} (h : text ≠ "") : block text = text ++ "\n\n" := if_neg h

theorem block_eq_empty_iff {text : String} : block text = "" ↔ text = "" := by
  unfold block
  split
  · exact iff_of_true rfl ‹_›
  · rw [String.append_eq_empty_iff]
    exact ⟨And.left, fun h => absurd h ‹_›⟩

theorem block_injective : Function.Injective block := by
  intro s t h
  by_cases hs : s = ""
  · have ht : block t = "" := h ▸ block_eq_empty_iff.mpr hs
    rw [hs, block_eq_empty_iff.mp ht]
  · by_cases ht : t = ""
    · have hs' : block s = "" := h.symm ▸ block_eq_empty_iff.mpr ht
      exact absurd (block_eq_empty_iff.mp hs') hs
    · rw [block_of_ne hs, block_of_ne ht] at h
      exact (String.append_left_inj _).mp h

theorem intercalate_cons_ne_empty {sep s : String} (hs : s ≠ "") (parts : List String) :
    sep.intercalate (s :: parts) ≠ "" := by
  cases parts with
  | nil => simpa using hs
  | cons t parts =>
    rw [String.intercalate_cons_cons, String.append_assoc]
    exact fun h => hs (String.append_eq_empty_iff.mp h).1

/-- Ending every part with a blank line is separating the parts by blank lines and ending the
whole with one more. -/
theorem join_blocks {parts : List String} (h : ∀ s ∈ parts, s ≠ "") :
    String.join (parts.map (· ++ "\n\n")) = block ("\n\n".intercalate parts) := by
  induction parts with
  | nil => rfl
  | cons s parts ih =>
    have hs := h s List.mem_cons_self
    have hrest := ih fun t ht => h t (List.mem_cons_of_mem _ ht)
    rw [List.map_cons, String.join_cons, hrest, block_of_ne (intercalate_cons_ne_empty hs parts)]
    cases parts with
    | nil => simp [block]
    | cons t parts =>
      have ht := h t (List.mem_cons_of_mem _ List.mem_cons_self)
      rw [block_of_ne (intercalate_cons_ne_empty ht parts), String.intercalate_cons_cons,
        String.append_assoc, String.append_assoc, String.append_assoc]

theorem guards_transaction_iff {statements : List String} (h : ∀ s ∈ statements, s ≠ "")
    (label text : String) :
    Guards (transaction statements label) label text ↔ text = "\n\n".intercalate statements := by
  rw [Guards, transaction, join_blocks h, String.append_left_inj, String.append_left_inj,
    String.append_right_inj, block_injective.eq_iff, eq_comm]

theorem Insert.render_ne_empty (i : Insert) : i.render ≠ "" := by
  intro h
  -- the last piece of a statement is its semicolon
  delta Insert.render at h
  exact absurd (String.append_eq_empty_iff.mp h).2 (by decide)

namespace Seed

theorem statement_ne_empty (s : Seed) : ∀ text ∈ s.statements, text ≠ "" := by
  intro text htext
  obtain ⟨i, -, rfl⟩ := List.mem_map.mp htext
  exact i.render_ne_empty

/-- The script is its files, one after the other, with an empty line behind each. -/
theorem transaction_eq_files (s : Seed) :
    s.transaction =
      "BEGIN;\n\n" ++ String.join (s.files.map fun f => f.2 ++ "\n") ++ "COMMIT;\n" := by
  have hgap : "\n" ++ "\n" = "\n\n" := rfl
  have hend : "\n\n" ++ "COMMIT;\n" = "\n\nCOMMIT;\n" := rfl
  simp only [transaction, Sql.transaction, files, statements, List.map_append, List.map_map,
    List.map_cons, List.map_nil, Function.comp_def, String.join_append, String.join_cons,
    String.join_nil, String.append_empty, String.append_assoc, hgap, hend]

theorem getLast?_files (s : Seed) :
    s.files.getLast? = some ("migration.sql", marker s.label ++ "\n") := by
  rw [files, List.getLast?_concat]

/-- Whatever the label of the marker is, it guards the same text. -/
theorem guards_iff (s : Seed) (label text : String) :
    Guards { s with label }.transaction label text ↔ text = "\n\n".intercalate s.statements :=
  guards_transaction_iff s.statement_ne_empty label text

theorem guarded_eq_empty_iff (s : Seed) :
    "\n\n".intercalate s.statements = "" ↔ s.inserts = [] := by
  rw [statements]
  cases s.inserts with
  | nil => exact iff_of_true rfl rfl
  | cons i inserts =>
    exact iff_of_false (intercalate_cons_ne_empty i.render_ne_empty _) (List.cons_ne_nil i inserts)

theorem inserts_eq_nil_iff (n : Numbered) (declined : List Declined) (o : Options) :
    (ofAnts n declined o).inserts = [] ↔ n.accepted = [] ∧ n.legacy = [] ∧ declined = [] := by
  have hrecords : n.records = [] ↔ n.accepted = [] ∧ n.legacy = [] := by
    rw [Numbered.records, List.append_eq_nil_iff, List.map_eq_nil_iff, List.map_eq_nil_iff]
  rw [← and_assoc, ← hrecords]
  have hnone (t : Table) (rows : List (List Cell)) : Insert.ofRows? t rows = none ↔ rows = [] := by
    simp [Insert.ofRows?]
  constructor
  · intro h
    have hant := List.filterMap_eq_nil_iff.mp h _ (List.mem_of_getElem? (i := 0) rfl)
    simpa [hnone] using hant
  · rintro ⟨hnil, rfl⟩
    simp [ofAnts, tables, hnil, hnone, releasesOf, sortedDistinct]

theorem label_ofAnts (n : Numbered) (declined : List Declined) (o : Options) :
    (ofAnts n declined o).label =
      o.labelStart ++ ":" ++
        Text.decimal (contentHash ("\n\n".intercalate (ofAnts n declined o).statements)) := rfl

end Seed

/-- A script is its files with an empty line behind each, and the last file is the marker's row, which
reads as one with the label. The label is made from the start that is asked for and from the hash of
the text that the marker guards, which is empty exactly without ants and the same whatever label the
marker has. -/
theorem seed_forms (n : Numbered) (declined : List Declined) (o : Options) :
    let s := Seed.ofAnts n declined o
    let row := fun label : String =>
      "insert into migration (migration_label) values ('" ++ escape label ++ "');"
    s.transaction =
        "BEGIN;\n\n" ++ String.join (s.files.map fun f => f.2 ++ "\n") ++ "COMMIT;\n" ∧
      s.files.getLast? = some ("migration.sql", row s.label ++ "\n") ∧
      lex (row s.label) = some [.word "insert", .word "into", .word "migration", .symbol '(',
        .word "migration_label", .symbol ')', .word "values", .symbol '(', .literal s.label,
        .symbol ')', .symbol ';'] ∧
      ∃ text, s.label = o.labelStart ++ ":" ++ Text.decimal (contentHash text) ∧
        (text = "" ↔ n.accepted = [] ∧ n.legacy = [] ∧ declined = []) ∧
        ∀ label t, { s with label }.transaction =
          "BEGIN;\n\n" ++ block t ++ row label ++ "\n\nCOMMIT;\n" ↔ t = text := by
  have hempty := Seed.inserts_eq_nil_iff n declined o
  have hlabel := Seed.label_ofAnts n declined o
  rw [← Seed.guarded_eq_empty_iff] at hempty
  generalize Seed.ofAnts n declined o = s at hempty hlabel ⊢
  have hlex := lex_of_reads (reads_marker s.label)
  simp only [← marker_eq]
  exact ⟨s.transaction_eq_files, s.getLast?_files, hlex, _, hlabel, hempty, s.guards_iff⟩

end AntRegister.Sql
