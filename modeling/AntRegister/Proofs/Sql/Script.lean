import AntRegister.Proofs.Distinct
import AntRegister.Proofs.Sql.Reading
import AntRegister.Sql.Script
/-! The tokens of the scripts. Every statement stands as a whole, with a row for each record and
each text of a record in one literal, whatever the texts are. -/

namespace AntRegister.Sql

open Calendar (Date Instant)

namespace Token

def commas (parts : List (List Token)) : List Token := [.symbol ','].intercalate parts

def row (cells : List (List Token)) : List Token := .symbol '(' :: commas cells ++ [.symbol ')']

/-- An insert into a table, which is left out if there are no rows. -/
def insert (table : String) (columns : List String) (rows : List (List (List Token))) :
    List Token :=
  if rows.isEmpty then []
  else [.word "insert", .word "into", .word table] ++ row (columns.map fun c => [.word c]) ++
    [.word "values"] ++ commas (rows.map row) ++ [.symbol ';']

def antKey (suggestion stamp : String) : List Token :=
  [.symbol '(', .word "select", .word "ant_id", .word "from", .word "ant", .word "where",
    .word "suggested_content", .symbol '=', .literal suggestion, .word "and", .word "created_at",
    .symbol '=', .literal stamp, .symbol ')']

def userKey (name : String) : List Token :=
  [.symbol '(', .word "select", .word "user_id", .word "from", .word "registered_user",
    .word "where", .word "user_name", .symbol '=', .literal name, .symbol ')']

def marker (label : String) : List Token :=
  [.word "insert", .word "into", .word "migration", .symbol '(', .word "migration_label",
    .symbol ')', .word "values", .symbol '(', .literal label, .symbol ')', .symbol ';']

def transaction (statements : List Token) (label : String) : List Token :=
  [.word "BEGIN", .symbol ';'] ++ statements ++ marker label ++ [.word "COMMIT", .symbol ';']

end Token

def Cell.tokens : Cell → List Token
  | .text s => [.literal s]
  | .number n => [.number n]
  | .moment i => [.literal i.stamp]
  | .antId suggestion createdAt => Token.antKey suggestion createdAt.stamp
  | .userId name => Token.userKey name

theorem reads_antId (suggestion : String) (createdAt : Instant) :
    Reads (antId suggestion createdAt).toList (Token.antKey suggestion createdAt.stamp) := by
  have hfirst : Reads "(select ant_id from ant where suggested_content = ".toList
      [.symbol '(', .word "select", .word "ant_id", .word "from", .word "ant", .word "where",
        .word "suggested_content", .symbol '='] := by decide
  have hsecond : Reads " and created_at = ".toList
      [.word "and", .word "created_at", .symbol '='] := by decide
  have hlast : Reads ")".toList [.symbol ')'] := by decide
  have hkey := (hfirst.append_yields (yields_literal suggestion)).append_reads hsecond (by decide)
  have hall := (hkey.append_yields (yields_literal createdAt.stamp)).append_reads hlast (by decide)
  -- An equation of a definition with such long literals takes minutes to make, so none is used.
  delta antId
  simp only [String.toList_append]
  exact hall

theorem reads_userId (name : String) : Reads (userId name).toList (Token.userKey name) := by
  have hfirst : Reads "(select user_id from registered_user where user_name = ".toList
      [.symbol '(', .word "select", .word "user_id", .word "from", .word "registered_user",
        .word "where", .word "user_name", .symbol '='] := by decide
  have hlast : Reads ")".toList [.symbol ')'] := by decide
  have hall := (hfirst.append_yields (yields_literal name)).append_reads hlast (by decide)
  delta userId
  simp only [String.toList_append]
  exact hall

theorem yields_cell (c : Cell) : Yields c.render.toList c.tokens := by
  cases c with
  | text s => exact yields_literal s
  | number n => exact yields_decimal n
  | moment i => exact yields_literal i.stamp
  | antId suggestion createdAt => exact (reads_antId suggestion createdAt).yields
  | userId name => exact (reads_userId name).yields

theorem reads_row (cells : List Cell) :
    Reads (Insert.renderRow cells).toList (Token.row (cells.map Cell.tokens)) := by
  have hopen : Reads "(".toList [.symbol '('] := by decide
  have hsep : Reads ", ".toList [.symbol ','] := by decide
  have hclose : Reads ")".toList [.symbol ')'] := by decide
  delta Insert.renderRow
  simp only [String.toList_append, String.toList_intercalate, List.map_map]
  have hcells := Yields.intercalate hsep (by decide) fun c (_ : c ∈ cells) => yields_cell c
  exact (hopen.append_yields hcells).append_reads hclose (by decide)

theorem reads_header (t : Table) :
    Reads ("insert into " ++ t.name ++ " (" ++ ", ".intercalate t.columns ++
      ")\n  values\n").toList
      ([.word "insert", .word "into", .word t.name] ++
        Token.row (t.columns.map fun c => [.word c]) ++ [.word "values"]) := by
  cases t <;> decide +kernel

def Insert.tokens (i : Insert) : List Token :=
  Token.insert i.table.name i.table.columns (i.rows.map fun r => r.map Cell.tokens)

theorem reads_insert (i : Insert) : Reads i.render.toList i.tokens := by
  have hsep : Reads ",\n".toList [.symbol ','] := by decide
  have hend : Reads "\n;".toList [.symbol ';'] := by decide
  have hindent : Reads "    ".toList [] := by decide
  have hrow : ∀ r ∈ i.rows, Yields ("    " ++ Insert.renderRow r).toList
      (Token.row (r.map Cell.tokens)) := by
    intro r _
    rw [String.toList_append]
    exact hindent.append_yields (reads_row r).yields
  have hrows := Yields.intercalate hsep (by decide) hrow
  have hne : ¬ (i.rows.map fun r => r.map Cell.tokens).isEmpty = true := by
    simpa using i.rows_ne_nil
  delta Insert.render
  rw [Insert.tokens, Token.insert, if_neg hne, String.toList_append, String.toList_append,
    String.toList_intercalate, List.map_map, List.map_map]
  exact ((reads_header i.table).append_yields hrows).append_reads hend (by decide)

theorem reads_marker (label : String) : Reads (marker label).toList (Token.marker label) := by
  have hfirst : Reads "insert into migration (migration_label) values (".toList
      [.word "insert", .word "into", .word "migration", .symbol '(', .word "migration_label",
        .symbol ')', .word "values", .symbol '('] := by decide
  have hlast : Reads ");".toList [.symbol ')', .symbol ';'] := by decide
  have hall := (hfirst.append_yields (yields_literal label)).append_reads hlast (by decide)
  delta marker
  simp only [String.toList_append]
  exact hall

theorem reads_transaction {α : Type} {text : α → String} {tokens : α → List Token} {l : List α}
    (h : ∀ a ∈ l, Yields (text a).toList (tokens a)) (label : String) :
    Reads (transaction (l.map text) label).toList (Token.transaction (l.flatMap tokens) label) := by
  have hbegin : Reads "BEGIN;\n\n".toList [.word "BEGIN", .symbol ';'] := by decide
  have hgap : Reads "\n\n".toList [] := by decide
  have hcommit : Reads "\n\nCOMMIT;\n".toList [.word "COMMIT", .symbol ';'] := by decide
  have hbody : Reads (l.flatMap fun a => (text a).toList ++ "\n\n".toList) (l.flatMap tokens) :=
    .flatMap fun a ha => by
      simpa only [List.append_nil] using (h a ha).append_reads hgap (by decide)
  have hall := ((hbegin.append hbody).append (reads_marker label)).append hcommit
  delta transaction
  simp only [String.toList_append, String.toList_join, List.flatMap_map]
  exact hall

/-- Leaving out the tables without rows changes nothing that is made row by row. -/
theorem flatMap_ofRows {γ : Type} {f : Table → List (List Cell) → List γ} (hf : ∀ t, f t [] = [])
    (tables : List (Table × List (List Cell))) :
    (tables.filterMap fun t => Insert.ofRows? t.1 t.2).flatMap (fun i => f i.table i.rows) =
      tables.flatMap fun t => f t.1 t.2 := by
  induction tables with
  | nil => rfl
  | cons t tables ih =>
    obtain ⟨table, rows⟩ := t
    rw [List.flatMap_cons, ← ih]
    cases rows with
    | nil =>
      rw [hf]
      rfl
    | cons r rows => rfl

theorem lex_transaction (tables : List (Table × List (List Cell))) (label : String) :
    lex (transaction
        ((tables.filterMap fun t => Insert.ofRows? t.1 t.2).map Insert.render) label) =
      some (Token.transaction (tables.flatMap fun t =>
        Token.insert t.1.name t.1.columns (t.2.map fun r => r.map Cell.tokens)) label) := by
  have htables := flatMap_ofRows
    (f := fun t rows => Token.insert t.name t.columns (rows.map fun r => r.map Cell.tokens))
    (fun _ => rfl) tables
  rw [lex_of_reads (reads_transaction (fun i _ => (reads_insert i).yields) label), ← htables]
  rfl

end AntRegister.Sql
