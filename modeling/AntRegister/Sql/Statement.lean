import AntRegister.Calendar.Instant
import AntRegister.Sql.Literal
import AntRegister.Text.Decimal
/-!
The statements of the scripts as values, and their text. An insert has at least one row, since SQL
has no empty list of rows. A row refers to an ant by its suggestion and creation time, not by a
generated key.
-/

namespace AntRegister.Sql

open Calendar (Instant)

inductive Table where
  | ant
  | antTweeted
  | antDeclined
  | release
  | antRelease
  deriving DecidableEq

namespace Table

def name : Table → String
  | .ant => "ant"
  | .antTweeted => "ant_tweeted"
  | .antDeclined => "ant_declined"
  | .release => "release"
  | .antRelease => "ant_release"

def columns : Table → List String
  | .ant => ["suggested_content", "ant_user_id", "created_at"]
  | .antTweeted => ["ant_id", "tweeted_at"]
  | .antDeclined => ["ant_id", "ant_declined_user_id", "ant_declined_at"]
  | .release => ["release_number", "release_label"]
  | .antRelease => ["ant_id", "release_number", "ant_content", "ant_content_hash"]

end Table

inductive Cell where
  | text (s : String)
  | number (n : Nat)
  | moment (i : Instant)
  /-- The key of the ant with a suggestion and the time it was made at. -/
  | antId (suggestion : String) (createdAt : Instant)
  /-- The key of the user with a name. -/
  | userId (name : String)
  deriving DecidableEq

def antId (suggestion : String) (createdAt : Instant) : String :=
  "(select ant_id from ant where suggested_content = " ++ literal suggestion ++
    " and created_at = " ++ literal createdAt.stamp ++ ")"

def userId (name : String) : String :=
  "(select user_id from registered_user where user_name = " ++ literal name ++ ")"

def Cell.render : Cell → String
  | .text s => literal s
  | .number n => Text.decimal n
  | .moment i => literal i.stamp
  | .antId suggestion createdAt => Sql.antId suggestion createdAt
  | .userId name => Sql.userId name

structure Insert where
  table : Table
  rows : List (List Cell)
  rows_ne_nil : rows ≠ []

namespace Insert

/-- The statement for rows, unless there are none. -/
def ofRows? (table : Table) (rows : List (List Cell)) : Option Insert :=
  if h : rows ≠ [] then some ⟨table, rows, h⟩ else none

def renderRow (row : List Cell) : String :=
  "(" ++ ", ".intercalate (row.map Cell.render) ++ ")"

def render (i : Insert) : String :=
  "insert into " ++ i.table.name ++ " (" ++ ", ".intercalate i.table.columns ++ ")\n  values\n" ++
    ",\n".intercalate (i.rows.map fun row => "    " ++ renderRow row) ++ "\n;"

end Insert

/-- The row that keeps a script from being applied twice. -/
def marker (label : String) : String :=
  "insert into migration (migration_label) values (" ++ literal label ++ ");"

structure HashUpdate where
  content : String
  hash : Nat
  deriving DecidableEq

def HashUpdate.render (u : HashUpdate) : String :=
  "update ant_release set ant_content_hash = " ++ Text.decimal u.hash ++
    " where ant_content = " ++ literal u.content ++ ";"

end AntRegister.Sql
