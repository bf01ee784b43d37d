import AntRegister.Ant.Basic
import AntRegister.ContentHash
import AntRegister.Release.Basic
import AntRegister.Sql.Statement
/-!
Scripts: statements in one transaction that ends with a marker. The marker's label is made from the
statements, so that equal input has an equal label.
-/

namespace AntRegister.Sql

open Calendar (Date Instant)

/-- The accounts that rows name, and the start of the seed's label. -/
structure Options where
  suggester : String
  reviewer : String
  labelStart : String
  deriving DecidableEq

def Options.default : Options := ⟨"nobody", "kaspar", "seed-ants"⟩

/-- Statements and the marker, in a transaction. -/
def transaction (statements : List String) (label : String) : String :=
  "BEGIN;\n\n" ++ String.join (statements.map (· ++ "\n\n")) ++ marker label ++ "\n\nCOMMIT;\n"

/-- The label of statements: its start and their hash. -/
def labelOf (start : String) (statements : List String) : String :=
  start ++ ":" ++ Text.decimal (contentHash ("\n\n".intercalate statements))

def suggestionRow (suggester suggestion : String) (createdAt : Instant) : List Cell :=
  [.text suggestion, .userId suggester, .moment createdAt]

/-- The row of an ant that was tweeted at a known time. -/
def tweetRow? (a : Resident) : Option (List Cell) :=
  if a.tweeted then a.tweetedAt.map fun i => [.antId a.suggestion a.createdAt, .moment i] else none

def declinedRow (reviewer : String) (a : Declined) : List Cell :=
  [.antId a.suggestion a.createdAt, .userId reviewer, .moment a.closedAt]

def releaseRow (r : Release) : List Cell := [.number r.number, .text r.label]

def antReleaseRow (r : Released Resident) : List Cell :=
  [.antId r.ant.suggestion r.ant.createdAt, .number r.release, .text r.ant.content,
    .number r.ant.ordering]

structure Seed where
  /-- The inserts that have rows, each after those it refers to. -/
  inserts : List Insert
  label : String

namespace Seed

/-- The rows of every table, in the order in which tables refer to each other. -/
def tables (numbered : Numbered) (declined : List Declined) (options : Options) :
    List (Table × List (List Cell)) :=
  let records := numbered.records
  [(.ant, records.map (fun r => suggestionRow options.suggester r.ant.suggestion r.ant.createdAt) ++
      declined.map (fun a => suggestionRow options.suggester a.suggestion a.createdAt)),
    (.antTweeted, records.filterMap fun r => tweetRow? r.ant),
    (.antDeclined, declined.map (declinedRow options.reviewer)),
    (.release, (releasesOf records).map releaseRow),
    (.antRelease, records.map antReleaseRow)]

def ofAnts (numbered : Numbered) (declined : List Declined) (options : Options) : Seed :=
  let inserts := (tables numbered declined options).filterMap fun t => Insert.ofRows? t.1 t.2
  ⟨inserts, labelOf options.labelStart (inserts.map Insert.render)⟩

def statements (s : Seed) : List String := s.inserts.map Insert.render

/-- A file for every table that has rows, and one for the marker. -/
def files (s : Seed) : List (String × String) :=
  s.inserts.map (fun i => (i.table.name ++ ".sql", i.render ++ "\n")) ++
    [("migration.sql", marker s.label ++ "\n")]

def transaction (s : Seed) : String := Sql.transaction s.statements s.label

end Seed

/-- The ants of one release. They are created at the start of its day and ordered as they are
listed; a place is a word of 32 bits. -/
def releaseRecords (date : Date) (number : Nat) (ants : List String) : List (Released Resident) :=
  ants.zipIdx.map fun (content, i) =>
    let legacy := Legacy.ofEntry (SiteAnt.plain content).entry (.midnight date)
    ⟨{ legacy.toResident with ordering := i.toUInt32.toNat }, number⟩

def releaseInserts (date : Date) (number : Nat) (ants : List String) (options : Options) :
    List Insert :=
  let records := releaseRecords date number ants
  let tables : List (Table × List (List Cell)) := [
    (.ant, records.map fun r => suggestionRow options.suggester r.ant.suggestion r.ant.createdAt),
    (.release, [releaseRow ⟨number⟩]),
    (.antRelease, records.map antReleaseRow)]
  tables.filterMap fun t => Insert.ofRows? t.1 t.2

def releaseLabel (date : Date) (number : Nat) : String :=
  "release-" ++ Text.decimal number ++ "-" ++ date.text

def releaseScript (date : Date) (number : Nat) (ants : List String) (options : Options) : String :=
  Sql.transaction ((releaseInserts date number ants options).map Insert.render)
    (releaseLabel date number)

/-- The updates that spread the content hashes evenly in the order of a listing. Places and hashes are
words of 32 bits, which wrap around. -/
def rehashUpdates (ants : List String) : List HashUpdate :=
  let distance := hashModulus.toUInt32 / ants.length.toUInt32
  ants.zipIdx.map fun (content, i) => ⟨content, (i.toUInt32 * distance).toNat⟩

/-- The text of updates, one a line. -/
def renderUpdates (updates : List HashUpdate) : String :=
  "\n".intercalate (updates.map HashUpdate.render)

/-- The label of updates, by the hash of their text. -/
def rehashLabel (updates : List HashUpdate) : String :=
  "reorder-content-hash-to-match-legacy:" ++ Text.decimal (contentHash (renderUpdates updates))

/-- The script that reorders ants as a listing does, unless that is empty. There is none either for a
listing whose length as a word is zero, since it cannot be divided by. -/
def rehashScript (ants : List String) : Option String :=
  let updates := rehashUpdates ants
  if ants.length.toUInt32 = 0 then none
  else some (Sql.transaction [renderUpdates updates] (rehashLabel updates))

end AntRegister.Sql
