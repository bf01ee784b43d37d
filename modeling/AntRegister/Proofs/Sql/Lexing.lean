import AntRegister.Proofs.Sql.Script
/-! What a reader of SQL sees of the scripts: for the seed, for a single release and for a new
order, exactly the statements that are meant, with a row for every record in the order of the
records. -/

namespace AntRegister.Sql

open Calendar (Date)

namespace Token

/-- The accepted ants and, behind them, the legacy ones. -/
def residents (n : Numbered) : List (Released Resident) :=
  n.accepted.map (fun r => ⟨r.ant.toResident, r.release⟩) ++
    n.legacy.map fun r => ⟨r.ant.toResident, r.release⟩

def releaseRow (number : Nat) : List (List Token) :=
  [[.number number], [.literal ("v" ++ Text.decimal number)]]

def suggestionRow (suggester suggestion stamp : String) : List (List Token) :=
  [[.literal suggestion], userKey suggester, [.literal stamp]]

/-- The statements of a seed. The label is made of the text of its inserts. -/
def seed (n : Numbered) (declined : List Declined) (o : Options) : List Token :=
  transaction
    (insert "ant" ["suggested_content", "ant_user_id", "created_at"]
        ((residents n).map (fun r =>
            suggestionRow o.suggester r.ant.suggestion r.ant.createdAt.stamp) ++
          declined.map fun a => suggestionRow o.suggester a.suggestion a.createdAt.stamp) ++
      insert "ant_tweeted" ["ant_id", "tweeted_at"]
        (((residents n).filter fun r => r.ant.tweeted).filterMap fun r =>
          r.ant.tweetedAt.map fun i =>
            [antKey r.ant.suggestion r.ant.createdAt.stamp, [.literal i.stamp]]) ++
      insert "ant_declined" ["ant_id", "ant_declined_user_id", "ant_declined_at"]
        (declined.map fun a => [antKey a.suggestion a.createdAt.stamp, userKey o.reviewer,
          [.literal a.closedAt.stamp]]) ++
      insert "release" ["release_number", "release_label"]
        (((residents n).map fun r => r.release).toFinset.sort.map releaseRow) ++
      insert "ant_release" ["ant_id", "release_number", "ant_content", "ant_content_hash"]
        ((residents n).map fun r =>
          [antKey r.ant.suggestion r.ant.createdAt.stamp, [.number r.release],
            [.literal r.ant.content], [.number r.ant.ordering]]))
    (o.labelStart ++ ":" ++ Text.decimal
      (contentHash ("\n\n".intercalate (Seed.ofAnts n declined o).statements)))

def release (date : Date) (number : Nat) (ants : List String) (o : Options) : List Token :=
  transaction
    (insert "ant" ["suggested_content", "ant_user_id", "created_at"]
        (ants.map fun s => suggestionRow o.suggester s (date.text ++ " 00:00:00")) ++
      insert "release" ["release_number", "release_label"] [releaseRow number] ++
      insert "ant_release" ["ant_id", "release_number", "ant_content", "ant_content_hash"]
        (ants.zipIdx.map fun (s, i) =>
          [antKey s (date.text ++ " 00:00:00"), [.number number], [.literal s],
            [.number (i % 2 ^ 32)]]))
    ("release-" ++ Text.decimal number ++ "-" ++ date.text)

def update (content : String) (hash : Nat) : List Token :=
  [.word "update", .word "ant_release", .word "set", .word "ant_content_hash", .symbol '=',
    .number hash, .word "where", .word "ant_content", .symbol '=', .literal content, .symbol ';']

/-- The entries of a listing with multiples of one step, in words of 32 bits. -/
def spaced (ants : List String) : List HashUpdate :=
  ants.zipIdx.map fun (s, i) =>
    ⟨s, i % 2 ^ 32 * ((2 ^ 31 - 1) / (ants.length % 2 ^ 32)) % 2 ^ 32⟩

/-- The statements that reorder the entries of a listing. The label is made of their text, one a
line. -/
def rehash (ants : List String) : List Token :=
  transaction ((spaced ants).flatMap fun u => update u.content u.hash)
    ("reorder-content-hash-to-match-legacy:" ++
      Text.decimal (contentHash ("\n".intercalate ((spaced ants).map HashUpdate.render))))

end Token

theorem filterMap_tweetRow? (records : List (Released Resident)) :
    (records.filterMap fun r => tweetRow? r.ant).map (fun r => r.map Cell.tokens) =
      (records.filter fun r => r.ant.tweeted).filterMap fun r =>
        r.ant.tweetedAt.map fun i =>
          [Token.antKey r.ant.suggestion r.ant.createdAt.stamp, [.literal i.stamp]] := by
  rw [List.filterMap_filter, List.map_filterMap]
  refine List.filterMap_congr fun r _ => ?_
  rw [tweetRow?]
  cases r.ant.tweeted <;> cases r.ant.tweetedAt <;> rfl

theorem lex_seed (n : Numbered) (declined : List Declined) (o : Options) :
    lex (Seed.ofAnts n declined o).transaction = some (Token.seed n declined o) := by
  refine (lex_transaction (Seed.tables n declined o) _).trans ?_
  have hreleases : (releasesOf n.records).map (fun r => (releaseRow r).map Cell.tokens) =
      ((Token.residents n).map fun r => r.release).toFinset.sort.map Token.releaseRow := by
    rw [releasesOf_eq, List.map_map]
    rfl
  simp only [Seed.tables, List.flatMap_cons, List.flatMap_nil, List.map_append, List.map_map,
    filterMap_tweetRow?, Function.comp_def, hreleases]
  delta Token.seed
  simp only [List.append_assoc, List.append_nil]
  rfl

theorem stamp_midnight (date : Date) :
    (Calendar.Instant.midnight date).stamp = date.text ++ " 00:00:00" := by
  have hclock : " " ++ (Calendar.Instant.midnight date).clockText = " 00:00:00" := by
    change " " ++ (Text.padded 2 0 ++ ":" ++ Text.padded 2 0 ++ ":" ++ Text.padded 2 0) =
      " 00:00:00"
    decide
  delta Calendar.Instant.stamp
  rw [String.append_assoc, hclock]
  rfl

theorem toNat_word (n : Nat) : n.toUInt32.toNat = n % 2 ^ 32 := UInt32.toNat_ofNat'

theorem lex_release (date : Date) (number : Nat) (ants : List String) (o : Options) :
    lex (releaseScript date number ants o) = some (Token.release date number ants o) := by
  refine (lex_transaction _ _).trans ?_
  have hants : ants.map (fun s => Token.suggestionRow o.suggester s (date.text ++ " 00:00:00")) =
      ants.zipIdx.map fun r => Token.suggestionRow o.suggester r.1 (date.text ++ " 00:00:00") := by
    conv_lhs => rw [← List.zipIdx_map_fst 0 ants, List.map_map]
    rfl
  delta Token.release releaseRecords
  rw [hants, ← stamp_midnight]
  simp only [List.flatMap_cons, List.flatMap_nil, List.map_map, List.append_assoc, List.append_nil,
    toNat_word]
  rfl

theorem reads_update (u : HashUpdate) :
    Reads u.render.toList (Token.update u.content u.hash) := by
  have hfirst : Reads "update ant_release set ant_content_hash = ".toList
      [.word "update", .word "ant_release", .word "set", .word "ant_content_hash",
        .symbol '='] := by decide
  have hwhere : Reads " where ant_content = ".toList
      [.word "where", .word "ant_content", .symbol '='] := by decide
  have hend : Reads ";".toList [.symbol ';'] := by decide
  have hset := (hfirst.append_yields (yields_decimal u.hash)).append_reads hwhere (by decide)
  have hall := (hset.append_yields (yields_literal u.content)).append_reads hend (by decide)
  delta HashUpdate.render
  simp only [String.toList_append]
  exact hall

theorem nil_intercalate {α : Type} (l : List (List α)) : [].intercalate l = l.flatten := by
  induction l with
  | nil => rfl
  | cons x l ih =>
    cases l with
    | nil => simp
    | cons y l =>
      rw [List.intercalate_cons_cons, ih, List.append_nil]
      rfl

theorem yields_renderUpdates (updates : List HashUpdate) :
    Yields (renderUpdates updates).toList
      (updates.flatMap fun u => Token.update u.content u.hash) := by
  have hsep : Reads "\n".toList [] := by decide
  have hall := Yields.intercalate hsep (by decide) fun u (_ : u ∈ updates) =>
    (reads_update u).yields
  rw [nil_intercalate] at hall
  rw [renderUpdates, String.toList_intercalate, List.map_map]
  exact hall

theorem rehashUpdates_eq (ants : List String) : rehashUpdates ants = Token.spaced ants := by
  have hmodulus : hashModulus.toUInt32.toNat = 2 ^ 31 - 1 := rfl
  simp only [rehashUpdates, UInt32.toNat_mul, UInt32.toNat_div, toNat_word, hmodulus]
  rfl

theorem lex_rehash (ants : List String) :
    (rehashScript ants).bind lex =
      if ants.length % 2 ^ 32 = 0 then none else some (Token.rehash ants) := by
  have hzero : ants.length.toUInt32 = 0 ↔ ants.length % 2 ^ 32 = 0 := by
    rw [← toNat_word, ← UInt32.toNat_inj, UInt32.toNat_zero]
  rw [rehashScript]
  simp only [hzero]
  split
  · rfl
  · have hread := reads_transaction (l := [rehashUpdates ants]) (fun u _ => yields_renderUpdates u)
      (rehashLabel (rehashUpdates ants))
    refine (lex_of_reads hread).trans (congrArg some ?_)
    rw [List.flatMap_singleton, rehashUpdates_eq]
    rfl

/-- Every script reads as the statements that are meant, whatever the texts in its records are. For a
listing whose length as a word of 32 bits is zero there is none. -/
theorem lex_scripts (o : Options) :
    (∀ n declined, lex (Seed.ofAnts n declined o).transaction =
      some (Token.seed n declined o)) ∧
    (∀ date number ants, lex (releaseScript date number ants o) =
      some (Token.release date number ants o)) ∧
    ∀ ants, (rehashScript ants).bind lex =
      if ants.length % 2 ^ 32 = 0 then none else some (Token.rehash ants) :=
  ⟨fun n declined => lex_seed n declined o, fun date number ants => lex_release date number ants o,
    lex_rehash⟩

end AntRegister.Sql
