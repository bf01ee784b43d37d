import AntRegister.Proofs.Latest
import AntRegister.Proofs.Sql.Lexing
/-! What a script does to the rows of released ants in a database. The script is read as tokens and
cut into statements; only the updates among these say anything about rows that are there already. -/

namespace AntRegister.Sql

/-- A row of a released ant in a database. What is null is `none`, and an update leaves all columns
but the hash alone. -/
structure StoredRow (α : Type) where
  content : Option String
  hash : Option Int
  others : α
  deriving DecidableEq

namespace Token

/-- The statements of a text, each with the semicolon that ends it, after the tokens of the one that
has begun. -/
def statementsFrom (begun : List Token) : List Token → List (List Token)
  | [] => if begun.isEmpty then [] else [begun]
  | t :: ts =>
    if t = .symbol ';' then (begun ++ [t]) :: statementsFrom [] ts
    else statementsFrom (begun ++ [t]) ts

def asUpdate? (ts : List Token) : Option HashUpdate :=
  match ts with
  | [_, _, _, _, _, .number hash, _, _, _, .literal content, _] =>
    if ts = update content hash then some ⟨content, hash⟩ else none
  | _ => none

/-- The updates among the statements of a script. -/
def updates (ts : List Token) : List HashUpdate := (statementsFrom [] ts).filterMap asUpdate?

theorem statementsFrom_append {ts : List Token} (h : Token.symbol ';' ∉ ts)
    (begun us : List Token) :
    statementsFrom begun (ts ++ .symbol ';' :: us) =
      (begun ++ ts ++ [.symbol ';']) :: statementsFrom [] us := by
  induction ts generalizing begun with
  | nil => rw [List.nil_append, statementsFrom, if_pos rfl, List.append_nil]
  | cons t ts ih =>
    obtain ⟨ht, hts⟩ := List.ne_and_not_mem_of_not_mem_cons h
    rw [List.cons_append, statementsFrom, if_neg ht.symm, ih hts, List.append_assoc begun]
    rfl

theorem asUpdate?_update (u : HashUpdate) :
    asUpdate? (update u.content u.hash) = some u := if_pos rfl

theorem updates_update_append (u : HashUpdate) (ts : List Token) :
    updates (update u.content u.hash ++ ts) = u :: updates ts := by
  have hopen : Token.symbol ';' ∉ (update u.content u.hash).dropLast := by simp [update]
  have hstatement : statementsFrom [] (update u.content u.hash ++ ts) =
      update u.content u.hash :: statementsFrom [] ts := statementsFrom_append hopen [] ts
  rw [updates, hstatement, List.filterMap_cons, asUpdate?_update]
  rfl

theorem updates_transaction (us : List HashUpdate) (label : String) :
    updates (transaction (us.flatMap fun u => update u.content u.hash) label) = us := by
  have hrest : updates (marker label ++ [.word "COMMIT", .symbol ';']) = [] := by
    rfl
  have hall : updates (us.flatMap (fun u => update u.content u.hash) ++
      (marker label ++ [.word "COMMIT", .symbol ';'])) = us := by
    induction us with
    | nil => exact hrest
    | cons u us ih => rw [List.flatMap_cons, List.append_assoc, updates_update_append, ih]
  rw [← List.append_assoc] at hall
  exact hall

end Token

variable {α : Type}

def HashUpdate.applyTo (u : HashUpdate) (r : StoredRow α) : StoredRow α :=
  if r.content = some u.content then { r with hash := some u.hash } else r

/-- The rows after updates, one after the other. -/
def applyAll (updates : List HashUpdate) (rows : List (StoredRow α)) : List (StoredRow α) :=
  updates.foldl (fun rows u => rows.map u.applyTo) rows

/-- The rows after a script, if it can be read. -/
def execute (script : String) (rows : List (StoredRow α)) : Option (List (StoredRow α)) :=
  (lex script).map fun ts => applyAll (Token.updates ts) rows

/-- The last of the updates that name a row's content. -/
def lastUpdate? (updates : List HashUpdate) (r : StoredRow α) : Option HashUpdate :=
  updates.findRev? fun u => r.content == some u.content

def settle (updates : List HashUpdate) (r : StoredRow α) : StoredRow α :=
  { r with hash := (lastUpdate? updates r).elim r.hash fun u => some u.hash }

/-- One more update overwrites the hash of the rows that it names, whatever it was by then. -/
theorem settle_concat (updates : List HashUpdate) (u : HashUpdate) (r : StoredRow α) :
    settle (updates ++ [u]) r = u.applyTo (settle updates r) := by
  have hcontent : (settle updates r).content = r.content := rfl
  rw [HashUpdate.applyTo, hcontent, settle, lastUpdate?, findRev?_concat]
  by_cases h : r.content = some u.content
  · rw [if_pos (beq_iff_eq.mpr h), if_pos h]
    rfl
  · rw [if_neg (mt beq_iff_eq.mp h), if_neg h]
    rfl

theorem applyAll_eq (updates : List HashUpdate) (rows : List (StoredRow α)) :
    applyAll updates rows = rows.map (settle updates) := by
  induction updates using List.reverseRecOn with
  | nil => exact (List.map_id rows).symm
  | append_singleton updates u ih =>
    rw [applyAll, List.foldl_concat]
    change (applyAll updates rows).map u.applyTo = _
    rw [ih, List.map_map]
    exact List.map_congr_left fun r _ => (settle_concat updates u r).symm

theorem execute_of_updates {script : String} {updates : List HashUpdate}
    (h : (lex script).map Token.updates = some updates) (rows : List (StoredRow α)) :
    execute script rows = some (rows.map (settle updates)) := by
  obtain ⟨ts, hts, rfl⟩ := Option.map_eq_some_iff.mp h
  rw [execute, hts, Option.map_some, applyAll_eq]

end AntRegister.Sql
