import AntRegister.Latest
import AntRegister.Proofs.Distinct
import Mathlib.Data.List.Induction
/-! Collapsing records in terms of lists only: there is one record for each key, in the order in
which the keys come first, and it is the last one that has the key. -/

namespace AntRegister

variable {κ α : Type}

theorem findRev?_append (p : α → Bool) (xs ys : List α) :
    (xs ++ ys).findRev? p = (ys.findRev? p).or (xs.findRev? p) := by
  simp only [List.findRev?_eq_find?_reverse, List.reverse_append, List.find?_append]

theorem findRev?_concat (p : α → Bool) (xs : List α) (x : α) :
    (xs ++ [x]).findRev? p = if p x then some x else xs.findRev? p := by
  rw [findRev?_append, List.findRev?_eq_find?_reverse, List.reverse_singleton, List.find?_singleton]
  cases p x <;> rfl

theorem mem_of_findRev? {p : α → Bool} {xs : List α} {x : α} (h : xs.findRev? p = some x) :
    x ∈ xs ∧ p x = true := by
  rw [List.findRev?_eq_find?_reverse] at h
  exact ⟨List.mem_reverse.mp (List.mem_of_find?_eq_some h), List.find?_some h⟩

theorem findRev?_eq_some_iff_append {p : α → Bool} {xs : List α} {x : α} :
    xs.findRev? p = some x ↔
      p x = true ∧ ∃ before after, xs = before ++ x :: after ∧ ∀ y ∈ after, p y = false := by
  rw [List.findRev?_eq_find?_reverse, List.find?_eq_some_iff_append]
  refine and_congr_right fun _ => ⟨?_, ?_⟩
  · rintro ⟨after, before, heq, hafter⟩
    refine ⟨before.reverse, after.reverse, ?_, fun y hy => ?_⟩
    · rw [← List.reverse_reverse xs, heq]
      simp
    · simpa using hafter y (List.mem_reverse.mp hy)
  · rintro ⟨before, after, rfl, hafter⟩
    refine ⟨after.reverse, before.reverse, by simp, fun y hy => ?_⟩
    rw [hafter y (List.mem_reverse.mp hy)]
    rfl

section

variable [BEq κ] [LawfulBEq κ] {key : α → κ} {records : List α}

theorem exists_findRev? {k : κ} (h : k ∈ records.map key) :
    ∃ a, (records.findRev? fun a => key a == k) = some a ∧ key a = k := by
  obtain ⟨a, ha, rfl⟩ := List.mem_map.mp h
  have hsome : (records.reverse.find? fun b => key b == key a).isSome = true := by
    rw [List.find?_isSome]
    exact ⟨a, List.mem_reverse.mpr ha, beq_self_eq_true _⟩
  obtain ⟨b, hb⟩ := Option.isSome_iff_exists.mp hsome
  rw [← List.findRev?_eq_find?_reverse] at hb
  exact ⟨b, hb, beq_iff_eq.mp (mem_of_findRev? hb).2⟩

theorem map_latest :
    ((records.map key).eraseDups.filterMap fun k => records.findRev? fun a => key a == k).map key =
      (records.map key).eraseDups := by
  rw [List.map_filterMap]
  have hself : ∀ k ∈ (records.map key).eraseDups,
      (records.findRev? fun a => key a == k).map key = some k := by
    intro k hk
    obtain ⟨a, ha, hkey⟩ := exists_findRev? (List.mem_eraseDups.mp hk)
    rw [ha, Option.map_some, hkey]
  rw [List.filterMap_congr hself, List.filterMap_some]

end

variable [BEq κ] [Hashable κ] {key : α → κ}

namespace Slots

/-- The places are those of the records with the keys. -/
def IsIndexed (key : α → κ) (s : Slots κ α) : Prop :=
  ∀ (k : κ) (i : Nat), s.places[k]? = some i ↔ (s.records.toList.map key)[i]? = some k

variable {s : Slots κ α} {a : α}

theorem mem_keys_iff (h : s.IsIndexed key) :
    key a ∈ s.records.toList.map key ↔ ∃ i, s.places[key a]? = some i := by
  rw [List.mem_iff_getElem?]
  exact exists_congr fun i => (h (key a) i).symm

theorem toList_put_of_notMem (h : s.IsIndexed key) (ha : key a ∉ s.records.toList.map key) :
    (s.put key a).places = s.places.insert (key a) s.records.size ∧
      (s.put key a).records.toList = s.records.toList ++ [a] := by
  have hnone : s.places[key a]? = none := by
    by_contra hsome
    exact ha ((mem_keys_iff h).mpr (Option.ne_none_iff_exists'.mp hsome))
  unfold put
  rw [hnone]
  exact ⟨rfl, Array.toList_push⟩

variable [LawfulBEq κ]

theorem toList_put_of_mem (h : s.IsIndexed key) (ha : key a ∈ s.records.toList.map key) :
    (s.put key a).places = s.places ∧ (s.put key a).records.toList =
      s.records.toList.map fun b => if key b == key a then a else b := by
  obtain ⟨i, hi⟩ := (mem_keys_iff h).mp ha
  unfold put
  rw [hi]
  refine ⟨rfl, ?_⟩
  dsimp only
  rw [Array.toList_setIfInBounds]
  refine List.ext_getElem? fun j => ?_
  have hj := h (key a) j
  rw [hi, List.getElem?_map] at hj
  rw [List.getElem?_map, List.getElem?_set]
  cases hb : s.records.toList[j]? with
  | none =>
    have hlen := List.getElem?_eq_none_iff.mp hb
    split
    · rw [if_neg (by omega)]
      rfl
    · rfl
  | some b =>
    have hlen := (List.getElem?_eq_some_iff.mp hb).1
    rw [hb] at hj
    simp only [Option.map_some, Option.some.injEq] at hj
    by_cases hij : i = j
    · rw [if_pos hij, if_pos (hij ▸ hlen), Option.map_some, if_pos (beq_iff_eq.mpr (hj.mp hij))]
    · rw [if_neg hij, Option.map_some, if_neg (fun hk => hij (hj.mpr (beq_iff_eq.mp hk)))]

variable [LawfulHashable κ]

theorem isIndexed_empty : (empty : Slots κ α).IsIndexed key := by
  intro k i
  simp [empty]

theorem IsIndexed.put (h : s.IsIndexed key) (a : α) : (s.put key a).IsIndexed key := by
  intro k i
  -- A known key keeps its place and all keys stay, a new key gets the place behind them.
  by_cases ha : key a ∈ s.records.toList.map key
  · obtain ⟨hplaces, hrecords⟩ := toList_put_of_mem h ha
    have hkeys : (key ∘ fun b => if key b == key a then a else b) = key := by
      funext b
      dsimp only [Function.comp_apply]
      split
      · exact (beq_iff_eq.mp ‹_›).symm
      · rfl
    rw [hplaces, hrecords, List.map_map, hkeys]
    exact h k i
  · obtain ⟨hplaces, hrecords⟩ := toList_put_of_notMem h ha
    rw [hplaces, hrecords, List.map_append, List.map_singleton, Std.HashMap.getElem?_insert,
      List.getElem?_append, List.length_map, Array.length_toList]
    by_cases hk : key a = k
    · subst hk
      have hold : (s.records.toList.map key)[i]? ≠ some (key a) := fun hi =>
        ha (List.mem_of_getElem? hi)
      rw [if_pos (beq_self_eq_true _)]
      split
      · simp only [hold, iff_false, Option.some.injEq]
        omega
      · rw [List.getElem?_singleton, Option.some.injEq]
        split <;> simp only [reduceCtorEq, iff_true, iff_false] <;> omega
    · have hi := h k i
      rw [if_neg (fun hb => hk (beq_iff_eq.mp hb))]
      split
      · exact hi
      case isFalse hlt =>
        have hout : (s.records.toList.map key)[i]? = none := by
          rw [List.getElem?_eq_none_iff, List.length_map, Array.length_toList]
          omega
        rw [hi, hout, List.getElem?_singleton]
        split <;> simp [hk]

end Slots

variable [LawfulBEq κ] [LawfulHashable κ]

theorem isIndexed_foldl (key : α → κ) (records : List α) :
    (records.foldl (Slots.put key) Slots.empty).IsIndexed key := by
  induction records using List.reverseRecOn with
  | nil => exact Slots.isIndexed_empty
  | append_singleton records a ih =>
    rw [List.foldl_append]
    exact ih.put a

theorem latestBy_concat (key : α → κ) (records : List α) (a : α) :
    latestBy key (records ++ [a]) =
      if key a ∈ (latestBy key records).map key then
        (latestBy key records).map fun b => if key b == key a then a else b
      else latestBy key records ++ [a] := by
  have h := isIndexed_foldl key records
  rw [latestBy, List.foldl_append]
  split
  case isTrue ha => exact (Slots.toList_put_of_mem h ha).2
  case isFalse ha => exact (Slots.toList_put_of_notMem h ha).2

theorem latestBy_singleton (key : α → κ) (a : α) : latestBy key [a] = [a] :=
  latestBy_concat key [] a

/-- The records that collapsing leaves: for each key the last record that has it. -/
theorem latestBy_eq (key : α → κ) (records : List α) :
    latestBy key records =
      (records.map key).eraseDups.filterMap fun k => records.findRev? fun a => key a == k := by
  induction records using List.reverseRecOn with
  | nil => rfl
  | append_singleton records a ih =>
    -- The last record with a key is the new one for its own key and stays for every other.
    have hold : ∀ k, k ≠ key a → ((records ++ [a]).findRev? fun b => key b == k) =
        records.findRev? fun b => key b == k := by
      intro k hk
      rw [findRev?_concat, if_neg (fun hb => hk (beq_iff_eq.mp hb).symm)]
    have hnew : ((records ++ [a]).findRev? fun b => key b == key a) = some a := by
      rw [findRev?_concat, if_pos (beq_self_eq_true _)]
    rw [latestBy_concat, List.map_append, List.map_singleton, eraseDups_concat]
    by_cases ha : key a ∈ records.map key
    · rw [if_pos ha, if_pos (by rwa [ih, map_latest, List.mem_eraseDups]), ih, List.map_filterMap]
      refine List.filterMap_congr fun k hk => ?_
      obtain ⟨b, hb, hkey⟩ := exists_findRev? (List.mem_eraseDups.mp hk)
      rw [hb, Option.map_some]
      by_cases hka : k = key a
      · rw [hka, hnew, if_pos (beq_iff_eq.mpr (hkey.trans hka))]
      · rw [hold k hka, hb, if_neg (fun h => hka (hkey.symm.trans (beq_iff_eq.mp h)))]
    · have hrest : ∀ k ∈ (records.map key).eraseDups,
          ((records ++ [a]).findRev? fun b => key b == k) =
            records.findRev? fun b => key b == k := by
        intro k hk
        exact hold k fun heq => ha (heq ▸ List.mem_eraseDups.mp hk)
      rw [if_neg ha, if_neg (by rwa [ih, map_latest, List.mem_eraseDups]), List.filterMap_append,
        List.filterMap_congr hrest, ← ih, List.filterMap_cons, hnew]
      rfl

theorem map_latestBy (key : α → κ) (records : List α) :
    (latestBy key records).map key = (records.map key).eraseDups := by
  rw [latestBy_eq, map_latest]

theorem nodup_map_latestBy (key : α → κ) (records : List α) :
    ((latestBy key records).map key).Nodup := by
  rw [map_latestBy]
  exact nodup_eraseDups _

/-- No record behind one that collapsing leaves has its key. -/
theorem last_of_mem_latestBy {records : List α} {a : α} (h : a ∈ latestBy key records) :
    ∃ before after, records = before ++ a :: after ∧ ∀ b ∈ after, key b ≠ key a := by
  rw [latestBy_eq] at h
  obtain ⟨k, -, hk⟩ := List.mem_filterMap.mp h
  obtain ⟨hkey, before, after, heq, hafter⟩ := findRev?_eq_some_iff_append.mp hk
  refine ⟨before, after, heq, fun b hb hkeys => ?_⟩
  have hother := hafter b hb
  rw [hkeys, hkey] at hother
  cases hother

theorem mem_of_mem_latestBy {records : List α} {a : α} (h : a ∈ latestBy key records) :
    a ∈ records := by
  obtain ⟨before, after, rfl, -⟩ := last_of_mem_latestBy h
  exact List.mem_append_right _ List.mem_cons_self

end AntRegister
