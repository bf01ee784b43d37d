import AntRegister.Release.Basic
import Mathlib.Data.Finset.Sort
/-! The different members of a list: in the order in which they come first, and in ascending order
as a sorted finite set. -/

namespace AntRegister

variable {α : Type}

theorem nodup_eraseDups [BEq α] [LawfulBEq α] (xs : List α) : xs.eraseDups.Nodup := by
  induction h : xs.length using Nat.strongRecOn generalizing xs with
  | ind n ih =>
    cases xs with
    | nil => simp
    | cons x xs =>
      have hlt : (xs.filter fun y => !y == x).length < n :=
        h ▸ Nat.lt_succ_of_le (List.length_filter_le ..)
      rw [List.eraseDups_cons, List.nodup_cons]
      exact ⟨by simp [List.mem_eraseDups], ih _ hlt _ rfl⟩

theorem eraseDups_concat [BEq α] [LawfulBEq α] (xs : List α) (x : α) :
    (xs ++ [x]).eraseDups = if x ∈ xs then xs.eraseDups else xs.eraseDups ++ [x] := by
  rw [List.eraseDups_append, List.cons_removeAll, List.nil_removeAll]
  have hone : [x].eraseDups = [x] := rfl
  by_cases h : x ∈ xs <;> simp [h, hone]

theorem eraseDups_of_nodup [BEq α] [LawfulBEq α] {ks : List α} (h : ks.Nodup) :
    ks.eraseDups = ks := by
  induction ks using List.reverseRecOn with
  | nil => rfl
  | append_singleton ks k ih =>
    obtain ⟨hks, -, hk⟩ := List.nodup_append.mp h
    have hnew : k ∉ ks := fun hmem => hk k hmem k List.mem_cons_self rfl
    rw [eraseDups_concat, if_neg hnew, ih hks]

theorem eraseDups_append_eraseDups [BEq α] [LawfulBEq α] (ks ls : List α) :
    (ks.eraseDups ++ ls.eraseDups).eraseDups = (ks ++ ls).eraseDups := by
  induction ls using List.reverseRecOn with
  | nil => rw [List.eraseDups_nil, List.append_nil, List.append_nil,
      eraseDups_of_nodup (nodup_eraseDups ks)]
  | append_singleton ls l ih =>
    have hmem : l ∈ ks.eraseDups ++ ls.eraseDups ↔ l ∈ ks ++ ls := by
      simp only [List.mem_append, List.mem_eraseDups]
    rw [← List.append_assoc, eraseDups_concat (ks ++ ls), eraseDups_concat ls, ← ih]
    by_cases hl : l ∈ ls
    · rw [if_pos hl, if_pos (List.mem_append_right ks hl)]
    · rw [if_neg hl, ← List.append_assoc, eraseDups_concat]
      simp only [hmem]

theorem eraseDups_map [BEq α] {β : Type} [BEq β] {c : α → β}
    (h : ∀ k l, (c k == c l) = (k == l)) (ks : List α) :
    (ks.map c).eraseDups = ks.eraseDups.map c := by
  induction hn : ks.length using Nat.strongRecOn generalizing ks with
  | ind n ih =>
    cases ks with
    | nil => rfl
    | cons k ks =>
      -- the recursion is on what is left after the repetitions of the head are taken out
      have hlt : (ks.filter fun l => !l == k).length < n :=
        hn ▸ Nat.lt_succ_of_le (List.length_filter_le ..)
      have hrest : (ks.map c).filter (fun l => !l == c k) =
          (ks.filter fun l => !l == k).map c := by
        rw [List.filter_map]
        simp only [Function.comp_def, h]
      rw [List.map_cons, List.eraseDups_cons, List.eraseDups_cons, List.map_cons, hrest,
        ih _ hlt _ rfl]

variable [LinearOrder α]

theorem sortedDistinct_eq_sort [BEq α] [LawfulBEq α] {le : α → α → Bool}
    (hle : ∀ a b, le a b = true ↔ a ≤ b) (xs : List α) :
    sortedDistinct le xs = xs.toFinset.sort := by
  have hsort : (sortedDistinct le xs).Pairwise (· ≤ ·) := by
    refine (List.pairwise_mergeSort ?_ ?_ _).imp fun {a b} h => (hle a b).mp h
    · intro a b c hab hbc
      exact (hle a c).mpr (((hle a b).mp hab).trans ((hle b c).mp hbc))
    · intro a b
      rw [Bool.or_eq_true, hle, hle]
      exact le_total a b
  have hnodup : (sortedDistinct le xs).Nodup :=
    (List.mergeSort_perm _ _).nodup_iff.mpr (nodup_eraseDups xs)
  refine List.Perm.eq_of_pairwise (fun a b _ _ => le_antisymm) hsort (Finset.pairwise_sort _ _) ?_
  refine (List.perm_ext_iff_of_nodup hnodup (Finset.sort_nodup _ _)).mpr fun a => ?_
  rw [sortedDistinct, List.mem_mergeSort, List.mem_eraseDups, Finset.mem_sort, List.mem_toFinset]

/-- The releases of records are the different numbers among them, ascending. -/
theorem releasesOf_eq (records : List (Released Resident)) :
    releasesOf records = ((records.map fun r => r.release).toFinset.sort).map .mk := by
  rw [releasesOf, sortedDistinct_eq_sort fun a b => decide_eq_true_iff]

end AntRegister
