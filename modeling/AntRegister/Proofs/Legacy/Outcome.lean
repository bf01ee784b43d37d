import AntRegister.Legacy.Basic
import AntRegister.Proofs.Legacy.Shares
import AntRegister.Proofs.Sequence
/-! What a finished pool answers: the same as asking for the items one after the other, whatever the
number of workers and the order of their turns. -/

namespace AntRegister

open scoped List

variable {β ε α γ : Type}

theorem filterMap_keys {value : Nat → Option γ} {l : List (Nat × γ)}
    (h : ∀ a ∈ l, value a.1 = some a.2) :
    (l.map fun a => a.1).filterMap (fun i => (value i).map fun b => (i, b)) = l := by
  induction l with
  | nil => rfl
  | cons a l ih =>
    rw [List.map_cons, List.filterMap_cons_some (b := a) (by simp [h a List.mem_cons_self]),
      ih fun b hb => h b (List.mem_cons_of_mem _ hb)]

/-- Pairs whose second parts hang on the first are sorted by them in one way only. -/
theorem mergeSort_eq_of_keys (value : Nat → Option γ) {l l' : List (Nat × γ)}
    (h : ∀ a ∈ l, value a.1 = some a.2) (h' : ∀ a ∈ l', value a.1 = some a.2)
    (hkeys : l.map (fun a => a.1) ~ l'.map fun a => a.1)
    (hsorted : (l'.map fun a => a.1).Pairwise (· ≤ ·)) :
    (l.mergeSort fun a b => a.1 ≤ b.1) = l' := by
  have hperm : l ~ l' := by
    rw [← filterMap_keys h, ← filterMap_keys h']
    exact hkeys.filterMap _
  have hsort : (l.mergeSort fun a b => a.1 ≤ b.1).Pairwise fun a b => a.1 ≤ b.1 := by
    refine (List.pairwise_mergeSort ?_ ?_ _).imp fun {a b} h => of_decide_eq_true h
    · intro a b c hab hbc
      exact decide_eq_true (Nat.le_trans (of_decide_eq_true hab) (of_decide_eq_true hbc))
    · intro a b
      rw [Bool.or_eq_true, decide_eq_true_eq, decide_eq_true_eq]
      exact Nat.le_total a.1 b.1
  refine List.Perm.eq_of_pairwise ?_ hsort (List.pairwise_map.mp hsorted)
    ((List.mergeSort_perm _ _).trans hperm)
  intro a b ha hb hab hba
  have hfst : a.1 = b.1 := Nat.le_antisymm hab hba
  have hsnd : some a.2 = some b.2 := by
    rw [← h a (List.mem_mergeSort.mp ha), ← h' b hb, hfst]
  exact Prod.ext hfst (Option.some.inj hsnd)

namespace Pool

variable {items : List β} {ask : β → Except ε α} {p : Pool β ε α}

theorem Shared.answers_eq (h : p.Shared items ask) (hf : p.isFinished = true) :
    p.answers = (items.take p.next).zipIdx.map fun a => (a.2, ask a.1) := by
  have hplaces : ∀ w ∈ p.workers, w.places = w.kept.map fun a => a.1 := by
    intro w hw
    rw [Worker.places, (isFinished_iff p).mp hf w hw]
    exact List.append_nil _
  have hkeys : ((items.take p.next).zipIdx.map fun a => (a.2, ask a.1)).map (fun a => a.1) =
      List.range (min p.next items.length) := by
    rw [List.map_map, List.range_eq_range', ← List.length_take]
    exact List.zipIdx_map_snd ..
  refine mergeSort_eq_of_keys (fun i => items[i]?.map ask) ?_ ?_ ?_ ?_
  · intro a ha
    obtain ⟨w, hw, ha⟩ := List.mem_flatMap.mp ha
    exact (h.honest w hw).kept a ha
  · intro a ha
    obtain ⟨⟨item, i⟩, hmem, rfl⟩ := List.mem_map.mp ha
    have hitem := List.mk_mem_zipIdx_iff_getElem?.mp hmem
    rw [List.getElem?_take] at hitem
    split at hitem <;> simp_all
  · rw [hkeys, List.map_flatMap, ← List.flatMap_congr hplaces]
    exact h.places
  · rw [hkeys]
    exact List.pairwise_le_range

/-- A finished pool gives what the sequence of its items gives. -/
theorem Shared.outcome_eq (h : p.Shared items ask) (hf : p.isFinished = true)
    (hw : p.workers ≠ []) : p.outcome = items.mapM ask := by
  have htake : p.outcome = (items.take p.next).mapM ask := by
    rw [outcome, h.answers_eq hf, List.mapM_map]
    conv_rhs => rw [← List.zipIdx_map_fst 0 (items.take p.next), List.mapM_map]
    rfl
  obtain ⟨w, hmem⟩ := List.exists_mem_of_ne_nil _ hw
  rw [htake]
  -- Workers stop early only if an item that was taken failed, and the error comes from there.
  rcases h.finished w hmem ((isFinished_iff p).mp hf w hmem) with hfailed | hle
  · obtain ⟨i, hi, e, he⟩ := h.failed hfailed
    exact mapM_take_eq hi he
  · rw [List.take_of_length_le hle]

theorem outcome_run (wanted : Nat) (ts : List Turn)
    (hf : ((start wanted items.length).run items ask ts).isFinished = true) :
    ((start wanted items.length).run items ask ts).outcome = items.mapM ask := by
  refine (shared_run wanted ts).outcome_eq hf fun hnil => ?_
  have hlen := length_workers_run items ask (start wanted items.length) ts
  rw [hnil, start, List.length_replicate, size] at hlen
  simp only [List.length_nil] at hlen
  omega

end Pool

end AntRegister
