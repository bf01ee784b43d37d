import AntRegister.Proofs.Legacy.Turns
/-! How a pool shares its items out. After any turns the items that have been taken are a first part
of the list, each of them is with exactly one worker, and every answer is the one that asking gives.
The flag is only set when an item that has been taken has no answer. -/

namespace AntRegister

open scoped List

variable {β ε α : Type}

/-- The place of the item that a worker is busy with. -/
def Stage.place? : Stage β ε α → Option Nat
  | .holding i _ | .failing i _ | .answered i _ => some i
  | _ => none

/-- Whether a worker is busy with an item of the list and has the right answer to it. -/
def Stage.Honest (items : List β) (ask : β → Except ε α) : Stage β ε α → Prop
  | .holding i item => items[i]? = some item
  | .failing i e => items[i]?.map ask = some (.error e)
  | .answered i answer => items[i]?.map ask = some answer
  | _ => True

namespace Worker

/-- The places of all items that a worker has taken. -/
def places (w : Worker β ε α) : List Nat := w.kept.map (fun a => a.1) ++ w.stage.place?.toList

structure Honest (items : List β) (ask : β → Except ε α) (w : Worker β ε α) : Prop where
  stage : w.stage.Honest items ask
  kept : ∀ a ∈ w.kept, items[a.1]?.map ask = some a.2

end Worker

namespace Pool

variable {items : List β} {ask : β → Except ε α}

structure Shared (items : List β) (ask : β → Except ε α) (p : Pool β ε α) : Prop where
  places : p.workers.flatMap Worker.places ~ List.range (min p.next items.length)
  honest : ∀ w ∈ p.workers, w.Honest items ask
  failed : p.failed = true → ∃ i < p.next, ∃ e, items[i]?.map ask = some (.error e)
  finished : ∀ w ∈ p.workers, w.stage = .finished → p.failed = true ∨ items.length ≤ p.next

theorem shared_start (wanted : Nat) : (start wanted items.length).Shared items ask where
  places := by simp [start, Worker.places, Stage.place?]
  honest := by
    intro w hw
    rw [(List.mem_replicate.mp hw).2]
    exact ⟨trivial, fun a ha => absurd ha List.not_mem_nil⟩
  failed h := absurd h Bool.false_ne_true
  finished := by
    intro w hw h
    rw [(List.mem_replicate.mp hw).2] at h
    exact absurd h (by simp)

namespace Act

variable {next next' : Nat} {failed failed' : Bool} {w w' : Worker β ε α}

theorem next_le (h : Act items ask next failed w next' failed' w') : next ≤ next' := by
  cases h <;> simp

theorem failed_of_failed (h : Act items ask next failed w next' failed' w')
    (hf : failed = true) : failed' = true := by
  cases h <;> first | exact hf | rfl

/-- The items that an act takes are those that it counts. -/
theorem places_eq (h : Act items ask next failed w next' failed' w') :
    ∃ taken, w'.places = w.places ++ taken ∧
      List.range (min next' items.length) = List.range (min next items.length) ++ taken := by
  cases h with
  | take kept hi =>
    have hlt : next < items.length := (List.getElem?_eq_some_iff.mp hi).1
    refine ⟨[next], by simp [Worker.places, Stage.place?], ?_⟩
    rw [Nat.min_eq_left hlt, Nat.min_eq_left (Nat.le_of_lt hlt), List.range_succ]
  | exhaust kept hle =>
    refine ⟨[], by simp [Worker.places, Stage.place?], ?_⟩
    rw [Nat.min_eq_right hle, Nat.min_eq_right (Nat.le_succ_of_le hle), List.append_nil]
  | _ => exact ⟨[], by simp [Worker.places, Stage.place?], by simp⟩

theorem honest (h : Act items ask next failed w next' failed' w') (hw : w.Honest items ask) :
    w'.Honest items ask := by
  cases h with
  | enter kept | stop kept _ | exhaust kept _ => exact ⟨trivial, hw.kept⟩
  | take kept hi => exact ⟨hi, hw.kept⟩
  | find kept i ha | miss kept i ha =>
    have hitem : items[i]? = some _ := hw.stage
    exact ⟨by simp [Stage.Honest, hitem, ha], hw.kept⟩
  | tell kept i e => exact ⟨hw.stage, hw.kept⟩
  | keep kept i answer =>
    refine ⟨trivial, fun a ha => ?_⟩
    rcases List.mem_append.mp ha with ha | ha
    · exact hw.kept a ha
    · rw [List.mem_singleton.mp ha]
      exact hw.stage

/-- Only a worker whose item has no answer sets the flag. -/
theorem failed_cases (h : Act items ask next failed w next' failed' w') (hf : failed' = true) :
    failed = true ∨ ∃ i e, w.stage = .failing i e := by
  cases h with
  | tell kept i e => exact .inr ⟨i, e, rfl⟩
  | _ => exact .inl hf

theorem of_finished (h : Act items ask next failed w next' failed' w')
    (hs : w'.stage = .finished) : failed' = true ∨ items.length ≤ next' := by
  cases h with
  | stop kept hf => exact .inl hf
  | exhaust kept hle => exact .inr (Nat.le_succ_of_le hle)
  | _ => exact absurd hs (by simp)

end Act

/-- The places that all workers have taken, when one of them takes more. -/
theorem flatMap_places_perm {ws ws' others : List (Worker β ε α)} {w w' : Worker β ε α}
    {taken : List Nat} (h : ws ~ w :: others) (h' : ws' ~ w' :: others)
    (hplaces : w'.places = w.places ++ taken) :
    ws'.flatMap Worker.places ~ ws.flatMap Worker.places ++ taken :=
  calc ws'.flatMap Worker.places
    _ ~ (w' :: others).flatMap Worker.places := h'.flatMap_right _
    _ = w.places ++ (taken ++ others.flatMap Worker.places) := by
      rw [List.flatMap_cons, hplaces, List.append_assoc]
    _ ~ w.places ++ (others.flatMap Worker.places ++ taken) :=
      List.perm_append_comm.append_left _
    _ = (w :: others).flatMap Worker.places ++ taken := by
      rw [List.flatMap_cons, List.append_assoc]
    _ ~ ws.flatMap Worker.places ++ taken := (h.symm.flatMap_right _).append_right _

theorem Shared.lt_next {p : Pool β ε α} (h : p.Shared items ask) {w : Worker β ε α}
    (hw : w ∈ p.workers) {i : Nat} (hi : i ∈ w.places) : i < p.next := by
  have hplace : i ∈ List.range (min p.next items.length) :=
    h.places.mem_iff.mp (List.mem_flatMap.mpr ⟨w, hw, hi⟩)
  exact (Nat.lt_min.mp (List.mem_range.mp hplace)).1

/-- The flag is set by a worker that has taken an item without an answer. -/
theorem Shared.exists_error {p : Pool β ε α} (h : p.Shared items ask) {w : Worker β ε α}
    (hw : w ∈ p.workers) {i : Nat} {e : ε} (hs : w.stage = .failing i e) :
    ∃ i < p.next, ∃ e, items[i]?.map ask = some (.error e) := by
  have hhonest : w.stage.Honest items ask := (h.honest w hw).stage
  rw [hs] at hhonest
  exact ⟨i, h.lt_next hw (by simp [Worker.places, Stage.place?, hs]), e, hhonest⟩

theorem Shared.move {p : Pool β ε α} (h : p.Shared items ask) (t : Turn) :
    (p.move items ask t).Shared items ask := by
  rcases move_cases items ask p t with ⟨-, hmove⟩ | ⟨w, w', others, -, hp, hp', act⟩
  · exact hmove.symm ▸ h
  have hw : w ∈ p.workers := hp.mem_iff.mpr List.mem_cons_self
  have hothers : ∀ v ∈ others, v ∈ p.workers := fun v hv =>
    hp.mem_iff.mpr (List.mem_cons_of_mem _ hv)
  have hmem : ∀ v ∈ (p.move items ask t).workers, v = w' ∨ v ∈ others := fun v hv =>
    List.mem_cons.mp (hp'.mem_iff.mp hv)
  -- Only `w` changes, and what its act takes is what the counter goes on by.
  constructor
  case places =>
    obtain ⟨taken, hplaces, hrange⟩ := act.places_eq
    rw [hrange]
    exact (flatMap_places_perm hp hp' hplaces).trans (h.places.append_right _)
  case honest =>
    intro v hv
    rcases hmem v hv with rfl | hv
    · exact act.honest (h.honest w hw)
    · exact h.honest v (hothers v hv)
  case failed =>
    intro hf
    obtain ⟨i, hi, he⟩ : ∃ i < p.next, ∃ e, items[i]?.map ask = some (.error e) := by
      rcases act.failed_cases hf with hf | ⟨i, e, hs⟩
      · exact h.failed hf
      · exact h.exists_error hw hs
    exact ⟨i, Nat.lt_of_lt_of_le hi act.next_le, he⟩
  case finished =>
    intro v hv hs
    rcases hmem v hv with rfl | hv
    · exact act.of_finished hs
    · exact (h.finished v (hothers v hv) hs).imp act.failed_of_failed fun hle =>
        Nat.le_trans hle act.next_le

theorem shared_run (wanted : Nat) (ts : List Turn) :
    ((start wanted items.length).run items ask ts).Shared items ask :=
  run_induction (fun _ t h => h.move t) (shared_start wanted) ts

/-- No turn adds or removes a worker. -/
theorem length_workers_run (items : List β) (ask : β → Except ε α) (p : Pool β ε α)
    (ts : List Turn) :
    (p.run items ask ts).workers.length = p.workers.length := by
  refine run_induction (P := fun q => q.workers.length = p.workers.length) ?_ rfl ts
  intro q t hq
  rcases move_cases items ask q t with ⟨-, hmove⟩ | ⟨w, w', others, -, hp, hp', -⟩
  · rw [hmove, hq]
  · rw [hp'.length_eq, ← hq, hp.length_eq, List.length_cons, List.length_cons]

end Pool

end AntRegister
