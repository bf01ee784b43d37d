import AntRegister.Legacy.Pool
import Mathlib.Algebra.BigOperators.Group.List.Basic
import Mathlib.Algebra.GroupWithZero.Nat
import Mathlib.Data.List.Perm.Basic
/-! What one turn does to a pool of workers, and why turns run out. A turn touches one worker, so
the workers are compared up to their order: before it `w` and the others, after it `w'` and the
same others. -/

namespace AntRegister

variable {β ε α : Type}

/-- How many turns a worker can take at most before it takes another item. -/
def Stage.turnsLeft : Stage β ε α → Nat
  | .finished => 0
  | .admitted => 1
  | .ready => 2
  | .answered _ _ => 3
  | .failing _ _ => 4
  | .holding _ _ => 5

instance (stage : Stage β ε α) : Decidable (stage = .finished) :=
  match stage with
  | .finished => .isTrue rfl
  | .ready | .admitted | .holding _ _ | .failing _ _ | .answered _ _ => .isFalse nofun

namespace Pool

variable {items : List β} {ask : β → Except ε α}

/-- What a worker does in its turn, with the next place and the flag before and after. A worker may
go on whatever the flag says, since it may read an old value. -/
inductive Act (items : List β) (ask : β → Except ε α) (next : Nat) (failed : Bool) :
    Worker β ε α → Nat → Bool → Worker β ε α → Prop
  | enter (kept : List (Nat × Except ε α)) :
    Act items ask next failed ⟨.ready, kept⟩ next failed ⟨.admitted, kept⟩
  | stop (kept : List (Nat × Except ε α)) (h : failed = true) :
    Act items ask next failed ⟨.ready, kept⟩ next failed ⟨.finished, kept⟩
  | take (kept : List (Nat × Except ε α)) {item : β} (h : items[next]? = some item) :
    Act items ask next failed ⟨.admitted, kept⟩ (next + 1) failed ⟨.holding next item, kept⟩
  | exhaust (kept : List (Nat × Except ε α)) (h : items.length ≤ next) :
    Act items ask next failed ⟨.admitted, kept⟩ (next + 1) failed ⟨.finished, kept⟩
  | find (kept : List (Nat × Except ε α)) (i : Nat) {item : β} {a : α} (h : ask item = .ok a) :
    Act items ask next failed ⟨.holding i item, kept⟩ next failed ⟨.answered i (.ok a), kept⟩
  | miss (kept : List (Nat × Except ε α)) (i : Nat) {item : β} {e : ε} (h : ask item = .error e) :
    Act items ask next failed ⟨.holding i item, kept⟩ next failed ⟨.failing i e, kept⟩
  | tell (kept : List (Nat × Except ε α)) (i : Nat) (e : ε) :
    Act items ask next failed ⟨.failing i e, kept⟩ next true ⟨.answered i (.error e), kept⟩
  | keep (kept : List (Nat × Except ε α)) (i : Nat) (answer : Except ε α) :
    Act items ask next failed ⟨.answered i answer, kept⟩ next failed
      ⟨.ready, kept ++ [(i, answer)]⟩

theorem move_of_finished {p : Pool β ε α} {t : Turn} (h : p.stageAt t.worker = .finished) :
    p.move items ask t = p := by
  simp only [move, h]

/-- A worker that has not finished acts in its turn, and the others stay as they are. -/
theorem move_eq_modify (items : List β) (ask : β → Except ε α) {p : Pool β ε α} {t : Turn}
    {w : Worker β ε α} (hw : p.workers[t.worker]? = some w) (h : w.stage ≠ .finished) :
    ∃ next failed f, p.move items ask t = ⟨next, failed, p.workers.modify t.worker f⟩ ∧
      Act items ask p.next p.failed w next failed (f w) := by
  obtain ⟨stage, kept⟩ := w
  have hs : p.stageAt t.worker = stage := by simp [stageAt, hw]
  cases stage with
  | finished => exact absurd rfl h
  | ready =>
    by_cases hf : (p.failed && !t.stale) = true
    · refine ⟨_, _, _, by simp only [move, hs, hf, if_true]; rfl, .stop kept ?_⟩
      exact (Bool.and_eq_true_iff.mp hf).1
    · exact ⟨_, _, _, by simp only [move, hs, hf]; rfl, .enter kept⟩
  | admitted =>
    cases hi : items[p.next]? with
    | some item => exact ⟨_, _, _, by simp only [move, hs, hi]; rfl, .take kept hi⟩
    | none =>
      refine ⟨_, _, _, by simp only [move, hs, hi]; rfl, .exhaust kept ?_⟩
      exact List.getElem?_eq_none_iff.mp hi
  | holding i item =>
    cases ha : ask item with
    | ok a => exact ⟨_, _, _, by simp only [move, hs, ha, stageOf]; rfl, .find kept i ha⟩
    | error e => exact ⟨_, _, _, by simp only [move, hs, ha, stageOf]; rfl, .miss kept i ha⟩
  | failing i e => exact ⟨_, _, _, by simp only [move, hs]; rfl, .tell kept i e⟩
  | answered i answer => exact ⟨_, _, _, by simp only [move, hs]; rfl, .keep kept i answer⟩

theorem modify_perm {γ : Type} {l : List γ} {k : Nat} {w : γ} (h : l[k]? = some w) (f : γ → γ) :
    (l.modify k f).Perm (f w :: l.eraseIdx k) := by
  obtain ⟨hk, rfl⟩ := List.getElem?_eq_some_iff.mp h
  have hset : l.modify k f = l.set k (f l[k]) := by
    rw [List.modify_eq_take_cons_drop hk, List.set_eq_take_append_cons_drop, if_pos hk]
  exact hset ▸ List.set_perm_cons_eraseIdx hk _

/-- A turn is of a worker that has finished, and changes nothing, or it is an act of one worker. -/
theorem move_cases (items : List β) (ask : β → Except ε α) (p : Pool β ε α) (t : Turn) :
    (p.stageAt t.worker = .finished ∧ p.move items ask t = p) ∨
      ∃ w w' others, p.stageAt t.worker = w.stage ∧ p.workers.Perm (w :: others) ∧
        (p.move items ask t).workers.Perm (w' :: others) ∧
        Act items ask p.next p.failed w (p.move items ask t).next
          (p.move items ask t).failed w' := by
  by_cases h : p.stageAt t.worker = .finished
  · exact .inl ⟨h, move_of_finished h⟩
  cases hw : p.workers[t.worker]? with
  | none => exact absurd (by simp [stageAt, hw]) h
  | some w =>
    have hs : p.stageAt t.worker = w.stage := by simp [stageAt, hw]
    obtain ⟨next, failed, f, hmove, act⟩ := move_eq_modify items ask hw (hs ▸ h)
    have hperm : p.workers.Perm (w :: p.workers.eraseIdx t.worker) := by
      simpa using modify_perm hw id
    rw [hmove]
    exact .inr ⟨w, f w, _, hs, hperm, modify_perm hw f, act⟩

@[simp] theorem run_nil (p : Pool β ε α) : p.run items ask [] = p := rfl

@[simp] theorem run_cons (p : Pool β ε α) (t : Turn) (ts : List Turn) :
    p.run items ask (t :: ts) = (p.move items ask t).run items ask ts := rfl

/-- What every turn preserves holds after any schedule. -/
theorem run_induction {P : Pool β ε α → Prop} (step : ∀ p t, P p → P (p.move items ask t))
    {p : Pool β ε α} (h : P p) (ts : List Turn) : P (p.run items ask ts) := by
  induction ts generalizing p with
  | nil => exact h
  | cons t ts ih => exact ih (step p t h)

theorem isFinished_iff (p : Pool β ε α) :
    p.isFinished = true ↔ ∀ w ∈ p.workers, w.stage = .finished := by
  rw [isFinished, List.all_eq_true]
  refine forall₂_congr fun w _ => ?_
  cases w.stage <;> simp

theorem exists_stageAt_ne_finished {p : Pool β ε α} (h : p.isFinished = false) :
    ∃ k, p.stageAt k ≠ .finished := by
  have hw : ¬ ∀ w ∈ p.workers, w.stage = .finished := by rw [← isFinished_iff, h]; decide
  push Not at hw
  obtain ⟨w, hmem, hs⟩ := hw
  obtain ⟨k, hk, rfl⟩ := List.mem_iff_getElem.mp hmem
  exact ⟨k, by simpa [stageAt, hk] using hs⟩

/-- Turns of workers that have not finished, as a run consists of them. -/
def IsRun (items : List β) (ask : β → Except ε α) : Pool β ε α → List Turn → Prop
  | _, [] => True
  | p, t :: ts => p.stageAt t.worker ≠ .finished ∧ IsRun items ask (p.move items ask t) ts

instance instDecidableIsRun (items : List β) (ask : β → Except ε α) :
    (p : Pool β ε α) → (ts : List Turn) → Decidable (p.IsRun items ask ts)
  | _, [] => .isTrue trivial
  | p, t :: ts =>
    have := instDecidableIsRun items ask (p.move items ask t) ts
    inferInstanceAs (Decidable (p.stageAt t.worker ≠ .finished ∧ IsRun ..))

theorem isRun_concat {p : Pool β ε α} {ts : List Turn} {t : Turn} :
    p.IsRun items ask (ts ++ [t]) ↔
      p.IsRun items ask ts ∧ (p.run items ask ts).stageAt t.worker ≠ .finished := by
  induction ts generalizing p with
  | nil => simp [IsRun]
  | cons u ts ih => simp only [List.cons_append, IsRun, run_cons, ih, and_assoc]

/-- A bound on the turns that are left: five for every item that nobody has taken, and those that
the workers can take without another item. -/
def turnsLeft (n : Nat) (p : Pool β ε α) : Nat :=
  5 * (n - p.next) + (p.workers.map fun w => w.stage.turnsLeft).sum

theorem turnsLeft_of_perm {n : Nat} {p : Pool β ε α} {w : Worker β ε α}
    {others : List (Worker β ε α)} (h : p.workers.Perm (w :: others)) :
    p.turnsLeft n =
      5 * (n - p.next) + w.stage.turnsLeft + (others.map fun w => w.stage.turnsLeft).sum := by
  rw [turnsLeft, (h.map _).sum_eq, List.map_cons, List.sum_cons, Nat.add_assoc]

theorem turnsLeft_start (wanted n : Nat) :
    (start wanted n : Pool β ε α).turnsLeft n = 5 * n + 2 * size wanted n := by
  simp [turnsLeft, start, Stage.turnsLeft, Nat.mul_comm]

theorem Act.turnsLeft_lt {next next' : Nat} {failed failed' : Bool} {w w' : Worker β ε α}
    (h : Act items ask next failed w next' failed' w') :
    5 * (items.length - next') + w'.stage.turnsLeft <
      5 * (items.length - next) + w.stage.turnsLeft := by
  cases h with
  | take kept hi =>
    have hlt : next < items.length := (List.getElem?_eq_some_iff.mp hi).1
    simp only [Stage.turnsLeft]
    omega
  | exhaust kept hle =>
    simp only [Stage.turnsLeft]
    omega
  | _ => simp [Stage.turnsLeft]

theorem turnsLeft_move_lt (items : List β) (ask : β → Except ε α) {p : Pool β ε α} {t : Turn}
    (h : p.stageAt t.worker ≠ .finished) :
    (p.move items ask t).turnsLeft items.length < p.turnsLeft items.length := by
  rcases move_cases items ask p t with ⟨hs, -⟩ | ⟨w, w', others, -, hp, hp', act⟩
  · exact absurd hs h
  · rw [turnsLeft_of_perm hp, turnsLeft_of_perm hp']
    exact Nat.add_lt_add_right act.turnsLeft_lt _

theorem IsRun.length_le {p : Pool β ε α} {ts : List Turn} (h : p.IsRun items ask ts) :
    ts.length ≤ p.turnsLeft items.length := by
  induction ts generalizing p with
  | nil => simp
  | cons t ts ih =>
    have hlt := turnsLeft_move_lt items ask h.1
    have hrest := ih h.2
    rw [List.length_cons]
    omega

/-- A run that cannot go on has finished all workers. -/
theorem IsRun.isFinished_or_concat {p : Pool β ε α} {ts : List Turn} (h : p.IsRun items ask ts) :
    (p.run items ask ts).isFinished = true ∨ ∃ t, p.IsRun items ask (ts ++ [t]) := by
  cases hf : (p.run items ask ts).isFinished with
  | true => exact .inl rfl
  | false =>
    obtain ⟨k, hk⟩ := exists_stageAt_ne_finished hf
    exact .inr ⟨⟨k, false⟩, isRun_concat.mpr ⟨h, hk⟩⟩

end Pool

end AntRegister
