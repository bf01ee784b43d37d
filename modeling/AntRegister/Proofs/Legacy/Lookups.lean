import AntRegister.Proofs.Legacy.Shares
/-! What a pool looks up. An item is looked up by the worker that has taken it, and by no one again.
Once the pool has been told of a failure, only the workers that have read the flag before that look
anything up, each of them at most once. -/

namespace AntRegister

open scoped List

variable {β ε α : Type}

/-- The place of the item that a worker in this stage looks up in its next turn. -/
def Stage.awaited? : Stage β ε α → Option Nat
  | .holding i _ => some i
  | _ => none

/-- Whether a worker in this stage can look an item up before it reads the flag again. -/
def Stage.isUnderway : Stage β ε α → Bool
  | .admitted | .holding _ _ => true
  | _ => false

theorem Worker.mem_places_of_awaited {w : Worker β ε α} {i : Nat}
    (h : w.stage.awaited? = some i) : i ∈ w.places := by
  obtain ⟨stage, kept⟩ := w
  cases stage with
  | holding j item =>
    obtain rfl := Option.some.inj h
    exact List.mem_append_right _ List.mem_cons_self
  | _ => cases h

namespace Pool

variable {items : List β} {ask : β → Except ε α} {p : Pool β ε α} {t : Turn} {i : Nat}

theorem lookedUp_eq (p : Pool β ε α) (t : Turn) :
    p.lookedUp t = (p.stageAt t.worker).awaited? := by
  unfold lookedUp Stage.awaited?
  cases p.stageAt t.worker <;> rfl

namespace Act

variable {next next' : Nat} {failed failed' : Bool} {w w' : Worker β ε α}

theorem eq_of_awaited (h : Act items ask next failed w next' failed' w')
    (hi : w'.stage.awaited? = some i) : i = next := by
  cases h with
  | take kept _ => exact (Option.some.inj hi).symm
  | _ => cases hi

theorem of_awaited (h : Act items ask next failed w next' failed' w')
    (hi : w.stage.awaited? = some i) : i ∈ w'.places ∧ w'.stage.awaited? = none := by
  cases h with
  | find kept j _ | miss kept j _ =>
    obtain rfl := Option.some.inj hi
    exact ⟨List.mem_append_right _ List.mem_cons_self, rfl⟩
  | _ => cases hi

theorem ready_of_admitted (h : Act items ask next failed w next' failed' w')
    (hs : w'.stage = .admitted) : w.stage = .ready := by
  cases h with
  | enter kept => rfl
  | _ => cases hs

theorem underway_add_le (h : Act items ask next failed w next' failed' w')
    (hw' : w'.stage ≠ .admitted) :
    w'.stage.isUnderway.toNat + w.stage.awaited?.toList.length ≤ w.stage.isUnderway.toNat := by
  cases h with
  | enter kept => exact absurd rfl hw'
  | _ => simp [Stage.isUnderway, Stage.awaited?]

theorem isUnderway_of_failing (h : Act items ask next failed w next' failed' w') {e : ε}
    (hs : w.stage = .failing i e) : w'.stage.isUnderway = false := by
  cases h with
  | tell kept j e => rfl
  | _ => cases hs

end Act

/-! ### No item is looked up twice -/

/-- Whether the item at a place is still to be looked up: it has not been taken, or a worker has it
at hand. -/
def Awaits (p : Pool β ε α) (i : Nat) : Prop :=
  p.next ≤ i ∨ ∃ w ∈ p.workers, w.stage.awaited? = some i

theorem awaits_of_lookedUp (h : p.lookedUp t = some i) : p.Awaits i := by
  rw [lookedUp_eq, stageAt] at h
  cases hw : p.workers[t.worker]? with
  | none =>
    rw [hw] at h
    cases h
  | some w =>
    rw [hw] at h
    exact .inr ⟨w, List.mem_of_getElem? hw, h⟩

/-- No turn puts an item back. -/
theorem Awaits.of_move (h : (p.move items ask t).Awaits i) : p.Awaits i := by
  rcases move_cases items ask p t with ⟨-, hmove⟩ | ⟨w, w', others, -, hp, hp', act⟩
  · rwa [hmove] at h
  rcases h with hnext | ⟨v, hv, hi⟩
  · exact .inl (Nat.le_trans act.next_le hnext)
  · rcases List.mem_cons.mp (hp'.mem_iff.mp hv) with rfl | hv
    · exact .inl (Nat.le_of_eq (act.eq_of_awaited hi).symm)
    · exact .inr ⟨v, hp.mem_iff.mpr (List.mem_cons_of_mem _ hv), hi⟩

theorem Shared.disjoint_places (h : p.Shared items ask) {w v : Worker β ε α}
    {others : List (Worker β ε α)} (hp : p.workers ~ w :: others) (hv : v ∈ others) :
    ∀ i ∈ w.places, i ∉ v.places := by
  have hnodup : (w.places ++ others.flatMap Worker.places).Nodup :=
    ((hp.flatMap_right _).symm.trans h.places).nodup_iff.mpr List.nodup_range
  intro i hi hiv
  exact (List.nodup_append.mp hnodup).2.2 i hi i (List.mem_flatMap.mpr ⟨v, hv, hiv⟩) rfl

theorem Shared.not_awaits_move (h : p.Shared items ask) (hi : p.lookedUp t = some i) :
    ¬(p.move items ask t).Awaits i := by
  have hshared := h.move t
  rw [lookedUp_eq] at hi
  rcases move_cases items ask p t with ⟨hs, -⟩ | ⟨w, w', others, hs, -, hp', act⟩
  · rw [hs] at hi
    cases hi
  rw [hs] at hi
  obtain ⟨hplace, hnone⟩ := act.of_awaited hi
  rintro (hnext | ⟨v, hv, hvi⟩)
  · have hlt := hshared.lt_next (hp'.mem_iff.mpr List.mem_cons_self) hplace
    exact Nat.not_lt_of_le hnext hlt
  · rcases List.mem_cons.mp (hp'.mem_iff.mp hv) with rfl | hv
    · rw [hnone] at hvi
      cases hvi
    · -- the item would be with two workers
      exact hshared.disjoint_places hp' hv i hplace (Worker.mem_places_of_awaited hvi)

theorem awaits_of_mem_lookups {ts : List Turn} (h : i ∈ p.lookups items ask ts) :
    p.Awaits i := by
  induction ts generalizing p with
  | nil => cases h
  | cons t ts ih =>
    rcases List.mem_append.mp h with hi | hi
    · exact awaits_of_lookedUp (Option.mem_toList.mp hi)
    · exact (ih hi).of_move

theorem Shared.nodup_lookups (h : p.Shared items ask) (ts : List Turn) :
    (p.lookups items ask ts).Nodup := by
  induction ts generalizing p with
  | nil => exact List.nodup_nil
  | cons t ts ih =>
    have hrest := ih (h.move t)
    rw [lookups]
    cases hi : p.lookedUp t with
    | none => exact hrest
    | some i =>
      exact List.nodup_cons.mpr ⟨fun hmem => h.not_awaits_move hi (awaits_of_mem_lookups hmem),
        hrest⟩

/-! ### What is looked up after a failure -/

/-- The number of workers that can look an item up before they read the flag again. -/
def underway (p : Pool β ε α) : Nat := p.workers.countP fun w => w.stage.isUnderway

theorem underway_of_perm {w : Worker β ε α} {others : List (Worker β ε α)}
    (h : p.workers ~ w :: others) :
    p.underway = w.stage.isUnderway.toNat + others.countP fun v => v.stage.isUnderway := by
  rw [underway, h.countP_eq, List.countP_cons, Nat.add_comm]
  cases w.stage.isUnderway <;> rfl

/-- A worker that reads that a lookup has failed stops, and the others act as ever. -/
theorem move_cases_of_failed (items : List β) (ask : β → Except ε α) (hf : p.failed = true)
    (ht : t.stale = false) :
    (p.stageAt t.worker = .finished ∧ p.move items ask t = p) ∨
      ∃ w w' others, p.stageAt t.worker = w.stage ∧ p.workers ~ w :: others ∧
        (p.move items ask t).workers ~ w' :: others ∧ w'.stage ≠ .admitted ∧
        Act items ask p.next p.failed w (p.move items ask t).next
          (p.move items ask t).failed w' := by
  by_cases hready : p.stageAt t.worker = .ready
  · cases hw : p.workers[t.worker]? with
    | none => simp [stageAt, hw] at hready
    | some w =>
      obtain ⟨stage, kept⟩ := w
      have hmove : p.move items ask t = p.enter t.worker .finished := by
        simp [move, hready, hf, ht]
      obtain rfl : stage = .ready := by simpa [stageAt, hw] using hready
      have hperm : p.workers ~ ⟨.ready, kept⟩ :: p.workers.eraseIdx t.worker := by
        simpa using modify_perm hw id
      rw [hmove]
      exact .inr ⟨_, _, _, hready, hperm, modify_perm hw _, by simp, .stop kept hf⟩
  · rcases move_cases items ask p t with h | ⟨w, w', others, hs, hp, hp', act⟩
    · exact .inl h
    · exact .inr ⟨w, w', others, hs, hp, hp',
        fun hadmitted => hready (hs.trans (act.ready_of_admitted hadmitted)), act⟩

theorem length_workers_move (items : List β) (ask : β → Except ε α) (p : Pool β ε α) (t : Turn) :
    (p.move items ask t).workers.length = p.workers.length :=
  length_workers_run items ask p [t]

theorem failed_move (items : List β) (ask : β → Except ε α) (t : Turn) (hf : p.failed = true) :
    (p.move items ask t).failed = true := by
  rcases move_cases items ask p t with ⟨-, hmove⟩ | ⟨w, w', others, -, -, -, act⟩
  · rw [hmove, hf]
  · exact act.failed_of_failed hf

/-- After a failure every lookup is the last one of a worker that was on its way to it. -/
theorem underway_move_add_le (items : List β) (ask : β → Except ε α) (hf : p.failed = true)
    (ht : t.stale = false) :
    (p.move items ask t).underway + (p.lookedUp t).toList.length ≤ p.underway := by
  rw [lookedUp_eq]
  rcases move_cases_of_failed items ask hf ht with
    ⟨hs, hmove⟩ | ⟨w, w', others, hs, hp, hp', hstage, act⟩
  · rw [hs, hmove]
    exact Nat.le_refl _
  · have hact := act.underway_add_le hstage
    rw [hs, underway_of_perm hp, underway_of_perm hp']
    omega

theorem length_lookups_le (items : List β) (ask : β → Except ε α) {ts : List Turn}
    (hf : p.failed = true) (hts : ∀ t ∈ ts, t.stale = false) :
    (p.lookups items ask ts).length ≤ p.underway := by
  induction ts generalizing p with
  | nil => exact Nat.zero_le _
  | cons t ts ih =>
    have hmove := underway_move_add_le items ask hf (hts t List.mem_cons_self)
    have hrest := ih (failed_move items ask t hf) fun u hu => hts u (List.mem_cons_of_mem _ hu)
    rw [lookups, List.length_append]
    omega

theorem underway_lt_of_cons {w : Worker β ε α} {others : List (Worker β ε α)}
    (h : p.workers ~ w :: others) (hw : w.stage.isUnderway = false) :
    p.underway < p.workers.length := by
  rw [underway_of_perm h, hw, h.length_eq, List.length_cons]
  have hle : (others.countP fun v => v.stage.isUnderway) ≤ others.length := List.countP_le_length
  simp only [Bool.toNat_false]
  omega

/-- The worker that tells the pool of the first failure is not underway, and no one sets out after
that. -/
theorem underway_lt_of_move (h : p.failed = true → p.underway < p.workers.length)
    (ht : t.stale = false) (hf : (p.move items ask t).failed = true) :
    (p.move items ask t).underway < (p.move items ask t).workers.length := by
  cases hfailed : p.failed with
  | true =>
    have hlt := h hfailed
    have hle := underway_move_add_le items ask hfailed ht
    have hlength := length_workers_move items ask p t
    omega
  | false =>
    rcases move_cases items ask p t with ⟨-, hmove⟩ | ⟨w, w', others, -, -, hp', act⟩
    · rw [hmove, hfailed] at hf
      cases hf
    · rcases act.failed_cases hf with hbefore | ⟨i, e, hs⟩
      · rw [hfailed] at hbefore
        cases hbefore
      · exact underway_lt_of_cons hp' (act.isUnderway_of_failing hs)

theorem underway_lt_of_run {ts : List Turn} (h : p.failed = true → p.underway < p.workers.length)
    (hts : ∀ t ∈ ts, t.stale = false) (hf : (p.run items ask ts).failed = true) :
    (p.run items ask ts).underway < p.workers.length := by
  induction ts generalizing p with
  | nil => exact h hf
  | cons t ts ih =>
    rw [run_cons] at hf ⊢
    rw [← length_workers_move items ask p t]
    exact ih (underway_lt_of_move h (hts t List.mem_cons_self))
      (fun u hu => hts u (List.mem_cons_of_mem _ hu)) hf

/-- Whatever the turns, no item is looked up twice. If the workers read the flag as it is, then
fewer items are looked up after a failure has set it than there are workers. -/
theorem lookups_bounded (items : List β) (ask : β → Except ε α) (wanted : Nat) :
    (∀ ts, ((start wanted items.length).lookups items ask ts).Nodup) ∧
    ∀ ts us, (∀ t ∈ ts ++ us, t.stale = false) →
      ((start wanted items.length).run items ask ts).failed = true →
      (((start wanted items.length).run items ask ts).lookups items ask us).length <
        size wanted items.length := by
  refine ⟨(shared_start wanted).nodup_lookups, fun ts us hfresh hf => ?_⟩
  have hsize : (start wanted items.length : Pool β ε α).workers.length =
      size wanted items.length := List.length_replicate
  have hunderway := underway_lt_of_run (p := start wanted items.length)
    (fun hstart => absurd hstart Bool.false_ne_true)
    (fun t ht => hfresh t (List.mem_append_left us ht)) hf
  have hlookups := length_lookups_le items ask hf
    fun t ht => hfresh t (List.mem_append_right ts ht)
  omega

/-- Two workers, whose first lookup fails while the second is about to begin its own. The third item
is never looked up. -/
theorem lookups_bounded_two_workers :
    let items := ["a", "b", "c"]
    let ask (item : String) : Except String Nat := .error item
    let ts : List Turn :=
      [⟨0, false⟩, ⟨0, false⟩, ⟨1, false⟩, ⟨1, false⟩, ⟨0, false⟩, ⟨0, false⟩]
    let us : List Turn :=
      [⟨1, false⟩, ⟨0, false⟩, ⟨0, false⟩, ⟨1, false⟩, ⟨1, false⟩, ⟨1, false⟩]
    (∀ t ∈ ts ++ us, t.stale = false) ∧
      ((start 2 3).run items ask ts).failed = true ∧
      (((start 2 3).run items ask ts).run items ask us).isFinished = true ∧
      (start 2 3).lookups items ask (ts ++ us) = [0, 1] ∧
      ((start 2 3).run items ask ts).lookups items ask us = [1] ∧
      (((start 2 3).run items ask ts).lookups items ask us).length < 2 := by
  intro items ask ts us
  have hfresh : ∀ t ∈ ts ++ us, t.stale = false := by decide
  have hfailed : ((start 2 3).run items ask ts).failed = true := by decide
  exact ⟨hfresh, hfailed, by decide, by decide, by decide,
    (lookups_bounded items ask 2).2 ts us hfresh hfailed⟩

end Pool

end AntRegister
