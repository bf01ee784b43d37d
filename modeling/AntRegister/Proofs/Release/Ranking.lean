import AntRegister.Proofs.Calendar.Order
import AntRegister.Proofs.Distinct
import Mathlib.Order.Interval.Finset.Nat
/-! The release of an ant is the rank of its day among all days on which an ant was created, whether
accepted or legacy. Ranks leave no gap, so the releases are the numbers up to that of the days. -/

namespace AntRegister

open Calendar (Date)

section Ranks

variable {α : Type} [LinearOrder α]

/-- The place of a member, counted from 1, in ascending order. -/
def rank (s : Finset α) (x : α) : Nat := 1 + (s.filter (· < x)).card

theorem lookup_zipIdx_of_pairwise [BEq α] [LawfulBEq α] {xs : List α} (h : xs.Pairwise (· < ·))
    {x : α} (hx : x ∈ xs) (k : Nat) :
    (xs.zipIdx k).lookup x = some (k + (xs.filter (· < x)).length) := by
  induction xs generalizing k with
  | nil => exact absurd hx List.not_mem_nil
  | cons y xs ih =>
    obtain ⟨hy, hxs⟩ := List.pairwise_cons.mp h
    rw [List.zipIdx_cons, List.lookup_cons]
    -- What is behind the first member is greater, so only a member before `x` counts.
    rcases eq_or_ne x y with rfl | hne
    · have hnone : (x :: xs).filter (· < x) = [] := by
        refine List.filter_eq_nil_iff.mpr fun z hz => ?_
        rcases List.mem_cons.mp hz with rfl | hz
        · simp
        · simpa using (hy z hz).le
      rw [beq_self_eq_true, hnone]
      rfl
    · have hmem : x ∈ xs := (List.mem_cons.mp hx).resolve_left hne
      have hlt : (y :: xs).filter (· < x) = y :: xs.filter (· < x) :=
        List.filter_cons_of_pos (decide_eq_true (hy x hmem))
      rw [beq_false_of_ne hne, hlt, List.length_cons]
      change (xs.zipIdx (k + 1)).lookup x = _
      rw [ih hxs hmem, Nat.add_assoc, Nat.add_comm 1]

theorem length_filter_sort (s : Finset α) (x : α) :
    (s.sort.filter (· < x)).length = (s.filter (· < x)).card := by
  have hnodup : (s.sort.filter (· < x)).Nodup := (Finset.sort_nodup s _).filter _
  rw [← List.toFinset_card_of_nodup hnodup, List.toFinset_filter, Finset.sort_toFinset]
  simp only [decide_eq_true_eq]

theorem rank_lt_rank {s : Finset α} {x y : α} (hx : x ∈ s) (h : x < y) : rank s x < rank s y := by
  have hsub : s.filter (· < x) ⊆ s.filter (· < y) := fun z hz => by
    rw [Finset.mem_filter] at hz ⊢
    exact ⟨hz.1, hz.2.trans h⟩
  have hss : s.filter (· < x) ⊂ s.filter (· < y) :=
    (Finset.ssubset_iff_of_subset hsub).mpr ⟨x, Finset.mem_filter.mpr ⟨hx, h⟩, by simp⟩
  exact Nat.add_lt_add_left (Finset.card_lt_card hss) 1

theorem rank_lt_iff {s : Finset α} {x y : α} (hx : x ∈ s) (hy : y ∈ s) :
    rank s x < rank s y ↔ x < y := by
  refine ⟨fun h => ?_, rank_lt_rank hx⟩
  rcases lt_trichotomy x y with hlt | rfl | hgt
  · exact hlt
  · exact absurd h (lt_irrefl _)
  · exact absurd h (rank_lt_rank hy hgt).asymm

theorem rank_inj {s : Finset α} {x y : α} (hx : x ∈ s) (hy : y ∈ s) :
    rank s x = rank s y ↔ x = y := by
  refine ⟨fun h => ?_, congrArg _⟩
  rcases lt_trichotomy x y with hlt | heq | hgt
  · exact absurd h (rank_lt_rank hx hlt).ne
  · exact heq
  · exact absurd h (rank_lt_rank hy hgt).ne'

theorem image_rank (s : Finset α) : s.image (rank s) = Finset.Icc 1 s.card := by
  have hsub : s.image (rank s) ⊆ Finset.Icc 1 s.card := by
    intro k hk
    obtain ⟨x, hx, rfl⟩ := Finset.mem_image.mp hk
    have hss : s.filter (· < x) ⊂ s := Finset.filter_ssubset.mpr ⟨x, hx, lt_irrefl x⟩
    have hlt := Finset.card_lt_card hss
    rw [Finset.mem_Icc, rank]
    exact ⟨Nat.le_add_right 1 _, by omega⟩
  have hinj : Set.InjOn (rank s) s := fun x hx y hy h => (rank_inj hx hy).mp h
  refine Finset.eq_of_subset_of_card_le hsub ?_
  rw [Nat.card_Icc, Finset.card_image_of_injOn hinj]
  omega

end Ranks

theorem sort_Icc_one (n : Nat) : (Finset.Icc 1 n).sort = List.range' 1 n := by
  have hset : Finset.Icc 1 n = (List.range' 1 n).toFinset := by
    ext k
    rw [Finset.mem_Icc, List.mem_toFinset, List.mem_range'_1]
    omega
  rw [hset, List.toFinset_sort (· ≤ ·) List.nodup_range']
  exact List.pairwise_le_range'

theorem lookup_numberDays {days : List Date} {day : Date} (h : day ∈ days) :
    (numberDays days).lookup day = some (rank days.toFinset day) := by
  have hmem : day ∈ days.toFinset.sort := (Finset.mem_sort _).mpr (List.mem_toFinset.mpr h)
  rw [numberDays, sortedDistinct_eq_sort Date.le_iff,
    lookup_zipIdx_of_pairwise (Finset.sortedLT_sort _).pairwise hmem, length_filter_sort, rank]

section

variable (accepted : List Accepted) (legacy : List Legacy)

/-- The days on which ants of the site were created. -/
def creationDays : List Date :=
  accepted.map (fun a => a.createdAt.date) ++ legacy.map fun a => a.createdAt.date

/-- The release of a record that was created on a day. -/
def releaseOn (day : Date) : Nat := rank (creationDays accepted legacy).toFinset day

variable {accepted legacy}

theorem numberOf_creationDays {day : Date} (h : day ∈ creationDays accepted legacy) :
    numberOf (numberDays (creationDays accepted legacy)) day = releaseOn accepted legacy day := by
  rw [numberOf, lookup_numberDays h]
  rfl

theorem assignReleases_accepted : (assignReleases accepted legacy).accepted =
    accepted.map fun a => ⟨a, releaseOn accepted legacy a.createdAt.date⟩ := by
  refine List.map_congr_left fun a ha => ?_
  have hday : a.createdAt.date ∈ creationDays accepted legacy :=
    List.mem_append_left _ (List.mem_map_of_mem ha)
  exact congrArg _ (numberOf_creationDays hday)

theorem assignReleases_legacy : (assignReleases accepted legacy).legacy =
    legacy.map fun a => ⟨a, releaseOn accepted legacy a.createdAt.date⟩ := by
  refine List.map_congr_left fun a ha => ?_
  have hday : a.createdAt.date ∈ creationDays accepted legacy :=
    List.mem_append_right _ (List.mem_map_of_mem ha)
  exact congrArg _ (numberOf_creationDays hday)

theorem map_ant_accepted :
    (assignReleases accepted legacy).accepted.map (fun x => x.ant) = accepted := by
  rw [assignReleases_accepted, List.map_map]
  exact List.map_id _

theorem map_ant_legacy :
    (assignReleases accepted legacy).legacy.map (fun x => x.ant) = legacy := by
  rw [assignReleases_legacy, List.map_map]
  exact List.map_id _

theorem records_assignReleases : (assignReleases accepted legacy).records =
    (accepted.map (fun a => a.toResident) ++ legacy.map fun a => a.toResident).map
      fun a => ⟨a, releaseOn accepted legacy a.createdAt.date⟩ := by
  unfold Numbered.records
  rw [assignReleases_accepted, assignReleases_legacy, List.map_append]
  simp only [List.map_map]
  rfl

theorem map_records {γ : Type} (f : Resident → γ) :
    (assignReleases accepted legacy).records.map (fun r => f r.ant) =
      accepted.map (fun a => f a.toResident) ++ legacy.map fun a => f a.toResident := by
  rw [records_assignReleases, List.map_map, List.map_append, List.map_map, List.map_map]
  rfl

theorem releases_of_records : (assignReleases accepted legacy).records.map (fun r => r.release) =
    (creationDays accepted legacy).map (releaseOn accepted legacy) := by
  rw [records_assignReleases, creationDays]
  simp only [List.map_append, List.map_map]
  rfl

theorem mem_records {r : Released Resident} (h : r ∈ (assignReleases accepted legacy).records) :
    r.ant.createdAt.date ∈ creationDays accepted legacy ∧
      r.release = releaseOn accepted legacy r.ant.createdAt.date := by
  rw [records_assignReleases] at h
  obtain ⟨a, ha, rfl⟩ := List.mem_map.mp h
  refine ⟨?_, rfl⟩
  have hday : a.createdAt.date ∈ (accepted.map (fun a => a.toResident) ++
      legacy.map fun a => a.toResident).map fun a => a.createdAt.date := List.mem_map_of_mem ha
  rw [List.map_append, List.map_map, List.map_map] at hday
  exact hday

theorem mem_records_of_accepted {a : Accepted} (h : a ∈ accepted) :
    ⟨a.toResident, releaseOn accepted legacy a.createdAt.date⟩ ∈
      (assignReleases accepted legacy).records := by
  rw [records_assignReleases, List.map_append]
  exact List.mem_append_left _ (List.mem_map_of_mem (List.mem_map_of_mem h))

theorem mem_records_of_legacy {a : Legacy} (h : a ∈ legacy) :
    ⟨a.toResident, releaseOn accepted legacy a.createdAt.date⟩ ∈
      (assignReleases accepted legacy).records := by
  rw [records_assignReleases, List.map_append]
  exact List.mem_append_right _ (List.mem_map_of_mem (List.mem_map_of_mem h))

theorem ant_of_mem_records {r : Released Resident}
    (h : r ∈ (assignReleases accepted legacy).records) :
    (∃ a ∈ accepted, r.ant = a.toResident) ∨ ∃ a ∈ legacy, r.ant = a.toResident := by
  rw [records_assignReleases] at h
  obtain ⟨a, ha, rfl⟩ := List.mem_map.mp h
  rcases List.mem_append.mp ha with ha | ha
  · obtain ⟨b, hb, rfl⟩ := List.mem_map.mp ha
    exact .inl ⟨b, hb, rfl⟩
  · obtain ⟨b, hb, rfl⟩ := List.mem_map.mp ha
    exact .inr ⟨b, hb, rfl⟩

theorem release_eq_iff {x y : Released Resident}
    (hx : x ∈ (assignReleases accepted legacy).records)
    (hy : y ∈ (assignReleases accepted legacy).records) :
    x.release = y.release ↔ x.ant.createdAt.date = y.ant.createdAt.date := by
  obtain ⟨hxday, hxrank⟩ := mem_records hx
  obtain ⟨hyday, hyrank⟩ := mem_records hy
  rw [hxrank, hyrank]
  exact rank_inj (List.mem_toFinset.mpr hxday) (List.mem_toFinset.mpr hyday)

theorem toFinset_releases :
    ((assignReleases accepted legacy).records.map fun r => r.release).toFinset =
      Finset.Icc 1 (creationDays accepted legacy).toFinset.card := by
  rw [releases_of_records, ← image_rank]
  ext k
  simp only [List.mem_toFinset, List.mem_map, Finset.mem_image, releaseOn]

theorem releases_assignReleases : (assignReleases accepted legacy).releases =
    (List.range' 1 (creationDays accepted legacy).toFinset.card).map .mk := by
  rw [Numbered.releases, releasesOf_eq, toFinset_releases, sort_Icc_one]

theorem latest?_assignReleases : (assignReleases accepted legacy).latest? =
    if accepted = [] ∧ legacy = [] then none
    else some (creationDays accepted legacy).toFinset.card := by
  unfold Numbered.latest?
  split
  case isTrue hnone =>
    rw [hnone.1, hnone.2]
    rfl
  case isFalse hsome =>
    -- The numbers are all those up to the count, and the count is one of them.
    have hdays : (creationDays accepted legacy).toFinset.Nonempty := by
      rw [List.toFinset_nonempty_iff, creationDays]
      simpa using hsome
    have hmem : ∀ k, k ∈ (assignReleases accepted legacy).records.map (fun r => r.release) ↔
        1 ≤ k ∧ k ≤ (creationDays accepted legacy).toFinset.card := by
      intro k
      rw [← List.mem_toFinset, toFinset_releases, Finset.mem_Icc]
    refine List.max?_eq_some_iff.mpr ⟨(hmem _).mpr ⟨hdays.card_pos, le_rfl⟩, ?_⟩
    intro k hk
    exact ((hmem k).mp hk).2

end

/-- Releases number the days of creation, of accepted and legacy ants together, in their order. -/
theorem assignReleases_ranks_days (accepted : List Accepted) (legacy : List Legacy) :
    let n := assignReleases accepted legacy
    let days := creationDays accepted legacy
    let release := fun day => 1 + (days.toFinset.filter (· < day)).card
    let count := days.toFinset.card
    n.accepted = accepted.map (fun a => ⟨a, release a.createdAt.date⟩) ∧
      n.legacy = legacy.map (fun a => ⟨a, release a.createdAt.date⟩) ∧
      (∀ day ∈ days, (numberDays days).lookup day = some (release day)) ∧
      count + 1 < 2 ^ 32 ∧
      (∀ r ∈ n.records, ∀ s ∈ n.records,
        (r.release = s.release ↔ r.ant.createdAt.date = s.ant.createdAt.date) ∧
        (r.release < s.release ↔ r.ant.createdAt.date < s.ant.createdAt.date)) ∧
      (∀ k, (∃ r ∈ n.records, r.release = k) ↔ 1 ≤ k ∧ k ≤ count) ∧
      n.releases.map (fun r => (r.number, r.label)) =
        (List.range' 1 count).map (fun k => (k, "v" ++ Text.decimal k)) ∧
      n.latest? = if accepted = [] ∧ legacy = [] then none else some count := by
  intro n days release count
  have hcount : count ≤ 195034392 := Date.card_le _
  refine ⟨assignReleases_accepted, assignReleases_legacy, fun day hday => lookup_numberDays hday,
    by omega, ?_, ?_, ?_, latest?_assignReleases⟩
  · intro r hr s hs
    obtain ⟨hrday, hrank⟩ := mem_records hr
    obtain ⟨hsday, hsank⟩ := mem_records hs
    rw [← List.mem_toFinset] at hrday hsday
    rw [hrank, hsank]
    exact ⟨rank_inj hrday hsday, rank_lt_iff hrday hsday⟩
  · intro k
    rw [← Finset.mem_Icc, ← toFinset_releases, List.mem_toFinset, List.mem_map]
  · change (assignReleases accepted legacy).releases.map _ = _
    rw [releases_assignReleases, List.map_map]
    rfl

end AntRegister
