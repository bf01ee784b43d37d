import AntRegister.Proofs.Sql.Execution
/-! Hashes in the order of a listing. They are the multiples of a step that is as wide as the range
of hashes allows, and no word overflows on the way. A content that is listed more than once is
updated more than once, so its last place counts. -/

namespace AntRegister.Sql

/-- The hash of place `i` in a listing of `n` entries, in words of 32 bits. There is none if it
takes a division by zero or a product that does not fit. -/
def hashOfPlace? (n i : Nat) : Option UInt32 :=
  let step := hashModulus.toUInt32 / n.toUInt32
  if n.toUInt32 = 0 ∨ 2 ^ 32 ≤ i.toUInt32.toNat * step.toNat then none
  else some (i.toUInt32 * step)

/-- The last of the places that a content has in a listing. -/
def IsLastPlace (ants : List String) (content : String) (i : Nat) : Prop :=
  ants[i]? = some content ∧ ∀ j, i < j → ants[j]? ≠ some content

section

variable {n i : Nat}

/-- There is room for one more step behind the last place. -/
theorem mul_step_add_le (h : i < n) :
    i * (hashModulus / n) + hashModulus / n ≤ hashModulus := by
  calc i * (hashModulus / n) + hashModulus / n = (i + 1) * (hashModulus / n) := by
        rw [Nat.add_mul, Nat.one_mul]
    _ ≤ n * (hashModulus / n) := Nat.mul_le_mul_right _ h
    _ ≤ hashModulus := Nat.mul_div_le _ _

theorem mul_step_lt (hle : n ≤ hashModulus) (h : i < n) :
    i * (hashModulus / n) < hashModulus := by
  have hstep : 0 < hashModulus / n := Nat.div_pos hle (Nat.zero_lt_of_lt h)
  have hroom := mul_step_add_le h
  omega

theorem toNat_toUInt32 {k : Nat} (h : k ≤ hashModulus) : k.toUInt32.toNat = k := by
  have hlt : k < 2 ^ 32 := Nat.lt_of_le_of_lt h (by decide)
  rw [Nat.toUInt32_eq, UInt32.toNat_ofNat', Nat.mod_eq_of_lt hlt]

theorem toNat_step (hle : n ≤ hashModulus) :
    (hashModulus.toUInt32 / n.toUInt32).toNat = hashModulus / n := by
  rw [UInt32.toNat_div, toNat_toUInt32 le_rfl, toNat_toUInt32 hle]

theorem toNat_mul_step (hle : n ≤ hashModulus) (h : i < n) :
    (i.toUInt32 * (hashModulus.toUInt32 / n.toUInt32)).toNat = i * (hashModulus / n) := by
  have hfits : i * (hashModulus / n) < 2 ^ 32 := (mul_step_lt hle h).trans (by decide)
  rw [UInt32.toNat_mul, toNat_toUInt32 (h.le.trans hle), toNat_step hle, Nat.mod_eq_of_lt hfits]

theorem toUInt32_ne_zero (hle : n ≤ hashModulus) (h : i < n) : n.toUInt32 ≠ 0 := by
  intro hzero
  have hn := toNat_toUInt32 hle
  rw [hzero, UInt32.toNat_zero] at hn
  omega

theorem exists_hashOfPlace? (hle : n ≤ hashModulus) (h : i < n) :
    ∃ w, hashOfPlace? n i = some w ∧ w.toNat = i * (hashModulus / n) := by
  have hfits : i * (hashModulus / n) < 2 ^ 32 := (mul_step_lt hle h).trans (by decide)
  refine ⟨i.toUInt32 * (hashModulus.toUInt32 / n.toUInt32), ?_, toNat_mul_step hle h⟩
  rw [hashOfPlace?, toNat_toUInt32 (h.le.trans hle), toNat_step hle, if_neg]
  exact not_or.mpr ⟨toUInt32_ne_zero hle h, Nat.not_le.mpr hfits⟩

/-- No word overflows in a listing that is not longer than the range of hashes. -/
theorem rehashUpdates_of_le {ants : List String} (hle : ants.length ≤ hashModulus) :
    rehashUpdates ants =
      ants.zipIdx.map fun (s, i) => ⟨s, i * (hashModulus / ants.length)⟩ := by
  refine List.map_congr_left fun (s, i) hs => ?_
  have hi : i < ants.length := by simpa using List.snd_lt_add_of_mem_zipIdx hs
  exact congrArg (HashUpdate.mk s) (toNat_mul_step hle hi)

end

section

variable {ants : List String} {content : String} {i : Nat}

theorem IsLastPlace.eq_append (h : IsLastPlace ants content i) :
    ∃ before after, ants = before ++ content :: after ∧ before.length = i ∧ content ∉ after := by
  obtain ⟨hi, hcontent⟩ := List.getElem?_eq_some_iff.mp h.1
  refine ⟨ants.take i, ants.drop (i + 1), ?_, List.length_take_of_le hi.le, fun hmem => ?_⟩
  · rw [← hcontent, List.getElem_cons_drop, List.take_append_drop]
  · obtain ⟨j, hj⟩ := List.mem_iff_getElem?.mp hmem
    rw [List.getElem?_drop] at hj
    exact h.2 _ (by omega) hj

theorem isLastPlace_append (before : List String) {after : List String} (h : content ∉ after) :
    IsLastPlace (before ++ content :: after) content before.length := by
  refine ⟨by simp, fun j hj hmem => h ?_⟩
  rw [List.getElem?_append_right hj.le, List.getElem?_cons, if_neg (by omega)] at hmem
  exact List.mem_of_getElem? hmem

theorem exists_isLastPlace (h : content ∈ ants) : ∃ i, IsLastPlace ants content i := by
  have hkey : content ∈ ants.map id := by rwa [List.map_id]
  obtain ⟨s, hs, rfl⟩ := exists_findRev? hkey
  obtain ⟨-, before, after, rfl, hafter⟩ := findRev?_eq_some_iff_append.mp hs
  have hnot : s ∉ after := fun hmem => by simpa using hafter s hmem
  exact ⟨before.length, isLastPlace_append before hnot⟩

variable {α : Type} {r : StoredRow α}

/-- The update at the last place of a content is the last one that names it. -/
theorem lastUpdate?_of_isLastPlace (hle : ants.length ≤ hashModulus) (h : IsLastPlace ants content i)
    (hr : r.content = some content) :
    lastUpdate? (rehashUpdates ants) r = some ⟨content, i * (hashModulus / ants.length)⟩ := by
  obtain ⟨before, after, hants, rfl, hafter⟩ := h.eq_append
  have hzip : ants.zipIdx = before.zipIdx ++ (content, before.length) ::
      after.zipIdx (before.length + 1) := by
    rw [hants, List.zipIdx_append, List.zipIdx_cons, Nat.zero_add]
  let update := fun entry : String × Nat =>
    (⟨entry.1, entry.2 * (hashModulus / ants.length)⟩ : HashUpdate)
  rw [lastUpdate?, findRev?_eq_some_iff_append]
  refine ⟨beq_iff_eq.mpr hr, before.zipIdx.map update,
    (after.zipIdx (before.length + 1)).map update, ?_, ?_⟩
  · rw [rehashUpdates_of_le hle, hzip, List.map_append, List.map_cons]
  · intro u hu
    obtain ⟨⟨s, j⟩, hs, rfl⟩ := List.mem_map.mp hu
    refine beq_eq_false_iff_ne.mpr fun heq => hafter ?_
    rw [hr, Option.some.injEq] at heq
    exact heq ▸ List.fst_mem_of_mem_zipIdx hs

theorem lastUpdate?_of_unlisted (h : ∀ s ∈ ants, r.content ≠ some s) :
    lastUpdate? (rehashUpdates ants) r = none := by
  rw [lastUpdate?, List.findRev?_eq_find?_reverse, List.find?_eq_none]
  intro u hu
  obtain ⟨⟨s, j⟩, hs, rfl⟩ := List.mem_map.mp (List.mem_reverse.mp hu)
  simpa using h s (List.fst_mem_of_mem_zipIdx hs)

theorem settle_of_isLastPlace (hle : ants.length ≤ hashModulus)
    (h : IsLastPlace ants content i) (hr : r.content = some content) :
    settle (rehashUpdates ants) r =
      { r with hash := some ↑(i * (hashModulus / ants.length)) } := by
  rw [settle, lastUpdate?_of_isLastPlace hle h hr]
  rfl

theorem settle_of_unlisted (h : ∀ s ∈ ants, r.content ≠ some s) :
    settle (rehashUpdates ants) r = r := by
  rw [settle, lastUpdate?_of_unlisted h]
  rfl

end

theorem exists_rehashScript {ants : List String} (hne : 1 ≤ ants.length)
    (hle : ants.length ≤ hashModulus) :
    ∃ script, rehashScript ants = some script ∧
      (lex script).map Token.updates = some (rehashUpdates ants) := by
  have hword : ants.length % 2 ^ 32 ≠ 0 := by
    rw [← toNat_word, toNat_toUInt32 hle]
    omega
  have hlex := lex_rehash ants
  rw [if_neg hword] at hlex
  obtain ⟨script, hscript, hread⟩ := Option.bind_eq_some_iff.mp hlex
  refine ⟨script, hscript, ?_⟩
  rw [hread, Option.map_some, rehashUpdates_eq]
  exact congrArg some (Token.updates_transaction _ _)

/-- The hashes of a listing of up to `2 ^ 31 - 1` entries are in the range of hashes, are computed
without an overflow and ascend from place to place. The script that sets them leaves a row as it is
if its content is not listed, and otherwise gives it the hash of the last place of its content. So
the rows with listed contents end up in the order of these last places. -/
theorem rehash_orders_by_last_place (ants : List String) (hne : 1 ≤ ants.length)
    (hle : ants.length ≤ 2 ^ 31 - 1) :
    let step := (2 ^ 31 - 1) / ants.length
    (∀ i < ants.length, i * step ≤ 2 ^ 31 - 2 ∧
      ∃ w, hashOfPlace? ants.length i = some w ∧ w.toNat = i * step) ∧
    (∀ i j, i < j → i * step < j * step) ∧
    (∀ s ∈ ants, ∃ i, IsLastPlace ants s i) ∧
    ∃ script, rehashScript ants = some script ∧
      (lex script).map Token.updates = some (ants.zipIdx.map fun (s, i) => ⟨s, i * step⟩) ∧
      ∀ {α : Type} (rows : List (StoredRow α)), ∃ after, execute script rows = some after ∧
        List.Forall₂ (fun old new =>
          ((∀ s ∈ ants, old.content ≠ some s) → new = old) ∧
          ∀ s i, old.content = some s → IsLastPlace ants s i →
            new = { old with hash := some ↑(i * step) }) rows after ∧
        ∀ a ∈ after, ∀ b ∈ after, ∀ s t i j, a.content = some s → b.content = some t →
          IsLastPlace ants s i → IsLastPlace ants t j →
          ∃ x y, a.hash = some x ∧ b.hash = some y ∧ (x < y ↔ i < j) := by
  intro step
  have hstep : 0 < step := Nat.div_pos hle hne
  obtain ⟨script, hscript, hupdates⟩ := exists_rehashScript hne hle
  refine ⟨fun i hi => ⟨?_, exists_hashOfPlace? hle hi⟩, fun i j hij => ?_,
    fun s => exists_isLastPlace, script, hscript,
    hupdates.trans (congrArg some (rehashUpdates_of_le hle)), fun rows =>
      ⟨rows.map (settle (rehashUpdates ants)), execute_of_updates hupdates rows, ?_, ?_⟩⟩
  · exact Nat.le_sub_one_of_lt (mul_step_lt hle hi)
  · exact Nat.mul_lt_mul_of_pos_right hij hstep
  · rw [List.forall₂_map_right_iff, List.forall₂_same]
    exact fun r _ => ⟨settle_of_unlisted, fun s i hr hs => settle_of_isLastPlace hle hs hr⟩
  · intro a ha b hb s t i j hs ht hi hj
    obtain ⟨r, -, rfl⟩ := List.mem_map.mp ha
    obtain ⟨q, -, rfl⟩ := List.mem_map.mp hb
    have hr : r.content = some s := hs
    have hq : q.content = some t := ht
    refine ⟨_, _, congrArg StoredRow.hash (settle_of_isLastPlace hle hi hr),
      congrArg StoredRow.hash (settle_of_isLastPlace hle hj hq), ?_⟩
    rw [Int.ofNat_lt]
    exact Nat.mul_lt_mul_right hstep

/-- The content `a` is listed in front of `b` and behind it, and there are rows with a content that
is not listed and with none at all. -/
theorem rehash_orders_by_last_place_repeated :
    let ants := ["a", "b", "a"]
    1 ≤ ants.length ∧ ants.length ≤ 2 ^ 31 - 1 ∧ ∃ script, rehashScript ants = some script ∧
      execute script [⟨some "a", some 7, 1⟩, ⟨some "b", none, 2⟩, ⟨some "c", some 5, 3⟩,
          ⟨none, some (-1), 4⟩] =
        some [⟨some "a", some 1431655764, 1⟩, ⟨some "b", some 715827882, 2⟩,
          ⟨some "c", some 5, 3⟩, ⟨none, some (-1), 4⟩] := by
  intro ants
  have hne : 1 ≤ ants.length := by decide
  have hle : ants.length ≤ 2 ^ 31 - 1 := by decide
  have ha : IsLastPlace ants "a" 2 := isLastPlace_append ["a", "b"] (by decide)
  have hb : IsLastPlace ants "b" 1 := isLastPlace_append ["a"] (by decide)
  have hstep : (2 ^ 31 - 1) / ants.length = 715827882 := by decide
  obtain ⟨-, -, -, script, hscript, -, hrows⟩ := rehash_orders_by_last_place ants hne hle
  obtain ⟨after, hafter, hsettled, -⟩ := hrows [⟨some "a", some 7, 1⟩, ⟨some "b", none, 2⟩,
    ⟨some "c", some 5, 3⟩, ⟨none, some (-1), 4⟩]
  refine ⟨hne, hle, script, hscript, hafter.trans ?_⟩
  obtain _ | ⟨hfirst, _ | ⟨hsecond, _ | ⟨hthird, _ | ⟨hfourth, _ | _⟩⟩⟩⟩ := hsettled
  rw [hfirst.2 "a" 2 rfl ha, hsecond.2 "b" 1 rfl hb, hthird.1 (by decide), hfourth.1 (by decide),
    hstep]
  rfl

end AntRegister.Sql
