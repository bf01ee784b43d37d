import AntRegister.Proofs.Latest
/-! Collapsing in parts. The last record of a key is the same before and after collapsing, so that
parts can be collapsed first and put together then. Keys need not be equal to count as the same
one: what collapsing leaves depends only on which records have keys that `==` takes for equal. -/

namespace AntRegister

variable {κ κ' α : Type} [BEq κ] [BEq κ']

/-- The record has the key, and no record behind it has. -/
def IsLatest (key : α → κ) (records : List α) (k : κ) (a : α) : Prop :=
  ∃ before after, records = before ++ a :: after ∧ (key a == k) = true ∧
    ∀ b ∈ after, (key b == k) = false

theorem isLatest_iff {key : α → κ} {records : List α} {k : κ} {a : α} :
    IsLatest key records k a ↔ (records.findRev? fun b => key b == k) = some a := by
  rw [findRev?_eq_some_iff_append]
  constructor
  · rintro ⟨before, after, heq, ha, hafter⟩
    exact ⟨ha, before, after, heq, hafter⟩
  · rintro ⟨ha, before, after, heq, hafter⟩
    exact ⟨before, after, heq, ha, hafter⟩

theorem forall₂_filterMap {β : Type} {R : α → β → Prop} {f : α → Option β} {xs : List α}
    (h : ∀ x ∈ xs, ∃ y, f x = some y ∧ R x y) : List.Forall₂ R xs (xs.filterMap f) := by
  induction xs with
  | nil => exact .nil
  | cons x xs ih =>
    obtain ⟨y, hy, hxy⟩ := h x List.mem_cons_self
    rw [List.filterMap_cons_some hy]
    exact .cons hxy (ih fun z hz => h z (List.mem_cons_of_mem x hz))

/-! ### Keys that are equal -/

section

variable [LawfulBEq κ] [Hashable κ] [LawfulHashable κ] {key : α → κ}

theorem findRev?_of_mem_latestBy {records : List α} {a : α} (h : a ∈ latestBy key records) :
    (records.findRev? fun b => key b == key a) = some a := by
  obtain ⟨before, after, heq, hafter⟩ := last_of_mem_latestBy h
  refine isLatest_iff.mp ⟨before, after, heq, beq_self_eq_true _, fun b hb => ?_⟩
  exact beq_eq_false_iff_ne.mpr (hafter b hb)

theorem findRev?_latestBy (key : α → κ) (records : List α) (k : κ) :
    ((latestBy key records).findRev? fun a => key a == k) =
      records.findRev? fun a => key a == k := by
  cases h : (latestBy key records).findRev? fun a => key a == k with
  | some a =>
    obtain ⟨hmem, hkey⟩ := mem_of_findRev? h
    obtain rfl := beq_iff_eq.mp hkey
    exact (findRev?_of_mem_latestBy hmem).symm
  | none =>
    have hkey : k ∉ records.map key := by
      intro hk
      rw [← List.mem_eraseDups, ← map_latestBy] at hk
      obtain ⟨a, ha, -⟩ := exists_findRev? hk
      rw [h] at ha
      cases ha
    rw [eq_comm, List.findRev?_eq_find?_reverse, List.find?_eq_none]
    intro a ha hka
    exact hkey (List.mem_map.mpr ⟨a, List.mem_reverse.mp ha, beq_iff_eq.mp hka⟩)

theorem latestBy_append (key : α → κ) (xs ys : List α) :
    latestBy key (xs ++ ys) = latestBy key (latestBy key xs ++ latestBy key ys) := by
  have hlast (k : κ) : ((latestBy key xs ++ latestBy key ys).findRev? fun a => key a == k) =
      (xs ++ ys).findRev? fun a => key a == k := by
    rw [findRev?_append, findRev?_append, findRev?_latestBy, findRev?_latestBy]
  have hkeys : ((latestBy key xs ++ latestBy key ys).map key).eraseDups =
      ((xs ++ ys).map key).eraseDups := by
    rw [List.map_append, List.map_append, map_latestBy, map_latestBy, eraseDups_append_eraseDups]
  rw [latestBy_eq key (xs ++ ys), latestBy_eq key (latestBy key xs ++ latestBy key ys), hkeys]
  exact List.filterMap_congr fun k _ => (hlast k).symm

theorem latestBy_latestBy (key : α → κ) (records : List α) :
    latestBy key (latestBy key records) = latestBy key records := by
  have h := latestBy_append key records []
  rwa [List.append_nil, show latestBy key [] = [] from rfl, List.append_nil, eq_comm] at h

end

/-! ### Keys that count as equal -/

namespace Slots

variable [Hashable κ] [Hashable κ']

/-- The same records are in place, and the keys of every record have the same place. -/
def Alike (key : α → κ) (key' : α → κ') (s : Slots κ α) (t : Slots κ' α) : Prop :=
  s.records = t.records ∧ ∀ a, s.places[key a]? = t.places[key' a]?

variable [EquivBEq κ] [LawfulHashable κ] [EquivBEq κ'] [LawfulHashable κ']
  {key : α → κ} {key' : α → κ'}

theorem Alike.put (hkeys : ∀ a b, (key a == key b) = (key' a == key' b))
    {s : Slots κ α} {t : Slots κ' α} (h : s.Alike key key' t) (a : α) :
    (s.put key a).Alike key key' (t.put key' a) := by
  obtain ⟨hrecords, hplaces⟩ := h
  unfold Slots.put
  rw [hplaces a, hrecords]
  cases t.places[key' a]? with
  | some i => exact ⟨rfl, hplaces⟩
  | none =>
    refine ⟨rfl, fun b => ?_⟩
    rw [Std.HashMap.getElem?_insert, Std.HashMap.getElem?_insert, hkeys, hplaces]

theorem alike_foldl (hkeys : ∀ a b, (key a == key b) = (key' a == key' b)) (records : List α) :
    (records.foldl (put key) empty).Alike key key' (records.foldl (put key') empty) := by
  induction records using List.reverseRecOn with
  | nil =>
    refine ⟨rfl, fun a => ?_⟩
    exact Std.HashMap.getElem?_empty.trans Std.HashMap.getElem?_empty.symm
  | append_singleton records a ih =>
    rw [List.foldl_append, List.foldl_append]
    exact ih.put hkeys a

end Slots

variable [EquivBEq κ]

/-- Keys up to counting as equal. -/
def KeyClass (κ : Type) [BEq κ] [EquivBEq κ] : Type :=
  Quotient (⟨fun k l => (k == l) = true, fun _ => BEq.rfl, BEq.symm, BEq.trans⟩ : Setoid κ)

namespace KeyClass

def of (k : κ) : KeyClass κ := Quotient.mk _ k

instance : BEq (KeyClass κ) where
  beq := Quotient.lift₂ (· == ·) fun _ _ _ _ hk hl =>
    (BEq.congr_left hk).trans (BEq.congr_right hl)

instance [Hashable κ] [LawfulHashable κ] : Hashable (KeyClass κ) where
  hash := Quotient.lift hash fun _ _ h => hash_eq h

theorem of_beq_of (k l : κ) : (of k == of l) = (k == l) := rfl

instance : LawfulBEq (KeyClass κ) where
  rfl {c} := by
    induction c using Quotient.ind with
    | _ k => exact beq_self_eq_true k
  eq_of_beq {c d} h := by
    induction c, d using Quotient.ind₂ with
    | _ k l => exact Quotient.sound h

end KeyClass

variable [Hashable κ] [LawfulHashable κ]

theorem latestBy_congr [Hashable κ'] [EquivBEq κ'] [LawfulHashable κ'] {key : α → κ}
    {key' : α → κ'} (hkeys : ∀ a b, (key a == key b) = (key' a == key' b)) (records : List α) :
    latestBy key records = latestBy key' records :=
  congrArg Array.toList (Slots.alike_foldl hkeys records).1

theorem latestBy_keyClass (key : α → κ) (records : List α) :
    latestBy key records = latestBy (fun a => KeyClass.of (key a)) records :=
  latestBy_congr (fun a b => (KeyClass.of_beq_of (key a) (key b)).symm) records

theorem forall₂_isLatest (key : α → κ) (records : List α) :
    List.Forall₂ (IsLatest key records) (records.map key).eraseDups (latestBy key records) := by
  have hkeys : (records.map fun a => KeyClass.of (key a)).eraseDups =
      (records.map key).eraseDups.map KeyClass.of := by
    rw [← eraseDups_map KeyClass.of_beq_of, List.map_map]
    rfl
  rw [latestBy_keyClass, latestBy_eq, hkeys, List.filterMap_map]
  refine forall₂_filterMap fun k hk => ?_
  have hclass : KeyClass.of k ∈ records.map fun a => KeyClass.of (key a) := by
    rw [← List.mem_eraseDups, hkeys]
    exact List.mem_map_of_mem hk
  obtain ⟨a, ha, -⟩ := exists_findRev? hclass
  exact ⟨a, ha, isLatest_iff.mpr ha⟩

theorem pairwise_latestBy (key : α → κ) (records : List α) :
    (latestBy key records).Pairwise fun a b => (key a == key b) = false := by
  have h := nodup_map_latestBy (fun a => KeyClass.of (key a)) records
  rw [← latestBy_keyClass, List.Nodup, List.pairwise_map] at h
  exact h.imp fun hne => beq_eq_false_iff_ne.mpr hne

/-- The place that is known for a key is that of a record with the key. -/
theorem exists_at_place (key : α → κ) (records : List α) (a : α) {i : Nat}
    (h : (records.foldl (Slots.put key) Slots.empty).places[key a]? = some i) :
    ∃ b, (records.foldl (Slots.put key) Slots.empty).records[i]? = some b ∧
      (key b == key a) = true := by
  obtain ⟨hrecords, hplaces⟩ := Slots.alike_foldl
    (fun a b => (KeyClass.of_beq_of (key a) (key b)).symm) records
  rw [hplaces] at h
  have hkey := (isIndexed_foldl (fun a => KeyClass.of (key a)) records _ i).mp h
  rw [List.getElem?_map, Array.getElem?_toList] at hkey
  obtain ⟨b, hb, hclass⟩ := Option.map_eq_some_iff.mp hkey
  have hsame : (KeyClass.of (key b) == KeyClass.of (key a)) = true := beq_iff_eq.mpr hclass
  exact ⟨b, hrecords ▸ hb, hsame⟩

/-- Collapsing leaves the last record of each key, in the order in which the keys come first, and
no key twice. Whatever came before a record, the place that is known for its key is taken, by a
record with this key. Collapsing the parts of a list first changes nothing, and neither does
collapsing twice. -/
theorem latestBy_merges (key : α → κ) :
    (∀ records, List.Forall₂ (IsLatest key records) (records.map key).eraseDups
        (latestBy key records) ∧
      (latestBy key records).Pairwise fun a b => (key a == key b) = false) ∧
    (∀ (before : List α) (a : α) (i : Nat),
      let slots := before.foldl (Slots.put key) Slots.empty
      slots.places[key a]? = some i → i < slots.records.size ∧
        ∃ b, slots.records[i]? = some b ∧ (key b == key a) = true) ∧
    (∀ xs ys, latestBy key (xs ++ ys) = latestBy key (latestBy key xs ++ latestBy key ys)) ∧
    ∀ records, latestBy key (latestBy key records) = latestBy key records := by
  refine ⟨fun records => ⟨forall₂_isLatest key records, pairwise_latestBy key records⟩,
    ?_, fun xs ys => ?_, fun records => ?_⟩
  · intro before a i slots h
    obtain ⟨b, hb, hkey⟩ := exists_at_place key before a h
    exact ⟨(Array.getElem?_eq_some_iff.mp hb).1, b, hb, hkey⟩
  · simp only [latestBy_keyClass key]
    exact latestBy_append _ xs ys
  · simp only [latestBy_keyClass key]
    exact latestBy_latestBy _ records

/-- A key comes three times, with others between. When it comes again its place is the first. -/
theorem latestBy_merges_interleaved :
    let records := [("a", 1), ("b", 2), ("a", 3), ("c", 4), ("b", 5), ("a", 6)]
    let slots := [("a", 1), ("b", 2)].foldl (Slots.put Prod.fst) Slots.empty
    List.Forall₂ (IsLatest Prod.fst records) ["a", "b", "c"] (latestBy Prod.fst records) ∧
      slots.places["a"]? = some 0 ∧ 0 < slots.records.size ∧
      latestBy Prod.fst (latestBy Prod.fst (records.take 3) ++
        latestBy Prod.fst (records.drop 3)) = [("a", 6), ("b", 5), ("c", 4)] := by
  intro records slots
  obtain ⟨hlatest, hplaces, hmerge, -⟩ := latestBy_merges (Prod.fst : String × Nat → String)
  have hkeys : (slots.records.toList.map Prod.fst)[0]? = some "a" :=
    (congrArg (·[0]?) (map_latestBy Prod.fst [("a", 1), ("b", 2)])).trans (by decide)
  have hplace : slots.places["a"]? = some 0 := (isIndexed_foldl _ _ "a" 0).mpr hkeys
  refine ⟨(hlatest records).1, hplace, (hplaces _ ("a", 3) 0 hplace).1, ?_⟩
  rw [← hmerge (records.take 3) (records.drop 3), List.take_append_drop, latestBy_eq]
  decide

end AntRegister
