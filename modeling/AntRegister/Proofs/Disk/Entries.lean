import AntRegister.Disk.Basic
import Mathlib.Data.List.Basic
/-! What stands at a place after an operation. Entries and contents change independently: an entry
names a file by its number, and a content is under all names of a file. -/

namespace AntRegister.Disk

variable {d e f : Disk} {l m : Location} {x : Entry} {k j : Nat} {content : ByteArray}

def IsLink (d : Disk) (l : Location) : Prop := (d.target? l).isSome = true

instance (d : Disk) (l : Location) : Decidable (d.IsLink l) := instDecidableEqBool _ _

/-- Whether two places are hard links of one file. -/
def SameFile (d : Disk) (l m : Location) : Prop :=
  ∃ k, d.entryAt? l = some (.file k) ∧ d.entryAt? m = some (.file k)

theorem sameFile_iff : d.SameFile l m ↔
    ((d.entryAt? l).bind Entry.number?).isSome = true ∧ d.entryAt? l = d.entryAt? m := by
  unfold SameFile
  rcases d.entryAt? l with _ | _ | _ | _ <;> simp [Entry.number?, eq_comm]

instance (d : Disk) (l m : Location) : Decidable (d.SameFile l m) :=
  decidable_of_iff' _ sameFile_iff

theorem SameFile.find?_eq (h : d.SameFile l m) : d.find? l = d.find? m := by
  obtain ⟨k, hl, hm⟩ := h
  rw [find?, find?, hl, hm]

theorem SameFile.congr (h : e.SameFile l m) (hl : e.entryAt? l = d.entryAt? l)
    (hm : e.entryAt? m = d.entryAt? m) : d.SameFile l m := by
  rwa [SameFile, hl, hm] at h

theorem target?_eq_some_iff {target : String} :
    d.target? l = some target ↔ d.entryAt? l = some (.link target) := by
  unfold target?
  rcases d.entryAt? l with _ | _ | _ | _ <;> simp

theorem target?_of_folder (h : d.entryAt? l = some .folder) : d.target? l = none := by
  rw [target?, h]

theorem target?_of_empty (h : d.entryAt? l = none) : d.target? l = none := by
  rw [target?, h]

theorem target?_eq_none_iff : d.target? l = none ↔ ¬d.IsLink l := by
  rw [IsLink, Option.not_isSome_iff_eq_none]

theorem isLink_iff : d.IsLink l ↔ ∃ target, d.entryAt? l = some (.link target) := by
  simp only [IsLink, Option.isSome_iff_exists, target?_eq_some_iff]

theorem isLink_congr (h : e.entryAt? l = d.entryAt? l) : e.IsLink l ↔ d.IsLink l := by
  rw [isLink_iff, isLink_iff, h]

theorem not_isLink_of_file (h : d.entryAt? l = some (.file k)) : ¬d.IsLink l := by
  rw [isLink_iff, h]
  exact nofun

theorem find?_eq_none_iff : d.find? l = none ↔ d.entryAt? l = none := Option.map_eq_none_iff

theorem find?_eq_folder_iff : d.find? l = some .folder ↔ d.entryAt? l = some .folder := by
  unfold find?
  rcases d.entryAt? l with _ | _ | _ | _ <;> simp [node]

theorem find?_eq_file_iff : d.find? l = some (.file content) ↔
    ∃ k, d.entryAt? l = some (.file k) ∧ d.content k = content := by
  unfold find?
  rcases d.entryAt? l with _ | _ | _ | _ <;> simp [node]

theorem find?_congr (h : e.entryAt? l = d.entryAt? l)
    (hcontent : ∀ k, d.entryAt? l = some (.file k) → e.content k = d.content k) :
    e.find? l = d.find? l := by
  unfold find?
  rw [h]
  rcases hl : d.entryAt? l with _ | k | _ | _ <;> simp [node]
  exact hcontent k hl

theorem lookup_filter_of_ne {α β : Type} [BEq α] [LawfulBEq α] {a b : α} (h : b ≠ a)
    (xs : List (α × β)) : (xs.filter fun x => x.1 != a).lookup b = xs.lookup b := by
  induction xs with
  | nil => rfl
  | cons x xs ih =>
    by_cases hx : x.1 = a
    · have hb : (b == x.1) = false := beq_false_of_ne (hx ▸ h)
      rw [List.filter_cons_of_neg (by simp [hx]), ih, List.lookup_cons, hb]
    · rw [List.filter_cons_of_pos (by simp [hx]), List.lookup_cons, List.lookup_cons, ih]

theorem ne_root_of_entryAt?_eq_none (h : d.entryAt? l = none) : l ≠ [] := by
  rintro rfl
  cases h

theorem entryAt?_enter_self (h : l ≠ []) : (d.enter l x).entryAt? l = some x := by
  unfold entryAt? enter
  rw [if_neg h, List.lookup_cons, beq_self_eq_true]

theorem entryAt?_enter_of_ne (h : m ≠ l) : (d.enter l x).entryAt? m = d.entryAt? m := by
  have hm : (m == l) = false := beq_false_of_ne h
  unfold entryAt? enter
  rw [List.lookup_cons, hm, lookup_filter_of_ne h]

theorem entryAt?_erase_self (h : l ≠ []) : (d.erase l).entryAt? l = none := by
  unfold entryAt? erase
  rw [if_neg h, List.lookup_eq_none_iff]
  intro x hx
  have hne : x.1 ≠ l := bne_iff_ne.mp (List.mem_filter.mp hx).2
  exact bne_iff_ne.mpr hne.symm

theorem entryAt?_erase_of_ne (h : m ≠ l) : (d.erase l).entryAt? m = d.entryAt? m := by
  unfold entryAt? erase
  rw [lookup_filter_of_ne h]

theorem content_fill_self : (d.fill k content).content k = content := by
  unfold Disk.content fill
  rw [List.lookup_cons, beq_self_eq_true]
  rfl

theorem content_fill_of_ne (h : j ≠ k) : (d.fill k content).content j = d.content j := by
  have hj : (j == k) = false := beq_false_of_ne h
  unfold Disk.content fill
  rw [List.lookup_cons, hj, lookup_filter_of_ne h]

theorem lt_fresh (h : d.entryAt? l = some (.file k)) : k < d.fresh := by
  have hmem : k ∈ d.entries.filterMap fun m => m.2.number? := by
    unfold entryAt? at h
    split at h
    · cases h
    · obtain ⟨before, after, hentries, -⟩ := List.lookup_eq_some_iff.mp h
      exact List.mem_filterMap.mpr ⟨(l, .file k), by simp [hentries], rfl⟩
  unfold fresh
  generalize (d.entries.filterMap fun m => m.2.number?) = numbers at hmem
  induction numbers with
  | nil => cases hmem
  | cons n numbers ih =>
    rw [List.foldr_cons]
    rcases List.mem_cons.mp hmem with rfl | hmem
    · exact Nat.lt_of_lt_of_le k.lt_succ_self (Nat.le_max_left _ _)
    · exact Nat.lt_of_lt_of_le (ih hmem) (Nat.le_max_right _ _)

theorem entryAt?_ne_fresh : d.entryAt? l ≠ some (.file d.fresh) := fun h =>
  Nat.lt_irrefl _ (lt_fresh h)

/-- Whether all folders and links of a disk are on another one too. -/
structure Grows (d e : Disk) : Prop where
  folders : ∀ l, d.entryAt? l = some .folder → e.entryAt? l = some .folder
  links : ∀ l target, d.entryAt? l = some (.link target) → e.entryAt? l = some (.link target)

theorem Grows.of_kept
    (h : ∀ l x, x.number? = none → d.entryAt? l = some x → e.entryAt? l = some x) : d.Grows e :=
  ⟨fun l => h l _ rfl, fun l _ => h l _ rfl⟩

theorem Grows.refl (d : Disk) : d.Grows d := ⟨fun _ => id, fun _ _ => id⟩

theorem Grows.trans (h : d.Grows e) (h' : e.Grows f) : d.Grows f where
  folders l hl := h'.folders l (h.folders l hl)
  links l target hl := h'.links l target (h.links l target hl)

end AntRegister.Disk
