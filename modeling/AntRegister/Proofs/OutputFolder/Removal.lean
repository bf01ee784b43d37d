import AntRegister.Proofs.OutputFolder.Placing
/-! Removing files from the output folder. Only regular files are removed, and nothing but the names
that are asked for is touched. A file that the system cannot look at stays. -/

namespace AntRegister.OutputFolder

open AntRegister.Action Disk AntRegister.Path

variable {folder : OutputFolder} {here l p : Location} {n : String} {names done : List String}
  {d e f : Disk} {k : Nat}

/-- Some of the files under some names were removed, and nothing else has changed. -/
structure Removed (p : Location) (names : List String) (d e : Disk) : Prop where
  stale : ∀ n ∈ names, e.entryAt? (p ++ [n]) = d.entryAt? (p ++ [n]) ∨
    (∃ k, d.entryAt? (p ++ [n]) = some (.file k)) ∧ e.entryAt? (p ++ [n]) = none
  others : ∀ l, (∀ n ∈ names, l ≠ p ++ [n]) → e.entryAt? l = d.entryAt? l
  contents : e.contents = d.contents

/-- Whether there are no files under some names. -/
def Gone (p : Location) (names : List String) (d : Disk) : Prop :=
  ∀ n ∈ names, ∀ k, d.entryAt? (p ++ [n]) ≠ some (.file k)

theorem Removed.refl (p : Location) (names : List String) (d : Disk) : Removed p names d d :=
  ⟨fun _ _ => .inl rfl, fun _ _ => rfl, rfl⟩

theorem Removed.entry (h : Removed p names d e) (l : Location) :
    e.entryAt? l = d.entryAt? l ∨ (∃ k, d.entryAt? l = some (.file k)) ∧ e.entryAt? l = none := by
  by_cases hstale : ∃ n ∈ names, l = p ++ [n]
  · obtain ⟨n, hn, rfl⟩ := hstale
    exact h.stale n hn
  · exact .inl (h.others l fun n hn heq => hstale ⟨n, hn, heq⟩)

theorem Removed.trans (h : Removed p names d e) (h' : Removed p names e f) :
    Removed p names d f where
  stale n hn := by
    rcases h'.stale n hn with hn' | ⟨⟨k, hk⟩, hnone⟩
    · rw [hn']
      exact h.stale n hn
    · rcases h.stale n hn with heq | ⟨-, hnone'⟩
      · exact .inr ⟨⟨k, heq ▸ hk⟩, hnone⟩
      · rw [hk] at hnone'
        cases hnone'
  others l hl := (h'.others l hl).trans (h.others l hl)
  contents := h'.contents.trans h.contents

theorem Removed.mono {more : List String} (h : Removed p names d e) (hsub : names ⊆ more) :
    Removed p more d e :=
  ⟨fun n _ => h.entry (p ++ [n]), fun l hl => h.others l fun n hn => hl n (hsub hn), h.contents⟩

theorem Removed.grows (h : Removed p names d e) : d.Grows e := by
  refine .of_kept fun l x hx hl => ?_
  rcases h.entry l with heq | ⟨⟨k, hk⟩, -⟩
  · exact heq.trans hl
  · obtain rfl := Option.some.inj (hl.symm.trans hk)
    cases hx

theorem Removed.find?_eq (h : Removed p names d e) (hl : e.entryAt? l = d.entryAt? l) :
    e.find? l = d.find? l :=
  find?_congr hl fun k _ => by rw [Disk.content, h.contents, Disk.content]

theorem Removed.gone (h : Removed p names d e) {done : List String} (hd : Gone p done d) :
    Gone p done e := by
  intro n hn k hk
  rcases h.entry (p ++ [n]) with heq | ⟨-, hnone⟩
  · exact hd n hn k (heq ▸ hk)
  · rw [hk] at hnone
    cases hnone

theorem Removed.not_isLink (h : Removed p names d e) (hl : ¬d.IsLink l) : ¬e.IsLink l := by
  rw [isLink_iff]
  rintro ⟨target, htarget⟩
  rcases h.entry l with heq | ⟨-, hnone⟩
  · exact hl (isLink_iff.mpr ⟨target, heq ▸ htarget⟩)
  · rw [htarget] at hnone
    cases hnone

theorem removed_erase (hfile : d.entryAt? (p ++ [n]) = some (.file k)) :
    Removed p [n] d (d.erase (p ++ [n])) where
  stale m hm := by
    obtain rfl := List.mem_singleton.mp hm
    exact .inr ⟨⟨k, hfile⟩, entryAt?_erase_self (by simp)⟩
  others l hl := entryAt?_erase_of_ne (hl n (List.mem_singleton_self n))
  contents := rfl

theorem gone_erase (p : Location) (n : String) (d : Disk) : Gone p [n] (d.erase (p ++ [n])) := by
  intro m hm k hk
  obtain rfl := List.mem_singleton.mp hm
  rw [entryAt?_erase_self (by simp)] at hk
  cases hk

theorem isFile_join (h : d.Leads here folder.path p) (hn : IsName n)
    (husable : Usable (join folder.path n)) (hlink : ¬d.IsLink (p ++ [n])) :
    d.isFile here (join folder.path n) = true ↔ ∃ k, d.entryAt? (p ++ [n]) = some (.file k) := by
  have hlocate : d.locate true here (join folder.path n) = .ok (p ++ [n]) :=
    h.locate_join hn husable (.inr hlink)
  rw [isFile_eq_true_iff]
  constructor
  · rintro ⟨l, hl, content, hcontent⟩
    obtain rfl := Except.ok.inj (hlocate.symm.trans hl)
    obtain ⟨k, hk, -⟩ := find?_eq_file_iff.mp hcontent
    exact ⟨k, hk⟩
  · rintro ⟨k, hk⟩
    exact ⟨_, hlocate, _, find?_eq_file_iff.mpr ⟨k, hk, rfl⟩⟩

theorem ends_removeFile? (hn : IsName n) {w : World} (hleads : w.disk.Leads w.here folder.path p)
    (husable : Usable (join folder.path n)) (hlink : ¬w.disk.IsLink (p ++ [n])) :
    (folder.removeFile? n).Ends w
      (fun _ v => Removed p [n] w.disk v.disk ∧ (w.Sees → Gone p [n] v.disk))
      (fun e v => e.IsOfWriting ∧ v.disk = w.disk ∧ ¬w.IsCalm) := by
  have hfile := isFile_join hleads hn husable hlink
  refine (ends_isFile w (fun _ _ => False) _).bind
    (fun present v hv ⟨hdisk, hpresent, hsees⟩ => ?_) fun _ _ _ => False.elim
  cases present with
  | true =>
    obtain ⟨k, hk⟩ := hfile.mp (hpresent rfl)
    have hremove : v.disk.removeFile v.here (join folder.path n) =
        .ok (w.disk.erase (p ++ [n])) := by
      rw [hdisk, hv.here]
      exact removeFile_eq_ok_iff.mpr ⟨_, hleads.locate_join hn husable (.inl rfl),
        hk ▸ nofun, hk ▸ nofun, rfl⟩
    refine .attempt (ends_removeFile v _ _) (fun _ u hu hremoved => .pure ?_)
      fun fault u hu hremoved => ⟨trivial, hremoved.1.trans hdisk, fun hcalm => ?_⟩
    · obtain hdisk' := Except.ok.inj (hremove.symm.trans hremoved)
      exact hdisk' ▸ ⟨removed_erase hk, fun _ => gone_erase p n w.disk⟩
    · have herror := hremoved.2 (hv.isCalm hcalm)
      rw [hremove] at herror
      cases herror
  | false =>
    refine .pure ⟨hdisk ▸ .refl p [n] w.disk, fun h m hm k hk => ?_⟩
    obtain rfl := List.mem_singleton.mp hm
    have hpresent' := hfile.mpr ⟨k, hdisk ▸ hk⟩
    rw [← hsees h] at hpresent'
    cases hpresent'

theorem ends_removeStale {owned keep : List String} (hnames : ∀ n ∈ owned, IsName n) {w : World}
    (hleads : w.disk.Leads w.here folder.path p)
    (husable : ∀ n ∈ owned, Usable (join folder.path n))
    (hlinks : ∀ n ∈ owned, ¬w.disk.IsLink (p ++ [n])) :
    let stale := owned.filter fun n => !keep.contains n
    (folder.removeStale owned keep).Ends w
      (fun _ v => Removed p stale w.disk v.disk ∧ (w.Sees → Gone p stale v.disk))
      (fun e v => e.IsOfWriting ∧ Removed p stale w.disk v.disk ∧ ¬w.IsCalm) := by
  intro stale
  refine Ends.bind (.mapM (I := fun done v =>
    Removed p stale w.disk v.disk ∧ (w.Sees → Gone p done v.disk))
      (fun done n rest v hstale hv ⟨hremoved, hgone⟩ => ?_)
        ⟨.refl p stale w.disk, fun _ => nofun⟩) (fun _ _ _ hall => .pure hall) fun _ _ _ => id
  have hmem : n ∈ owned.filter fun n => !keep.contains n :=
    hstale ▸ List.mem_append_right _ List.mem_cons_self
  have hn : n ∈ owned := (List.mem_filter.mp hmem).1
  have hleads' : v.disk.Leads v.here folder.path p := hv.here ▸ hleads.mono hremoved.grows
  refine (ends_removeFile? (hnames n hn) hleads' (husable n hn)
    (hremoved.not_isLink (hlinks n hn))).mono (fun _ u _ ⟨hone, honeGone⟩ => ⟨?_, fun h => ?_⟩)
      fun e u _ ⟨hwriting, hdisk, hcalm⟩ =>
        ⟨hwriting, hdisk ▸ hremoved, fun h => hcalm (hv.isCalm h)⟩
  · exact hremoved.trans (hone.mono (List.cons_subset.mpr ⟨hmem, List.nil_subset _⟩))
  · intro m hm
    rcases List.mem_append.mp hm with hm | hm
    · exact hone.gone (hgone h) m hm
    · exact honeGone (hv.sees h) m hm

end AntRegister.OutputFolder
