import AntRegister.Proofs.Disk.Folders
/-! What operations on files need, and what they do to the disk if they have it. -/

namespace AntRegister.Disk

variable {d e f : Disk} {here l m source target : Location} {path content old new : String} {k : Nat}

theorem readText_of_find? {text : String} (hlocate : d.locate true here path = .ok l)
    (hnode : d.find? l = some (.file text.toUTF8)) : d.readText here path = .ok text := by
  have hread : String.fromUTF8? text.toUTF8 = some text := dif_pos text.isValidUTF8
  refine bind_eq_ok_iff.mpr ⟨l, hlocate, ?_⟩
  rw [hnode]
  dsimp only
  rw [hread]
  rfl

theorem isFile_eq_true_iff : d.isFile here path = true ↔ ∃ l,
    d.locate true here path = .ok l ∧ ∃ content, d.find? l = some (.file content) := by
  unfold isFile nodeAt?
  cases d.locate true here path with
  | error fault => simp
  | ok l => rcases hnode : d.find? l with _ | _ | _ | _ <;> simp [hnode]

/-- The file at a place, which may be a new one, was opened or written to. -/
structure Stores (l : Location) (k : Nat) (d e : Disk) : Prop where
  number : d.entryAt? l = some (.file k) ∨
    d.entryAt? l = none ∧ ∀ m, d.entryAt? m ≠ some (.file k)
  entry : e.entryAt? l = some (.file k)
  others : ∀ m, m ≠ l → e.entryAt? m = d.entryAt? m
  contents : ∀ j, j ≠ k → e.content j = d.content j

theorem Stores.fill (h : Stores l k d e) (bytes : ByteArray) : Stores l k d (e.fill k bytes) where
  number := h.number
  entry := h.entry
  others := h.others
  contents j hj := (content_fill_of_ne hj).trans (h.contents j hj)

theorem Stores.grows (h : Stores l k d e) : d.Grows e := by
  refine .of_kept fun m x hx hm => (h.others m ?_).trans hm
  rintro rfl
  rcases h.number with hfile | ⟨hnone, -⟩
  · obtain rfl := Option.some.inj (hm.symm.trans hfile)
    cases hx
  · rw [hnone] at hm
    cases hm

theorem Stores.not_sameFile (h : Stores l k d e) (hsame : ¬d.SameFile m l) :
    d.entryAt? m ≠ some (.file k) := by
  rcases h.number with hfile | ⟨-, hunused⟩
  · exact fun hm => hsame ⟨k, hm, hfile⟩
  · exact hunused m

theorem Stores.find?_eq (h : Stores l k d e) (hm : m ≠ l) (hsame : ¬d.SameFile m l) :
    e.find? m = d.find? m := by
  refine find?_congr (h.others m hm) fun j hj => h.contents j ?_
  rintro rfl
  exact h.not_sameFile hsame hj

theorem exists_of_createFile (h : d.createFile here path = .ok e) :
    ∃ l k, d.locate true here path = .ok l ∧ Stores l k d e := by
  obtain ⟨l, hlocate, h⟩ := bind_eq_ok_iff.mp h
  rcases hl : d.entryAt? l with _ | k | _ | _
  · rw [hl] at h
    obtain rfl := Except.ok.inj h
    refine ⟨l, d.fresh, hlocate, .inr ⟨hl, fun m => entryAt?_ne_fresh⟩, ?_, fun m hm => ?_,
      fun j hj => content_fill_of_ne hj⟩
    · exact entryAt?_enter_self (ne_root_of_entryAt?_eq_none hl)
    · exact entryAt?_enter_of_ne hm
  · rw [hl] at h
    obtain rfl := Except.ok.inj h
    exact ⟨l, k, hlocate, .inl hl, hl, fun _ _ => rfl, fun j hj => content_fill_of_ne hj⟩
  · rw [hl] at h
    cases h
  · rw [hl] at h
    cases h

theorem exists_createFile (hlocate : d.locate true here path = .ok l)
    (hfolder : d.entryAt? l ≠ some .folder) (hlink : ¬d.IsLink l) :
    ∃ e, d.createFile here path = .ok e := by
  rcases hl : d.entryAt? l with _ | k | _ | target
  · exact ⟨_, bind_eq_ok_iff.mpr ⟨l, hlocate, by rw [hl]; rfl⟩⟩
  · exact ⟨_, bind_eq_ok_iff.mpr ⟨l, hlocate, by rw [hl]; rfl⟩⟩
  · exact absurd hl hfolder
  · exact absurd (isLink_iff.mpr ⟨target, hl⟩) hlink

theorem writeFile_eq (hlocate : d.locate true here path = .ok l)
    (hl : d.entryAt? l = some (.file k)) (bytes : ByteArray) :
    d.writeFile here path bytes = .ok (d.fill k bytes) :=
  bind_eq_ok_iff.mpr ⟨l, hlocate, by rw [hl]; rfl⟩

theorem exists_of_rename (h : d.rename here old new = .ok e) : ∃ source target,
    d.locate false here old = .ok source ∧ d.locate false here new = .ok target := by
  obtain ⟨source, hsource, h⟩ := bind_eq_ok_iff.mp h
  obtain ⟨target, htarget, -⟩ := bind_eq_ok_iff.mp h
  exact ⟨source, target, hsource, htarget⟩

theorem rename_eq (hold : d.locate false here old = .ok source)
    (hnew : d.locate false here new = .ok target) (hfile : d.entryAt? source = some (.file k)) :
    d.rename here old new =
      if d.entryAt? target = some .folder then .error .isFolder
      else if d.entryAt? target = some (.file k) then .ok d
      else .ok ((d.erase source).enter target (.file k)) := by
  simp only [rename, hold, hnew, hfile, bind, Except.bind]
  rcases d.entryAt? target with _ | _ | _ | _ <;> simp [Entry.number?] <;> rfl

theorem removeFile_eq_ok_iff : d.removeFile here path = .ok e ↔ ∃ l,
    d.locate false here path = .ok l ∧ d.entryAt? l ≠ none ∧ d.entryAt? l ≠ some .folder ∧
      d.erase l = e := by
  refine bind_eq_ok_iff.trans (exists_congr fun l => and_congr_right fun _ => ?_)
  rcases d.entryAt? l with _ | _ | _ | _ <;> simp

end AntRegister.Disk
