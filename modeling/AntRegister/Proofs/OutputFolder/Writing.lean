import AntRegister.Proofs.Command.Collection
import AntRegister.Proofs.Disk.Files
import AntRegister.Proofs.Runs
/-! Writing files into the output folder. A file is in place only once its draft is complete, and of
a file that cannot be written no more than the draft is left. Both stand in the place that the path
of the folder leads to once the folder is made. A draft may be one file with something else, which
then has its content too. -/

namespace AntRegister.OutputFolder

open AntRegister.Action Disk AntRegister.Path

@[mk_iff] structure HasDraft (n : String) : Prop where
  isName : IsName n
  isDraft : IsName (draft n)
  ne : draft n ≠ n

instance (n : String) : Decidable (HasDraft n) := decidable_of_iff' _ (hasDraft_iff n)

/-- The disk once the folder is made, as far as that can be done. -/
def opened (folder : OutputFolder) (here : Location) (d : Disk) : Disk :=
  (d.makeFolders here folder.path folder.path.length).2

/-- Whether the path of the folder leads to a place once the folder is made. -/
def IsAt (folder : OutputFolder) (here : Location) (d : Disk) (p : Location) : Prop :=
  (folder.opened here d).Leads here folder.path p

instance (folder : OutputFolder) (here : Location) (d : Disk) (p : Location) :
    Decidable (folder.IsAt here d p) :=
  inferInstanceAs (Decidable ((folder.opened here d).Leads here folder.path p))

variable {folder : OutputFolder} {here l p q : Location} {n m content : String} {d e f : Disk}
  {k : Nat}

theorem paves_opened (folder : OutputFolder) (here : Location) (d : Disk) :
    Paves here folder.path d (folder.opened here d) := paves_makeFolders d here folder.path _

theorem IsAt.unique (h : folder.IsAt here d p) (h' : folder.IsAt here d q) : p = q :=
  Leads.unique h h'

theorem entry_inj : p ++ [n] = p ++ [m] ↔ n = m := by
  rw [List.append_cancel_left_eq, List.singleton_inj]

theorem opened_eq (h : d.Leads here folder.path p) (hn : IsName n)
    (husable : Usable (join folder.path n)) : folder.opened here d = d :=
  congrArg Prod.snd (h.makeFolders_eq (husable.of_join hn) _)

theorem exists_of_locate_draft (hn : HasDraft n) {follow : Bool}
    (h : d.locate follow here (draft (join folder.path n)) = .ok l) :
    Usable (join folder.path (draft n)) ∧ ∃ p, d.Leads here folder.path p ∧
      (follow = false ∨ ¬d.IsLink (p ++ [draft n]) → l = p ++ [draft n]) := by
  rw [draft_join hn.isName hn.isDraft] at h
  exact exists_of_locate_join hn.isDraft h

theorem locate_draft (hn : HasDraft n) (h : d.Leads here folder.path p) {follow : Bool}
    (husable : Usable (join folder.path (draft n)))
    (hlink : follow = false ∨ ¬d.IsLink (p ++ [draft n])) :
    d.locate follow here (draft (join folder.path n)) = .ok (p ++ [draft n]) := by
  rw [draft_join hn.isName hn.isDraft]
  exact h.locate_join hn.isDraft husable hlink

/-- Whether neither a file nor its draft is a symbolic link. -/
@[mk_iff] structure Unlinked (p : Location) (n : String) (d : Disk) : Prop where
  file : ¬d.IsLink (p ++ [n])
  draft : ¬d.IsLink (p ++ [OutputFolder.draft n])

instance (p : Location) (n : String) (d : Disk) : Decidable (Unlinked p n d) :=
  decidable_of_iff' _ (unlinked_iff p n d)

/-- A file is in place with its content, and nothing is left of its draft unless both were one file
already. -/
structure Written (p : Location) (n content : String) (d e : Disk) : Prop where
  content : e.find? (p ++ [n]) = some (.file content.toUTF8)
  twin : d.SameFile (p ++ [n]) (p ++ [draft n]) →
    e.entryAt? (p ++ [n]) = d.entryAt? (p ++ [n]) ∧
      e.entryAt? (p ++ [draft n]) = d.entryAt? (p ++ [draft n])
  gone : ¬d.SameFile (p ++ [n]) (p ++ [draft n]) → e.entryAt? (p ++ [draft n]) = none
  others : ∀ l, l ≠ p ++ [n] → l ≠ p ++ [draft n] → e.entryAt? l = d.entryAt? l
  spares : ∀ l, l ≠ p ++ [n] → l ≠ p ++ [draft n] → ¬d.SameFile l (p ++ [draft n]) →
    e.find? l = d.find? l ∧ ¬e.SameFile (p ++ [n]) l
  grows : d.Grows e

/-- Nothing keeps a file from being written but trouble. -/
structure Ready (folder : OutputFolder) (here p : Location) (n : String) (d : Disk) : Prop where
  leads : d.Leads here folder.path p
  usable : Usable (join folder.path n)
  usableDraft : Usable (join folder.path (draft n))
  free : d.entryAt? (p ++ [n]) ≠ some .folder
  freeDraft : d.entryAt? (p ++ [draft n]) ≠ some .folder

theorem Ready.opened_eq (h : Ready folder here p n d) (hn : IsName n) :
    folder.opened here d = d := OutputFolder.opened_eq h.leads hn h.usable

theorem Ready.isAt (h : Ready folder here p n d) (hn : IsName n) : folder.IsAt here d p := by
  rw [IsAt, h.opened_eq hn]
  exact h.leads

theorem grows_move (hl : e.entryAt? l = some (.file k)) (hm : e.entryAt? q ≠ some .folder)
    (hlink : ¬e.IsLink q) : e.Grows ((e.erase l).enter q (.file k)) := by
  refine .of_kept fun m x hx hentry => ?_
  rw [entryAt?_enter_of_ne, entryAt?_erase_of_ne, hentry]
  · rintro rfl
    obtain rfl := Option.some.inj (hentry.symm.trans hl)
    cases hx
  · rintro rfl
    cases x with
    | file j => cases hx
    | folder => exact hm hentry
    | link target => exact hlink (isLink_iff.mpr ⟨target, hentry⟩)

theorem not_sameFile_of_stores (hdraft : Stores (p ++ [draft n]) k d e) (hl : l ≠ p ++ [draft n])
    (hsame : ¬d.SameFile l (p ++ [draft n])) : e.entryAt? l ≠ some (.file k) :=
  hdraft.others l hl ▸ hdraft.not_sameFile hsame

/-- Where a file is one with its draft, it is complete with that. -/
theorem written_of_twin (hn : HasDraft n) (hdraft : Stores (p ++ [draft n]) k d e)
    (hcontent : e.content k = content.toUTF8) (htwin : e.entryAt? (p ++ [n]) = some (.file k)) :
    Written p n content d e := by
  have hfile := hdraft.others _ fun heq => hn.ne (entry_inj.mp heq).symm
  have hnumber : d.entryAt? (p ++ [draft n]) = some (.file k) :=
    hdraft.number.resolve_right fun hnew => hnew.2 _ (hfile ▸ htwin)
  refine ⟨find?_eq_file_iff.mpr ⟨k, htwin, hcontent⟩,
    fun _ => ⟨hfile, hdraft.entry.trans hnumber.symm⟩,
    fun hsame => absurd ⟨k, hfile ▸ htwin, hnumber⟩ hsame, fun l _ hl => hdraft.others l hl,
    fun l _ hl hsame => ⟨hdraft.find?_eq hl hsame, ?_⟩, hdraft.grows⟩
  rintro ⟨j, hj, hlj⟩
  rw [← hj, htwin] at hlj
  exact not_sameFile_of_stores hdraft hl hsame hlj

theorem written_of_move (hn : HasDraft n) (hlink : ¬d.IsLink (p ++ [n]))
    (hdraft : Stores (p ++ [draft n]) k d e) (hcontent : e.content k = content.toUTF8)
    (hfolder : e.entryAt? (p ++ [n]) ≠ some .folder)
    (htwin : e.entryAt? (p ++ [n]) ≠ some (.file k)) :
    Written p n content d ((e.erase (p ++ [draft n])).enter (p ++ [n]) (.file k)) := by
  have hapart : p ++ [draft n] ≠ p ++ [n] := fun heq => hn.ne (entry_inj.mp heq)
  have hfile := hdraft.others _ hapart.symm
  have hentry : ((e.erase (p ++ [draft n])).enter (p ++ [n]) (.file k)).entryAt? (p ++ [n]) =
      some (.file k) := entryAt?_enter_self (by simp)
  have hmoved : ∀ l, l ≠ p ++ [n] → l ≠ p ++ [draft n] →
      ((e.erase (p ++ [draft n])).enter (p ++ [n]) (.file k)).entryAt? l = e.entryAt? l :=
    fun l hl hl' => (entryAt?_enter_of_ne hl).trans (entryAt?_erase_of_ne hl')
  refine ⟨find?_eq_file_iff.mpr ⟨k, hentry, hcontent⟩, fun hsame => ?_, fun _ => ?_,
    fun l hl hl' => (hmoved l hl hl').trans (hdraft.others l hl'),
    fun l hl hl' hsame => ⟨?_, ?_⟩, hdraft.grows.trans (grows_move hdraft.entry hfolder ?_)⟩
  · obtain ⟨j, hj, hj'⟩ := hsame
    rcases hdraft.number with hnumber | ⟨hnone, -⟩
    · rw [hfile, hj, ← hj', hnumber] at htwin
      exact absurd rfl htwin
    · rw [hnone] at hj'
      cases hj'
  · rw [entryAt?_enter_of_ne hapart, entryAt?_erase_self (by simp)]
  · exact (find?_congr (hmoved l hl hl') fun _ _ => rfl).trans (hdraft.find?_eq hl' hsame)
  · rintro ⟨j, hj, hlj⟩
    rw [hmoved l hl hl', ← hj, hentry] at hlj
    exact not_sameFile_of_stores hdraft hl' hsame hlj
  · rwa [isLink_congr hfile]

/-- A draft that is complete becomes the file. -/
theorem written_of_rename (hn : HasDraft n) (hlink : ¬d.IsLink (p ++ [n]))
    (hleads : d.Leads here folder.path p) (hdraft : Stores (p ++ [draft n]) k d e)
    (hcontent : e.content k = content.toUTF8)
    (hrename : e.rename here (draft (join folder.path n)) (join folder.path n) = .ok f) :
    Usable (join folder.path n) ∧ Written p n content d f := by
  have hleads' := hleads.mono hdraft.grows
  obtain ⟨source, target, hsource, htarget⟩ := exists_of_rename hrename
  obtain ⟨-, q, hq, hsource'⟩ := exists_of_locate_draft hn hsource
  obtain ⟨husable, r, hr, htarget'⟩ := exists_of_locate_join hn.isName htarget
  obtain rfl := hq.unique hleads'
  obtain rfl := hr.unique hq
  obtain rfl := hsource' (.inl rfl)
  obtain rfl := htarget' (.inl rfl)
  rw [rename_eq hsource htarget hdraft.entry] at hrename
  refine ⟨husable, ?_⟩
  split at hrename
  · cases hrename
  next hfolder =>
    split at hrename
    next htwin =>
      obtain rfl := Except.ok.inj hrename
      exact written_of_twin hn hdraft hcontent htwin
    next htwin =>
      obtain rfl := Except.ok.inj hrename
      exact written_of_move hn hlink hdraft hcontent hfolder htwin

theorem Ready.exists_createFile (hn : HasDraft n) (h : Ready folder here p n d)
    (hlink : ¬d.IsLink (p ++ [draft n])) :
    ∃ e, d.createFile here (draft (join folder.path n)) = .ok e :=
  Disk.exists_createFile (locate_draft hn h.leads h.usableDraft (.inr hlink)) h.freeDraft hlink

theorem Ready.exists_rename (hn : HasDraft n) (h : Ready folder here p n d)
    (hdraft : Stores (p ++ [draft n]) k d e) :
    ∃ f, e.rename here (draft (join folder.path n)) (join folder.path n) = .ok f := by
  have hleads := h.leads.mono hdraft.grows
  rw [rename_eq (locate_draft hn hleads h.usableDraft (.inl rfl))
    (hleads.locate_join hn.isName h.usable (.inl rfl)) hdraft.entry, if_neg]
  · split
    · exact ⟨_, rfl⟩
    · exact ⟨_, rfl⟩
  · rw [hdraft.others _ fun heq => hn.ne (entry_inj.mp heq).symm]
    exact h.free

theorem isOfWriting_notWritten (draft content : String) (fault : Fault) :
    (notWritten draft content fault).IsOfWriting := by
  unfold notWritten
  split <;> trivial

theorem ends_fill (hn : HasDraft n) (hlinks : Unlinked p n d) (content : String) {w : World}
    (hleads : d.Leads w.here folder.path p) (husable : Usable (join folder.path (draft n)))
    (hdraft : Stores (p ++ [draft n]) k d w.disk) :
    Action.Ends (do
        let path := join folder.path n
        let draft := draft path
        Action.ofExcept (notWritten draft content) (← Action.request (.writeFile draft content))
        Action.ofExcept (.notRenamed draft path) (← Action.request (.rename draft path))
        return path) w
      (fun _ v => Usable (join folder.path n) ∧ Written p n content d v.disk)
      (fun e v => e.IsOfWriting ∧ Stores (p ++ [draft n]) k d v.disk ∧
        (w.IsCalm → ¬Ready folder w.here p n d)) := by
  have hlink := not_isLink_of_file hdraft.entry
  have hlocate : w.disk.locate true w.here (draft (join folder.path n)) = .ok (p ++ [draft n]) :=
    locate_draft hn (hleads.mono hdraft.grows) husable (.inr hlink)
  have hwrite := writeFile_eq hlocate hdraft.entry
  refine .attempt (ends_writeFile w _ _ _) (fun _ v hv hwritten => ?_)
    fun fault v hv hwritten => ⟨isOfWriting_notWritten _ _ _, ?_, fun hcalm _ => ?_⟩
  · -- the draft is complete, and only the move can fail
    have hdisk := Except.ok.inj ((hwrite content.toUTF8).symm.trans hwritten)
    have hcomplete := hdraft.fill content.toUTF8
    have hcontent : v.disk.content k = content.toUTF8 := hdisk ▸ content_fill_self
    rw [hdisk] at hcomplete
    refine .attempt (ends_rename v _ _ _) (fun _ u hu hrenamed => .pure ?_)
      fun fault u hu hrenamed => ⟨trivial, hrenamed.1 ▸ hcomplete, fun hcalm hready => ?_⟩
    · rw [hv.here] at hrenamed
      exact written_of_rename hn hlinks.file hleads hcomplete hcontent hrenamed
    · have herror := hrenamed.2 (hv.isCalm hcalm)
      obtain ⟨moved, hmoved⟩ := hready.exists_rename hn hcomplete
      rw [hv.here, hmoved] at herror
      cases herror
  · -- whatever part of the text was written, it is in the draft
    rcases hwritten.1 with heq | ⟨part, hpart⟩
    · exact heq ▸ hdraft
    · exact Except.ok.inj ((hwrite part).symm.trans hpart) ▸ hdraft.fill _
  · have herror := hwritten.2 hcalm
    rw [hwrite content.toUTF8] at herror
    cases herror

/-- What a file that was not written leaves: no more than folders on the way, or a draft. -/
def Unwritten (folder : OutputFolder) (here : Location) (n : String) (d e : Disk) : Prop :=
  Paves here folder.path d e ∨ ∃ p k, folder.IsAt here d p ∧
    Stores (p ++ [draft n]) k (folder.opened here d) e

theorem ends_write (hn : HasDraft n) (content : String) (w : World)
    (hlinks : ∀ p, folder.IsAt w.here w.disk p → Unlinked p n (folder.opened w.here w.disk)) :
    (folder.write n content).Ends w
      (fun _ v => ∃ p, folder.IsAt w.here w.disk p ∧ Usable (join folder.path n) ∧
        Usable (join folder.path (draft n)) ∧
        Written p n content (folder.opened w.here w.disk) v.disk)
      (fun e v => e.IsOfWriting ∧ Unwritten folder w.here n w.disk v.disk ∧
        (w.IsCalm → ∀ p, ¬Ready folder w.here p n w.disk)) := by
  -- with the folder there, making it changes nothing and does not fail
  have hready : ∀ p, Ready folder w.here p n w.disk →
      w.disk.makeFolders w.here folder.path folder.path.length = (.ok (), w.disk) := fun p h =>
    h.leads.makeFolders_eq (h.usable.of_join hn.isName) _
  refine .attempt (ends_makeFolders w _ folder.path) (fun _ v hv hmade => ?_)
    fun fault v hv hmade => ⟨trivial, .inl hmade.1, fun hcalm p h => ?_⟩
  · refine .attempt (ends_createFile v _ _) (fun _ u hu hopened => ?_)
      fun fault u hu hopened =>
        ⟨trivial, .inl ?_, fun hcalm p h => ?_⟩
    · rw [hv.here, hmade] at hopened
      obtain ⟨l, k, hlocate, hdraft⟩ := exists_of_createFile hopened
      obtain ⟨husable, p, hp, hl⟩ := exists_of_locate_draft hn hlocate
      have hunlinked := hlinks p hp
      obtain rfl := hl (.inr hunlinked.draft)
      have hsame := hv.trans hu
      refine .attempt (ends_lockFile u _ _) (fun _ t ht hlocked => ?_)
        fun fault t ht hlocked =>
          ⟨trivial, .inr ⟨p, k, hp, hlocked.1 ▸ hdraft⟩, fun hcalm => ?_⟩
      · have hsame' := hsame.trans ht
        refine (ends_fill hn hunlinked content (hsame'.here ▸ hp) husable
          (hlocked.1 ▸ hdraft)).mono (fun _ s _ hwritten => ?_)
            fun e s _ ⟨hwriting, hleft, hcalm⟩ => ?_
        · exact ⟨p, hp, hwritten.1, husable, hwritten.2⟩
        · refine ⟨hwriting, .inr ⟨p, k, hp, hleft⟩, fun h q hq => ?_⟩
          obtain rfl := (hq.isAt hn.isName).unique hp
          rw [hsame'.here, hq.opened_eq hn.isName] at hcalm
          exact hcalm (hsame'.isCalm h) hq
      · exact absurd (hsame.isCalm hcalm) (hlocked.2 fault rfl)
    · rw [hopened.1, hmade]
      exact paves_opened folder w.here w.disk
    · -- with the folder there the draft can be opened
      have herror := hopened.2 (hv.isCalm hcalm)
      have hlink := (hlinks p (h.isAt hn.isName)).draft
      rw [h.opened_eq hn.isName] at hlink
      obtain ⟨made, hcreated⟩ := h.exists_createFile hn hlink
      rw [hmade, hready p h, hv.here, hcreated] at herror
      cases herror
  · have herror := hmade.2 hcalm
    rw [hready p h] at herror
    cases herror

end AntRegister.OutputFolder
