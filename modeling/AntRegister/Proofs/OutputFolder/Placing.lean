import AntRegister.Proofs.OutputFolder.Writing
/-! Writing several files one after the other. Their names and those of their drafts have to be
apart, so that no file takes the place of another one's draft, and no two drafts may be one file, so
that what was written stays as it is. -/

namespace AntRegister.OutputFolder

open AntRegister.Action Disk AntRegister.Path

variable {folder : OutputFolder} {here l p q : Location} {n m content : String} {d e f : Disk}
  {k : Nat}

@[mk_iff] structure Clear (n m : String) : Prop where
  names : n ≠ m
  drafts : draft n ≠ draft m
  draft_left : draft n ≠ m
  draft_right : n ≠ draft m

instance (n m : String) : Decidable (Clear n m) := decidable_of_iff' _ (clear_iff n m)

theorem Clear.symm (h : Clear n m) : Clear m n :=
  ⟨h.names.symm, h.drafts.symm, h.draft_right.symm, h.draft_left.symm⟩

/-- Names of files that can be written one after the other. -/
structure Apart (names : List String) : Prop where
  hasDraft : ∀ n ∈ names, HasDraft n
  clear : names.Pairwise Clear

theorem Apart.clear_append {names later : List String} (h : Apart (names ++ n :: later)) :
    ∀ m ∈ names, Clear m n := fun m hm =>
  (List.pairwise_append.mp h.clear).2.2 m hm n List.mem_cons_self

/-- Whether a place is neither that of a file nor that of its draft. -/
def Beside (p : Location) (n : String) (l : Location) : Prop := l ≠ p ++ [n] ∧ l ≠ p ++ [draft n]

theorem Clear.beside (h : Clear n m) :
    Beside p n (p ++ [m]) ∧ Beside p n (p ++ [draft m]) := by
  simp only [Beside, ne_eq, entry_inj]
  exact ⟨⟨h.names.symm, h.draft_left.symm⟩, h.draft_right.symm, h.drafts.symm⟩

/-- Files were written, and what is not one file with a draft is as it was. -/
structure Placed (p : Location) (files : List (String × String)) (d e : Disk) : Prop where
  content : ∀ x ∈ files, e.find? (p ++ [x.1]) = some (.file x.2.toUTF8)
  twin : ∀ x ∈ files, d.SameFile (p ++ [x.1]) (p ++ [draft x.1]) →
    e.entryAt? (p ++ [x.1]) = d.entryAt? (p ++ [x.1]) ∧
      e.entryAt? (p ++ [draft x.1]) = d.entryAt? (p ++ [draft x.1])
  gone : ∀ x ∈ files, ¬d.SameFile (p ++ [x.1]) (p ++ [draft x.1]) →
    e.entryAt? (p ++ [draft x.1]) = none
  others : ∀ l, (∀ x ∈ files, Beside p x.1 l) → e.entryAt? l = d.entryAt? l
  spares : ∀ l, (∀ x ∈ files, Beside p x.1 l ∧ ¬d.SameFile l (p ++ [draft x.1])) →
    e.find? l = d.find? l
  clear : ∀ x ∈ files, ∀ l, (∀ y ∈ files, Beside p y.1 l) →
    ¬d.SameFile l (p ++ [draft x.1]) → ¬e.SameFile (p ++ [x.1]) l
  grows : d.Grows e

variable {files done : List (String × String)}

theorem Placed.nil (p : Location) (d : Disk) : Placed p [] d d where
  content := nofun
  twin := nofun
  gone := nofun
  others _ _ := rfl
  spares _ _ := rfl
  clear := nofun
  grows := .refl d

theorem Placed.concat (h : Placed p done d e) (hclear : ∀ x ∈ done, Clear x.1 n)
    (hdrafts : ∀ x ∈ done, ¬d.SameFile (p ++ [draft n]) (p ++ [draft x.1]))
    (hn : Written p n content e f) : Placed p (done ++ [(n, content)]) d f := by
  have hentry : e.entryAt? (p ++ [n]) = d.entryAt? (p ++ [n]) :=
    h.others _ fun x hx => (hclear x hx).beside.1
  have hdraft : e.entryAt? (p ++ [draft n]) = d.entryAt? (p ++ [draft n]) :=
    h.others _ fun x hx => (hclear x hx).beside.2
  -- the names of what was written before stay as they are
  have hbefore : ∀ x ∈ done, f.entryAt? (p ++ [x.1]) = e.entryAt? (p ++ [x.1]) ∧
      f.entryAt? (p ++ [draft x.1]) = e.entryAt? (p ++ [draft x.1]) := by
    intro x hx
    obtain ⟨hname, hdraftx⟩ := (hclear x hx).symm.beside (p := p)
    exact ⟨hn.others _ hname.1 hname.2, hn.others _ hdraftx.1 hdraftx.2⟩
  have hlast : ∀ l, (∀ x ∈ done ++ [(n, content)], Beside p x.1 l) →
      (∀ x ∈ done, Beside p x.1 l) ∧ Beside p n l := fun l hl =>
    ⟨fun x hx => hl x (List.mem_append_left _ hx),
      hl _ (List.mem_append_right _ List.mem_cons_self)⟩
  have hsame : ∀ l, (∀ x ∈ done, Beside p x.1 l) → e.SameFile l (p ++ [draft n]) →
      d.SameFile l (p ++ [draft n]) := fun l hl hl' => hl'.congr (h.others l hl) hdraft
  refine ⟨fun x hx => ?_, fun x hx hx' => ?_, fun x hx hx' => ?_, fun l hl => ?_, fun l hl => ?_,
    fun x hx l hl hl' => ?_, h.grows.trans hn.grows⟩
  · rcases List.mem_append.mp hx with hx | hx
    · obtain ⟨hname, -⟩ := (hclear x hx).symm.beside (p := p)
      have hapart : ¬e.SameFile (p ++ [x.1]) (p ++ [draft n]) :=
        h.clear x hx _ (fun y hy => (hclear y hy).beside.2) (hdrafts x hx)
      exact (hn.spares _ hname.1 hname.2 hapart).1.trans (h.content x hx)
    · obtain rfl := List.mem_singleton.mp hx
      exact hn.content
  · rcases List.mem_append.mp hx with hx | hx
    · exact ⟨(hbefore x hx).1.trans (h.twin x hx hx').1, (hbefore x hx).2.trans (h.twin x hx hx').2⟩
    · obtain rfl := List.mem_singleton.mp hx
      obtain ⟨hname, hdraft'⟩ := hn.twin (hx'.congr hentry.symm hdraft.symm)
      exact ⟨hname.trans hentry, hdraft'.trans hdraft⟩
  · rcases List.mem_append.mp hx with hx | hx
    · exact (hbefore x hx).2.trans (h.gone x hx hx')
    · obtain rfl := List.mem_singleton.mp hx
      exact hn.gone fun hsame => hx' (hsame.congr hentry hdraft)
  · obtain ⟨hdone, hl⟩ := hlast l hl
    exact (hn.others l hl.1 hl.2).trans (h.others l hdone)
  · obtain ⟨hdone, hlast'⟩ := hlast l fun x hx => (hl x hx).1
    have hnew : ¬e.SameFile l (p ++ [draft n]) := fun hl' =>
      (hl _ (List.mem_append_right _ List.mem_cons_self)).2 (hsame l hdone hl')
    exact (hn.spares l hlast'.1 hlast'.2 hnew).1.trans
      (h.spares l fun x hx => hl x (List.mem_append_left _ hx))
  · obtain ⟨hdone, hlast'⟩ := hlast l hl
    rcases List.mem_append.mp hx with hx | hx
    · have hkept := hn.others l hlast'.1 hlast'.2
      exact fun hf => h.clear x hx l hdone hl' (hf.congr (hbefore x hx).1 hkept)
    · obtain rfl := List.mem_singleton.mp hx
      exact (hn.spares l hlast'.1 hlast'.2 fun hl'' => hl' (hsame l hdone hl'')).2

/-- Whether no file with one of some names and no draft of one is a symbolic link, and no two of the
drafts are one file. -/
@[mk_iff] structure Plain (p : Location) (names : List String) (d : Disk) : Prop where
  unlinked : ∀ n ∈ names, Unlinked p n d
  apart : ∀ n ∈ names, ∀ m ∈ names, n ≠ m → ¬d.SameFile (p ++ [draft n]) (p ++ [draft m])

instance (p : Location) (names : List String) (d : Disk) : Decidable (Plain p names d) :=
  decidable_of_iff' _ (plain_iff p names d)

theorem Plain.subset {names more : List String} (h : Plain p more d) (hsub : names ⊆ more) :
    Plain p names d :=
  ⟨fun n hn => h.unlinked n (hsub hn), fun n hn m hm => h.apart n (hsub hn) m (hsub hm)⟩

theorem Unlinked.congr (h : Unlinked p n d) (hfile : e.entryAt? (p ++ [n]) = d.entryAt? (p ++ [n]))
    (hdraft : e.entryAt? (p ++ [OutputFolder.draft n]) = d.entryAt? (p ++ [OutputFolder.draft n])) :
    Unlinked p n e :=
  ⟨mt (isLink_congr hfile).mp h.file, mt (isLink_congr hdraft).mp h.draft⟩

theorem Plain.opened {names : List String} (h : Plain p names d) :
    Plain p names (folder.opened here d) := by
  have hpaves := paves_opened folder here d
  refine ⟨fun n hn => ⟨?_, ?_⟩, fun n hn m hm hne => ?_⟩
  · exact mt hpaves.isLink_iff.mp (h.unlinked n hn).file
  · exact mt hpaves.isLink_iff.mp (h.unlinked n hn).draft
  · exact mt hpaves.sameFile_iff.mp (h.apart n hn m hm hne)

/-- Files were written into the folder at a place. -/
structure FiledAt (folder : OutputFolder) (here p : Location) (files : List (String × String))
    (d e : Disk) : Prop where
  isAt : folder.IsAt here d p
  placed : Placed p files (folder.opened here d) e
  usable : ∀ x ∈ files, Usable (join folder.path x.1) ∧ Usable (join folder.path (draft x.1))

/-- Files were written into the folder, or there were none. -/
inductive Filed (folder : OutputFolder) (here : Location) :
    List (String × String) → Disk → Disk → Prop
  | nothing {d : Disk} : Filed folder here [] d d
  | filed {p : Location} {x : String × String} {files : List (String × String)} {d e : Disk}
    (h : FiledAt folder here p (x :: files) d e) : Filed folder here (x :: files) d e

theorem FiledAt.leads (h : FiledAt folder here p files d e) : e.Leads here folder.path p :=
  h.isAt.mono h.placed.grows

theorem FiledAt.opened_eq {x : String × String} (h : FiledAt folder here p (x :: files) d e)
    (hx : HasDraft x.1) : folder.opened here e = e :=
  OutputFolder.opened_eq h.leads hx.isName (h.usable x List.mem_cons_self).1

/-- What was written before another file is in the place where that goes. -/
theorem Filed.filedAt (h : Filed folder here done d e) (hdone : ∀ x ∈ done, HasDraft x.1)
    (hp : folder.IsAt here e p) : FiledAt folder here p done d (folder.opened here e) := by
  cases h with
  | nothing => exact ⟨hp, .nil p _, nofun⟩
  | @filed q x =>
    next h =>
    have hopened := h.opened_eq (hdone x List.mem_cons_self)
    rw [IsAt, hopened] at hp
    obtain rfl := hp.unique h.leads
    rwa [hopened]

theorem FiledAt.concat (h : FiledAt folder here p done d e) (hapart : ∀ x ∈ done, Clear x.1 n)
    (hdrafts : ∀ x ∈ done,
      ¬(folder.opened here d).SameFile (p ++ [draft n]) (p ++ [draft x.1]))
    (husable : Usable (join folder.path n) ∧ Usable (join folder.path (draft n)))
    (hn : Written p n content e f) : FiledAt folder here p (done ++ [(n, content)]) d f where
  isAt := h.isAt
  placed := h.placed.concat hapart hdrafts hn
  usable x hx := by
    rcases List.mem_append.mp hx with hx | hx
    · exact h.usable x hx
    · obtain rfl := List.mem_singleton.mp hx
      exact husable

theorem FiledAt.filed (h : FiledAt folder here p files d e) (hne : files ≠ []) :
    Filed folder here files d e := by
  cases files with
  | nil => exact absurd rfl hne
  | cons x files => exact .filed h

theorem FiledAt.ready (h : FiledAt folder here p done d e) (hclear : ∀ x ∈ done, Clear x.1 n)
    (hn : IsName n) (hready : Ready folder here q n d) : Ready folder here q n e := by
  obtain rfl := h.isAt.unique (hready.isAt hn)
  have hplaced := h.placed
  rw [hready.opened_eq hn] at hplaced
  refine ⟨h.leads, hready.usable, hready.usableDraft, ?_, ?_⟩
  · rw [hplaced.others _ fun x hx => (hclear x hx).beside.1]
    exact hready.free
  · rw [hplaced.others _ fun x hx => (hclear x hx).beside.2]
    exact hready.freeDraft

theorem Filed.ready (h : Filed folder here done d e) (hclear : ∀ x ∈ done, Clear x.1 n)
    (hn : IsName n) (hready : Ready folder here q n d) : Ready folder here q n e := by
  cases h with
  | nothing => exact hready
  | filed h => exact h.ready hclear hn hready

/-- Writing files ended early: nothing was written, or some files and not the next one. -/
inductive Broken (folder : OutputFolder) (here : Location) (files : List (String × String))
    (d f : Disk) : Prop where
  | unwritten (hf : Paves here folder.path d f)
  | written {p : Location} {done rest : List (String × String)} {x : String × String} {e : Disk}
    (hfiles : files = done ++ x :: rest) (hdone : FiledAt folder here p done d e)
    (hx : Paves here folder.path e f ∨ ∃ k, Stores (p ++ [draft x.1]) k e f)

theorem Filed.broken {rest : List (String × String)} {x : String × String}
    (hdone : Filed folder here done d e) (hnames : ∀ y ∈ done, HasDraft y.1)
    (hfiles : files = done ++ x :: rest) (hx : Unwritten folder here x.1 e f) :
    Broken folder here files d f := by
  rcases hx with hpaves | ⟨p, k, hp, hstores⟩
  · cases hdone with
    | nothing => exact .unwritten hpaves
    | filed h => exact .written hfiles h (.inl hpaves)
  · exact .written hfiles (hdone.filedAt hnames hp) (.inr ⟨k, hstores⟩)

theorem ends_writeAll (hapart : Apart (files.map Prod.fst)) (w : World)
    (hplain : ∀ p, folder.IsAt w.here w.disk p → Plain p (files.map Prod.fst) w.disk) :
    (folder.writeAll files).Ends w
      (fun _ v => Filed folder w.here files w.disk v.disk)
      (fun e v => e.IsOfWriting ∧ Broken folder w.here files w.disk v.disk ∧
        (w.IsCalm → ∀ p, ¬∀ x ∈ files, Ready folder w.here p x.1 w.disk)) := by
  refine .mapM (I := fun done v => Filed folder w.here done w.disk v.disk)
    (fun done x rest v hfiles hv hdone => ?_) .nothing
  have hmem : x ∈ files := hfiles ▸ List.mem_append_right _ List.mem_cons_self
  have hsub : ∀ y ∈ done, y ∈ files := fun y hy => hfiles ▸ List.mem_append_left _ hy
  have hnames : ∀ y ∈ done, HasDraft y.1 := fun y hy =>
    hapart.hasDraft _ (List.mem_map_of_mem (hsub y hy))
  have hx := hapart.hasDraft _ (List.mem_map_of_mem hmem)
  -- neither the file nor its draft has the name of one that is in place already
  have hclear : ∀ y ∈ done, Clear y.1 x.1 := by
    rw [hfiles, List.map_append] at hapart
    exact fun y hy => hapart.clear_append _ (List.mem_map_of_mem hy)
  have hlinks : ∀ p, folder.IsAt v.here v.disk p →
      Unlinked p x.1 (folder.opened v.here v.disk) := by
    rw [hv.here]
    intro p hp
    have hat := hdone.filedAt hnames hp
    exact ((hplain p hat.isAt).opened.unlinked _ (List.mem_map_of_mem hmem)).congr
      (hat.placed.others _ fun y hy => (hclear y hy).beside.1)
      (hat.placed.others _ fun y hy => (hclear y hy).beside.2)
  refine (ends_write hx x.2 v hlinks).mono
    (fun _ u _ ⟨p, hp, husable, husableDraft, hwritten⟩ => ?_)
      fun e u _ ⟨hwriting, hunwritten, hcalm⟩ => ?_
  · rw [hv.here] at hp hwritten
    have hat := hdone.filedAt hnames hp
    refine (hat.concat hclear (fun y hy => ?_) ⟨husable, husableDraft⟩ hwritten).filed (by simp)
    exact (hplain p hat.isAt).opened.apart _ (List.mem_map_of_mem hmem) _
      (List.mem_map_of_mem (hsub y hy)) (hclear y hy).names.symm
  · rw [hv.here] at hunwritten hcalm
    exact ⟨hwriting, hdone.broken hnames hfiles hunwritten, fun h p hready =>
      hcalm (hv.isCalm h) p (hdone.ready hclear hx.isName (hready x hmem))⟩

end AntRegister.OutputFolder
