import AntRegister.Proofs.Command.Publication
/-! What holds at any time of publishing, whether it goes on, has ended well or was broken off. What
the run does not own is as it was, each owned name has what it had or what the run has for it, and
one draft at most is left unfinished. -/

namespace AntRegister.OutputFolder

open Disk AntRegister.Path Reconciliation

variable {folder : OutputFolder} {here l p q : Location} {files done : List (String × String)}
  {n text : String} {d e f : Disk}

/-- What may be under an owned name: what was there, what the run has for it, or nothing in place of
a file that the run does not have. -/
def Holds (here : Location) (path : String) (p : Location) (files : List (String × String))
    (d f : Disk) (n : String) : Prop :=
  Kept here path d f (p ++ [n]) ∨
    (∃ content, (n, content) ∈ files ∧ f.find? (p ++ [n]) = some (.file content.toUTF8)) ∨
    n ∉ files.map Prod.fst ∧ (∃ old, d.find? (p ++ [n]) = some (.file old)) ∧
      f.find? (p ++ [n]) = none

/-- What may be under the name of a draft of which nothing was left: what was there, or nothing or
the file that was put in place. -/
def Cleared (here : Location) (path : String) (p : Location) (files : List (String × String))
    (d f : Disk) (n : String) : Prop :=
  Kept here path d f (p ++ [draft n]) ∨
    (∃ content, (n, content) ∈ files ∧ f.find? (p ++ [n]) = some (.file content.toUTF8)) ∧
      (f.find? (p ++ [draft n]) = none ∨
        d.SameFile (p ++ [n]) (p ++ [draft n]) ∧ f.SameFile (p ++ [n]) (p ++ [draft n]))

/-- What holds at any time of a run, which may have left one file unfinished. -/
structure Progress (folder : OutputFolder) (here : Location) (files : List (String × String))
    (d f : Disk) (unfinished : Option String) : Prop where
  foreign : ∀ l, (∀ p, folder.IsAt here d p → ∀ n ∈ ownedFiles,
      Beside p n l ∧ ¬d.SameFile l (p ++ [draft n])) → Kept here folder.path d f l
  names : ∀ p, folder.IsAt here d p →
    (∀ n ∈ ownedFiles, ∀ m ∈ ownedFiles, ¬d.SameFile (p ++ [n]) (p ++ [draft m])) →
      ∀ n ∈ ownedFiles, Holds here folder.path p files d f n
  drafts : ∀ p, folder.IsAt here d p → ∀ n ∈ ownedFiles,
    Cleared here folder.path p files d f n ∨
      unfinished = some n ∧ ∃ left, f.find? (p ++ [draft n]) = some (.file left)

theorem Progress.of_kept (h : ∀ l, Kept here folder.path d f l) :
    Progress folder here files d f none :=
  ⟨fun l _ => h l, fun _ _ _ _ _ => .inl (h _), fun _ _ _ _ => .inl (.inl (h _))⟩

section Progress

variable (h : FiledAt folder here p done d e) (hnames : ∀ x ∈ done, x.1 ∈ ownedFiles)

include h

theorem FiledAt.kept_of_eq (hgrows : e.Grows f)
    (hl : f.find? l = (folder.opened here d).find? l) : Kept here folder.path d f l :=
  ((paves_opened folder here d).kept l).of_eq (h.placed.grows.trans hgrows) hl

include hnames

theorem FiledAt.find?_foreign
    (hl : ∀ n ∈ ownedFiles, Beside p n l ∧ ¬d.SameFile l (p ++ [draft n])) :
    e.find? l = (folder.opened here d).find? l :=
  h.placed.spares l fun x hx => ⟨(hl _ (hnames x hx)).1,
    mt (paves_opened folder here d).sameFile_iff.mp (hl _ (hnames x hx)).2⟩

theorem FiledAt.find?_name (hclear : ∀ x ∈ done, Clear x.1 n) (hn : n ∈ ownedFiles)
    (hshared : ∀ n ∈ ownedFiles, ∀ m ∈ ownedFiles, ¬d.SameFile (p ++ [n]) (p ++ [draft m])) :
    e.find? (p ++ [n]) = (folder.opened here d).find? (p ++ [n]) :=
  h.placed.spares _ fun x hx => ⟨(hclear x hx).beside.1,
    mt (paves_opened folder here d).sameFile_iff.mp (hshared n hn _ (hnames x hx))⟩

theorem FiledAt.find?_draft (hclear : ∀ x ∈ done, Clear x.1 n) (hn : n ∈ ownedFiles)
    (hplain : Plain p ownedFiles d) :
    e.find? (p ++ [draft n]) = (folder.opened here d).find? (p ++ [draft n]) :=
  h.placed.spares _ fun x hx => ⟨(hclear x hx).beside.2,
    hplain.opened.apart n hn _ (hnames x hx) (hclear x hx).names.symm⟩

end Progress

/-- Where a file is in place, its draft is as writing has left it. -/
theorem FiledAt.cleared (h : FiledAt folder here p done d e) (hx : (n, text) ∈ done)
    (hmem : (n, text) ∈ files) (hfile : f.find? (p ++ [n]) = some (.file text.toUTF8))
    (hname : f.entryAt? (p ++ [n]) = e.entryAt? (p ++ [n]))
    (hdraft : f.entryAt? (p ++ [draft n]) = e.entryAt? (p ++ [draft n])) :
    Cleared here folder.path p files d f n := by
  refine .inr ⟨⟨text, hmem, hfile⟩, ?_⟩
  rcases h.draft_cases hx with hnone | ⟨hold, hnew⟩
  · exact .inl (find?_eq_none_iff.mpr (hdraft.trans hnone))
  · exact .inr ⟨hold, hnew.congr hname.symm hdraft.symm⟩

theorem FiledAt.progress_of_removed (howned : Owned files) (hplain : Plain p ownedFiles d)
    (h : FiledAt folder here p files d e) (hremoved : Removed p (stale files) e f) :
    Progress folder here files d f none := by
  have hnames : ∀ x ∈ files, x.1 ∈ ownedFiles := fun x hx => howned.mem hx
  have hkept : ∀ l, f.entryAt? l = e.entryAt? l → e.find? l = (folder.opened here d).find? l →
      Kept here folder.path d f l := fun l hl hopened =>
    h.kept_of_eq hremoved.grows ((hremoved.find?_eq hl).trans hopened)
  have hpublished : Published folder here p files d f := ⟨e, h, hremoved⟩
  refine ⟨fun l hl => ?_, fun q hq hshared n hn => ?_, fun q hq n hn => ?_⟩
  · have hl := hl p h.isAt
    refine hkept l (hremoved.others l fun n hn => ?_) (h.find?_foreign hnames hl)
    exact (hl n (mem_stale_iff.mp hn).1).1.1
  · obtain rfl := hq.unique h.isAt
    rcases exists_mem_or_clear hnames hn with ⟨text, hx⟩ | hclear
    · exact .inr (.inl ⟨text, hx, hpublished.find?_written howned hx⟩)
    · have hfresh : n ∉ files.map Prod.fst := by
        rintro hmem
        obtain ⟨x, hx, rfl⟩ := List.mem_map.mp hmem
        exact (hclear x hx).names rfl
      have hopened := h.find?_name hnames hclear hn hshared
      rcases hremoved.stale n (mem_stale_iff.mpr ⟨hn, hfresh⟩) with heq | ⟨⟨k, hk⟩, hnone⟩
      · exact .inl (hkept _ heq hopened)
      · -- of what has a stale name, only a file is removed
        have hfile := (h.placed.others _ fun x hx => (hclear x hx).beside.1).symm.trans hk
        have hold := (paves_opened folder here d).file_iff.mp hfile
        exact .inr (.inr ⟨hfresh, ⟨_, find?_eq_file_iff.mpr ⟨k, hold, rfl⟩⟩,
          find?_eq_none_iff.mpr hnone⟩)
  · obtain rfl := hq.unique h.isAt
    rcases exists_mem_or_clear hnames hn with ⟨text, hx⟩ | hclear
    · obtain ⟨hname, hdraft⟩ := entry_eq_of_removed hremoved howned hx
      exact .inl (h.cleared hx hx (hpublished.find?_written howned hx) hname hdraft)
    · exact .inl (.inl (hkept _ (hremoved.others _ (draft_ne_of_stale hn))
        (h.find?_draft hnames hclear hn hplain)))

/-- The draft of a file was opened or not, and nothing else was done. -/
structure Drafted (p : Location) (n : String) (e f : Disk) : Prop where
  entry : ∀ l, l ≠ p ++ [draft n] → f.entryAt? l = e.entryAt? l
  spares : ∀ l, l ≠ p ++ [draft n] → ¬e.SameFile l (p ++ [draft n]) → f.find? l = e.find? l
  draft : f.find? (p ++ [draft n]) = e.find? (p ++ [draft n]) ∨
    ∃ left, f.find? (p ++ [draft n]) = some (.file left)
  grows : e.Grows f

theorem drafted_of_stores (hleads : e.Leads here folder.path p)
    (h : Paves here folder.path e f ∨ ∃ k, Stores (p ++ [draft n]) k e f) :
    Drafted p n e f := by
  rcases h with h | ⟨k, h⟩
  · have hentry : ∀ l, f.entryAt? l = e.entryAt? l := fun l => hleads.entry_of_paves h
    have hsame : ∀ l, f.find? l = e.find? l := fun l =>
      find?_congr (hentry l) fun k _ => h.content_eq k
    exact ⟨fun l _ => hentry l, fun l _ _ => hsame l, .inl (hsame _), h.grows⟩
  · exact ⟨h.others, fun _ => h.find?_eq, .inr ⟨_, find?_eq_file_iff.mpr ⟨k, h.entry, rfl⟩⟩,
      h.grows⟩

theorem FiledAt.not_sameFile (h : FiledAt folder here p done d e)
    (hclear : ∀ x ∈ done, Clear x.1 n) (hl : ∀ x ∈ done, Beside p x.1 l)
    (hsame : ¬d.SameFile l (p ++ [draft n])) : ¬e.SameFile l (p ++ [draft n]) := by
  intro he
  refine hsame ((paves_opened folder here d).sameFile_iff.mp (he.congr (h.placed.others l hl) ?_))
  exact h.placed.others _ fun x hx => (hclear x hx).beside.2

theorem FiledAt.progress_of_drafted {rest : List (String × String)} {x : String × String}
    (howned : Owned files) (hplain : Plain p ownedFiles d) (hfiles : files = done ++ x :: rest)
    (h : FiledAt folder here p done d e) (hx : Drafted p x.1 e f) :
    Progress folder here files d f (some x.1) := by
  have hsub : ∀ y ∈ done, y ∈ files := fun y hy => hfiles ▸ List.mem_append_left _ hy
  have hnames : ∀ y ∈ done, y.1 ∈ ownedFiles := fun y hy => howned.mem (hsub y hy)
  have hxn : x.1 ∈ ownedFiles := howned.mem (hfiles ▸ List.mem_append_right _ List.mem_cons_self)
  have hclear : ∀ y ∈ done, Clear y.1 x.1 := by
    have hapart := howned.apart
    rw [hfiles, List.map_append] at hapart
    exact fun y hy => hapart.clear_append _ (List.mem_map_of_mem hy)
  have hname : ∀ n ∈ ownedFiles, p ++ [n] ≠ p ++ [draft x.1] := fun n hn heq =>
    draft_not_mem_ownedFiles x.1 hxn (entry_inj.mp heq ▸ hn)
  have hkept : ∀ l, (∀ y ∈ done, Beside p y.1 l) → l ≠ p ++ [draft x.1] →
      ¬d.SameFile l (p ++ [draft x.1]) → e.find? l = (folder.opened here d).find? l →
        Kept here folder.path d f l := fun l hl hne hsame hopened =>
    h.kept_of_eq hx.grows ((hx.spares l hne (h.not_sameFile hclear hl hsame)).trans hopened)
  -- a file that is in place shares nothing with the draft that was opened
  have hwritten : ∀ n text, (n, text) ∈ done →
      f.find? (p ++ [n]) = some (.file text.toUTF8) := by
    intro n text hy
    refine (hx.spares _ (hname n (hnames _ hy)) ?_).trans (h.placed.content (n, text) hy)
    refine h.placed.clear (n, text) hy _ (fun z hz => (hclear z hz).beside.2) ?_
    exact hplain.opened.apart _ hxn _ (hnames _ hy) (hclear _ hy).names.symm
  refine ⟨fun l hl => ?_, fun q hq hshared n hn => ?_, fun q hq n hn => ?_⟩
  · have hl := hl p h.isAt
    exact hkept l (fun y hy => (hl _ (hnames y hy)).1) (hl _ hxn).1.2 (hl _ hxn).2
      (h.find?_foreign hnames hl)
  · obtain rfl := hq.unique h.isAt
    rcases exists_mem_or_clear hnames hn with ⟨text, hy⟩ | hn'
    · exact .inr (.inl ⟨text, hsub _ hy, hwritten n text hy⟩)
    · exact .inl (hkept _ (fun y hy => (hn' y hy).beside.1) (hname n hn) (hshared n hn _ hxn)
        (h.find?_name hnames hn' hn hshared))
  · obtain rfl := hq.unique h.isAt
    rcases exists_mem_or_clear hnames hn with ⟨text, hy⟩ | hn'
    · have hdraft := hx.entry (q ++ [draft n]) fun heq =>
        (hclear _ hy).drafts (entry_inj.mp heq)
      exact .inl (h.cleared hy (hsub _ hy) (hwritten n text hy) (hx.entry _ (hname n hn)) hdraft)
    · have hopened := h.find?_draft hnames hn' hn hplain
      by_cases hne : n = x.1
      · subst hne
        rcases hx.draft with hsame | hleft
        · exact .inl (.inl (h.kept_of_eq hx.grows (hsame.trans hopened)))
        · exact .inr ⟨rfl, hleft⟩
      · refine .inl (.inl (hkept _ (fun y hy => (hn' y hy).beside.2) ?_ ?_ hopened))
        · exact fun heq => (clear_of_ne hn hxn hne).drafts (entry_inj.mp heq)
        · exact hplain.apart n hn _ hxn hne

theorem Published.progress (howned : Owned files)
    (hplain : ∀ p, folder.IsAt here d p → Plain p ownedFiles d)
    (h : Published folder here p files d f) : Progress folder here files d f none := by
  obtain ⟨e, hfiled, hremoved⟩ := h
  exact hfiled.progress_of_removed howned (hplain p hfiled.isAt) hremoved

theorem Stopped.progress (howned : Owned files)
    (hplain : ∀ p, folder.IsAt here d p → Plain p ownedFiles d)
    (h : Stopped folder here files d f) :
    ∃ unfinished, Progress folder here files d f unfinished := by
  cases h with
  | removing h => exact ⟨none, h.progress howned hplain⟩
  | writing h =>
    cases h with
    | unwritten hf => exact ⟨none, .of_kept hf.kept⟩
    | @written p _ _ x _ hfiles hdone hx =>
      exact ⟨some x.1, hdone.progress_of_drafted howned (hplain p hdone.isAt) hfiles
        (drafted_of_stores hdone.leads hx)⟩

end AntRegister.OutputFolder
