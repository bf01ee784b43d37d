import AntRegister.Proofs.Command.Phases
import AntRegister.Proofs.OutputFolder.Removal
import AntRegister.Proofs.Sql.References
/-! What a run publishes. Its files are among the names that the program owns. If it ends well, these
are in place and the stale ones are gone, and doing the same again changes nothing. -/

namespace AntRegister

open AntRegister.Action Disk AntRegister.Path OutputFolder

namespace Reconciliation

theorem apart_ownedFiles : Apart ownedFiles := ⟨by decide +kernel, by decide +kernel⟩

/-- No owned name is longer than the draft of one that every run writes. -/
theorem size_ownedFiles : ∀ n ∈ ownedFiles,
    n.utf8ByteSize ≤ (draft "migration.sql").utf8ByteSize := by decide +kernel

theorem draft_not_mem_ownedFiles : ∀ n ∈ ownedFiles, draft n ∉ ownedFiles := by decide +kernel

/-- Files under names that the program owns, with the one that every run writes. -/
structure Owned (files : List (String × String)) : Prop where
  names : (files.map Prod.fst).Sublist ownedFiles
  migration : "migration.sql" ∈ files.map Prod.fst

def stale (files : List (String × String)) : List String :=
  ownedFiles.filter fun n => !(files.map Prod.fst).contains n

theorem owned_files (r : Reconciliation) (o : Sql.Options) : Owned (files (r.seed o)) := by
  have hnames : (files (r.seed o)).map Prod.fst =
      ((r.seed o).inserts.map fun i => i.table).map (fun t => t.name ++ ".sql") ++
        ["migration.sql", seedFile] := by
    simp [files, Sql.Seed.files, Function.comp_def]
  rw [seed, Sql.tables_present] at hnames
  constructor
  · rw [seed, hnames]
    exact (List.filter_sublist.map _).append (.refl _)
  · rw [seed, hnames]
    exact List.mem_append_right _ List.mem_cons_self

theorem mem_stale_iff {files : List (String × String)} {n : String} :
    n ∈ stale files ↔ n ∈ ownedFiles ∧ n ∉ files.map Prod.fst := by
  rw [stale, List.mem_filter, Bool.not_eq_true', List.contains_eq_mem, decide_eq_false_iff_not]

theorem Owned.apart {files : List (String × String)} (h : Owned files) :
    Apart (files.map Prod.fst) where
  hasDraft n hn := apart_ownedFiles.hasDraft n (h.names.subset hn)
  clear := apart_ownedFiles.clear.sublist h.names

theorem Owned.mem {files : List (String × String)} (h : Owned files) {x : String × String}
    (hx : x ∈ files) : x.1 ∈ ownedFiles := h.names.subset (List.mem_map_of_mem hx)

theorem clear_of_ne {n m : String} (hn : n ∈ ownedFiles) (hm : m ∈ ownedFiles) (hne : n ≠ m) :
    Clear n m := by
  have : Std.Symm Clear := ⟨fun _ _ => Clear.symm⟩
  exact apart_ownedFiles.clear.forall hn hm hne

end Reconciliation

open Reconciliation

namespace OutputFolder

variable {folder : OutputFolder} {here l p q : Location} {files done : List (String × String)}
  {n text : String} {d e f : Disk}

/-- Files were written into the folder at a place, and some of those removed that are stale. -/
def Published (folder : OutputFolder) (here p : Location) (files : List (String × String))
    (d f : Disk) : Prop :=
  ∃ e, FiledAt folder here p files d e ∧ Removed p (stale files) e f

theorem entry_ne_of_not_mem {names : List String} (hn : n ∉ names) :
    ∀ m ∈ names, p ++ [n] ≠ p ++ [m] := by
  intro m hm heq
  rw [entry_inj] at heq
  exact hn (heq ▸ hm)

theorem draft_ne_of_stale (hn : n ∈ ownedFiles) :
    ∀ m ∈ stale files, p ++ [draft n] ≠ p ++ [m] :=
  entry_ne_of_not_mem fun hmem => draft_not_mem_ownedFiles n hn (mem_stale_iff.mp hmem).1

/-- What is under a name of a run and under that of its draft is not stale. -/
theorem entry_eq_of_removed (h : Removed p (stale files) e f) (howned : Owned files)
    (hx : (n, text) ∈ files) : f.entryAt? (p ++ [n]) = e.entryAt? (p ++ [n]) ∧
      f.entryAt? (p ++ [draft n]) = e.entryAt? (p ++ [draft n]) := by
  refine ⟨h.others _ (entry_ne_of_not_mem fun hmem => ?_),
    h.others _ (draft_ne_of_stale (howned.mem hx))⟩
  exact (mem_stale_iff.mp hmem).2 (List.mem_map_of_mem hx)

theorem Published.isAt (h : Published folder here p files d f) : folder.IsAt here d p := by
  obtain ⟨e, hfiled, -⟩ := h
  exact hfiled.isAt

theorem Published.leads (h : Published folder here p files d f) :
    f.Leads here folder.path p := by
  obtain ⟨e, hfiled, hremoved⟩ := h
  exact hfiled.leads.mono hremoved.grows

theorem Published.find?_written (howned : Owned files) (h : Published folder here p files d f)
    (hx : (n, text) ∈ files) : f.find? (p ++ [n]) = some (.file text.toUTF8) := by
  obtain ⟨e, hfiled, hremoved⟩ := h
  have hname := (entry_eq_of_removed hremoved howned hx).1
  exact (hremoved.find?_eq hname).trans (hfiled.placed.content (n, text) hx)

/-- Nothing is left of a draft unless it was one file with what it is the draft of, and then it is
that still. -/
theorem FiledAt.draft_cases (h : FiledAt folder here p done d e) (hx : (n, text) ∈ done) :
    e.entryAt? (p ++ [draft n]) = none ∨
      d.SameFile (p ++ [n]) (p ++ [draft n]) ∧ e.SameFile (p ++ [n]) (p ++ [draft n]) := by
  by_cases htwin : (folder.opened here d).SameFile (p ++ [n]) (p ++ [draft n])
  · obtain ⟨hname, hdraft⟩ := h.placed.twin (n, text) hx htwin
    refine .inr ⟨(paves_opened folder here d).sameFile_iff.mp htwin, ?_⟩
    exact htwin.congr hname.symm hdraft.symm
  · exact .inl (h.placed.gone (n, text) hx htwin)

theorem Published.draft_cases (howned : Owned files) (h : Published folder here p files d f)
    (hx : (n, text) ∈ files) : f.entryAt? (p ++ [draft n]) = none ∨
      d.SameFile (p ++ [n]) (p ++ [draft n]) ∧ f.SameFile (p ++ [n]) (p ++ [draft n]) := by
  obtain ⟨e, hfiled, hremoved⟩ := h
  obtain ⟨hname, hdraft⟩ := entry_eq_of_removed hremoved howned hx
  rcases hfiled.draft_cases hx with hnone | ⟨hold, hnew⟩
  · exact .inl (hdraft.trans hnone)
  · exact .inr ⟨hold, hnew.congr hname.symm hdraft.symm⟩

theorem Published.find?_eq_file_iff (howned : Owned files) (h : Published folder here p files d f)
    (hgone : Gone p (stale files) f) (hn : n ∈ ownedFiles) (bytes : ByteArray) :
    f.find? (p ++ [n]) = some (.file bytes) ↔
      ∃ content, (n, content) ∈ files ∧ content.toUTF8 = bytes := by
  constructor
  · intro hfile
    by_cases hwritten : n ∈ files.map Prod.fst
    · obtain ⟨⟨_, content⟩, hx, rfl⟩ := List.mem_map.mp hwritten
      rw [h.find?_written howned hx] at hfile
      exact ⟨content, hx, Node.file.inj (Option.some.inj hfile)⟩
    · obtain ⟨k, hk, -⟩ := Disk.find?_eq_file_iff.mp hfile
      exact absurd hk (hgone n (mem_stale_iff.mpr ⟨hn, hwritten⟩) k)
  · rintro ⟨content, hx, rfl⟩
    exact h.find?_written howned hx

theorem Published.ready (howned : Owned files) (h : Published folder here p files d f) :
    ∀ x ∈ files, Ready folder here p x.1 f := by
  intro x hx
  obtain ⟨k, hk, -⟩ := Disk.find?_eq_file_iff.mp (h.find?_written howned hx)
  obtain ⟨e, hfiled, -⟩ := id h
  refine ⟨h.leads, (hfiled.usable x hx).1, (hfiled.usable x hx).2, hk ▸ nofun, ?_⟩
  rcases h.draft_cases howned hx with hnone | ⟨-, j, -, hj⟩
  · exact hnone ▸ nofun
  · exact hj ▸ nofun

theorem Published.opened_eq (howned : Owned files) (h : Published folder here p files d f) :
    folder.opened here f = f := by
  obtain ⟨x, hx, hname⟩ := List.mem_map.mp howned.migration
  have hmigration : IsName "migration.sql" := by decide +kernel
  exact (h.ready howned x hx).opened_eq (hname ▸ hmigration)

/-- Publishing the same files once more starts where the first time has ended. -/
theorem Published.filedAt_again (howned : Owned files) (h : Published folder here p files d e)
    (hagain : Published folder here q files e f) :
    ∃ g, Placed p files e g ∧ Removed p (stale files) g f := by
  obtain ⟨g, hfiled, hremoved⟩ := hagain
  have hisAt := hfiled.isAt
  have hplaced := hfiled.placed
  rw [IsAt, h.opened_eq howned] at hisAt
  rw [h.opened_eq howned] at hplaced
  obtain rfl := hisAt.unique h.leads
  exact ⟨g, hplaced, hremoved⟩

theorem Published.entry_again (howned : Owned files) (h : Published folder here p files d e)
    (hgone : Gone p (stale files) e) {g : Disk} (hplaced : Placed p files e g)
    (hremoved : Removed p (stale files) g f) (hl : ∀ x ∈ files, l ≠ p ++ [x.1]) :
    f.entryAt? l = e.entryAt? l := by
  by_cases hdraft : ∃ x ∈ files, l = p ++ [draft x.1]
  · obtain ⟨x, hx, rfl⟩ := hdraft
    rw [(entry_eq_of_removed hremoved howned hx).2]
    rcases h.draft_cases howned hx with hnone | ⟨-, hsame⟩
    · rw [hnone]
      refine hplaced.gone x hx ?_
      rintro ⟨k, -, hk⟩
      rw [hnone] at hk
      cases hk
    · exact (hplaced.twin x hx hsame).2
  · have hbeside : g.entryAt? l = e.entryAt? l :=
      hplaced.others l fun x hx => ⟨hl x hx, fun heq => hdraft ⟨x, hx, heq⟩⟩
    by_cases hstale : ∃ n ∈ stale files, l = p ++ [n]
    · obtain ⟨n, hn, rfl⟩ := hstale
      rcases hremoved.stale n hn with heq | ⟨⟨k, hk⟩, -⟩
      · exact heq.trans hbeside
      · exact absurd (hbeside.symm.trans hk) (hgone n hn k)
    · exact (hremoved.others l fun n hn heq => hstale ⟨n, hn, heq⟩).trans hbeside

/-- What is one file with a draft is one with what it is the draft of. -/
theorem Published.sameFile_of_draft (howned : Owned files) (h : Published folder here p files d e)
    (hx : (n, text) ∈ files) (hl : e.SameFile l (p ++ [draft n])) :
    e.SameFile l (p ++ [n]) ∧ e.SameFile (p ++ [n]) (p ++ [draft n]) := by
  obtain ⟨k, hk, hdraft⟩ := hl
  rcases h.draft_cases howned hx with hnone | ⟨-, hsame⟩
  · rw [hnone] at hdraft
    cases hdraft
  · obtain ⟨j, hj, hj'⟩ := id hsame
    rw [hdraft, Option.some.injEq, Entry.file.injEq] at hj'
    exact ⟨⟨k, hk, hj' ▸ hj⟩, hsame⟩

/-- Publishing the same files once more changes nothing. -/
theorem Published.again (howned : Owned files) (h : Published folder here p files d e)
    (hgone : Gone p (stale files) e) (hagain : Published folder here q files e f) (l : Location) :
    f.find? l = e.find? l := by
  obtain ⟨g, hplaced, hremoved⟩ := h.filedAt_again howned hagain
  have hwritten : ∀ x ∈ files, f.find? (p ++ [x.1]) = e.find? (p ++ [x.1]) := by
    intro x hx
    have hname := (entry_eq_of_removed hremoved howned hx).1
    rw [hremoved.find?_eq hname, hplaced.content x hx, h.find?_written howned hx]
  by_cases hfile : ∃ x ∈ files, l = p ++ [x.1]
  · obtain ⟨x, hx, rfl⟩ := hfile
    exact hwritten x hx
  have hentry := h.entry_again howned hgone hplaced hremoved fun x hx heq => hfile ⟨x, hx, heq⟩
  by_cases hshared : ∃ x ∈ files, e.SameFile l (p ++ [draft x.1])
  · obtain ⟨x, hx, hl⟩ := hshared
    obtain ⟨hname, htwin⟩ := h.sameFile_of_draft howned hx hl
    have hkept := (entry_eq_of_removed hremoved howned hx).1.trans (hplaced.twin x hx htwin).1
    rw [hname.find?_eq, ← hwritten x hx, (hname.congr hentry.symm hkept.symm).find?_eq]
  by_cases hdraft : ∃ x ∈ files, l = p ++ [draft x.1]
  · obtain ⟨x, hx, rfl⟩ := hdraft
    exact find?_congr hentry fun k hk => absurd ⟨x, hx, k, hk, hk⟩ hshared
  · have hbeside : ∀ x ∈ files, Beside p x.1 l := fun x hx =>
      ⟨fun heq => hfile ⟨x, hx, heq⟩, fun heq => hdraft ⟨x, hx, heq⟩⟩
    have hkept := hplaced.spares l fun x hx => ⟨hbeside x hx, fun hl => hshared ⟨x, hx, hl⟩⟩
    exact (hremoved.find?_eq (hentry.trans (hplaced.others l hbeside).symm)).trans hkept

theorem exists_mem_or_clear (hnames : ∀ x ∈ done, x.1 ∈ ownedFiles) (hn : n ∈ ownedFiles) :
    (∃ text, (n, text) ∈ done) ∨ ∀ x ∈ done, Clear x.1 n := by
  by_cases hwritten : n ∈ done.map Prod.fst
  · obtain ⟨⟨_, text⟩, hx, rfl⟩ := List.mem_map.mp hwritten
    exact .inl ⟨text, hx⟩
  · refine .inr fun x hx => clear_of_ne (hnames x hx) hn ?_
    rintro rfl
    exact hwritten (List.mem_map_of_mem hx)

/-- The name of a draft has what it had, or nothing. -/
theorem Published.entry_draft (howned : Owned files) (h : Published folder here p files d f)
    (hn : n ∈ ownedFiles) : f.entryAt? (p ++ [draft n]) = none ∨
      f.entryAt? (p ++ [draft n]) = (folder.opened here d).entryAt? (p ++ [draft n]) := by
  obtain ⟨e, hfiled, hremoved⟩ := h
  rw [hremoved.others _ (draft_ne_of_stale hn)]
  rcases exists_mem_or_clear (fun x hx => howned.mem hx) hn with ⟨text, hx⟩ | hclear
  · by_cases htwin : (folder.opened here d).SameFile (p ++ [n]) (p ++ [draft n])
    · exact .inr (hfiled.placed.twin (n, text) hx htwin).2
    · exact .inl (hfiled.placed.gone (n, text) hx htwin)
  · exact .inr (hfiled.placed.others _ fun x hx => (hclear x hx).beside.2)

/-- Publishing ended early: in the middle of writing, or of removing. -/
inductive Stopped (folder : OutputFolder) (here : Location) (files : List (String × String))
    (d f : Disk) : Prop where
  | writing (h : Broken folder here files d f)
  | removing {p : Location} (h : Published folder here p files d f)

theorem Filed.exists_filedAt (h : Filed folder here files d e) (hne : files ≠ []) :
    ∃ p, FiledAt folder here p files d e := by
  cases h with
  | nothing => exact absurd rfl hne
  | @filed p _ _ _ _ h => exact ⟨p, h⟩

/-- After writing, no owned name is a link. -/
theorem FiledAt.not_isLink (hplain : Plain p ownedFiles d) (howned : Owned files)
    (h : FiledAt folder here p files d e) : ∀ n ∈ ownedFiles, ¬e.IsLink (p ++ [n]) := by
  intro n hn
  rcases exists_mem_or_clear (fun x hx => howned.mem hx) hn with ⟨text, hx⟩ | hclear
  · obtain ⟨k, hk, -⟩ := find?_eq_file_iff.mp (h.placed.content (n, text) hx)
    exact not_isLink_of_file hk
  · rw [isLink_congr (h.placed.others _ fun x hx => (hclear x hx).beside.1)]
    exact (hplain.opened.unlinked n hn).file

theorem Published.plain (howned : Owned files) (hplain : Plain p ownedFiles d)
    (h : Published folder here p files d f) : Plain p ownedFiles f := by
  have hopened : Plain p ownedFiles (folder.opened here d) := hplain.opened
  refine ⟨fun n hn => ⟨?_, ?_⟩, fun n hn m hm hne => ?_⟩
  · obtain ⟨e, hfiled, hremoved⟩ := h
    exact hremoved.not_isLink (hfiled.not_isLink hplain howned n hn)
  · rcases h.entry_draft howned hn with hnone | hsame
    · rw [← target?_eq_none_iff]
      exact target?_of_empty hnone
    · rw [isLink_congr hsame]
      exact (hopened.unlinked n hn).draft
  · rintro ⟨k, hn', hm'⟩
    have hkept : ∀ m ∈ ownedFiles, f.entryAt? (p ++ [draft m]) = some (.file k) →
        (folder.opened here d).entryAt? (p ++ [draft m]) = some (.file k) := by
      intro m hm hk
      rcases h.entry_draft howned hm with hnone | hsame
      · rw [hnone] at hk
        cases hk
      · exact hsame ▸ hk
    exact hopened.apart n hn m hm hne ⟨k, hkept n hn hn', hkept m hm hm'⟩

/-- The next run finds the folder where it was, and its names as plain as they were. -/
theorem Published.plain_again (howned : Owned files) (hplain : Plain p ownedFiles d)
    (h : Published folder here p files d f) (hq : folder.IsAt here f q) :
    Plain q ownedFiles f := by
  rw [IsAt, h.opened_eq howned] at hq
  obtain rfl := hq.unique h.leads
  exact h.plain howned hplain

end OutputFolder

theorem Pipeline.ends_publish (c : Console) (folder : OutputFolder) {seed : Sql.Seed}
    (howned : Owned (Reconciliation.files seed)) (w : World)
    (hplain : ∀ p, folder.IsAt w.here w.disk p → Plain p ownedFiles w.disk) :
    (Pipeline.publish c folder seed).Ends w
      (fun _ v => ∃ p, Published folder w.here p (Reconciliation.files seed) w.disk v.disk ∧
        (w.Sees → Gone p (stale (Reconciliation.files seed)) v.disk))
      (fun e v => e.IsOfWriting ∧
        Stopped folder w.here (Reconciliation.files seed) w.disk v.disk ∧
        (w.IsCalm → ∀ p, ¬∀ x ∈ Reconciliation.files seed, Ready folder w.here p x.1 w.disk)) := by
  have hwrite := ends_writeAll howned.apart w fun p hp =>
    (hplain p hp).subset howned.names.subset
  refine hwrite.bind (fun _ v hv hfiled => ?_) fun e v _ ⟨hwriting, hbroken, hcalm⟩ =>
    ⟨hwriting, .writing hbroken, hcalm⟩
  obtain ⟨migration, hmigration, hname⟩ := List.mem_map.mp howned.migration
  obtain ⟨p, hat⟩ := hfiled.exists_filedAt (List.ne_nil_of_mem hmigration)
  -- where the longest of the drafts went, every owned name can be looked up
  have hdraft := (hat.usable migration hmigration).2
  rw [hname] at hdraft
  have husable : ∀ n ∈ ownedFiles, Usable (join folder.path n) := fun n hn =>
    hdraft.of_le (by decide +kernel) (apart_ownedFiles.hasDraft n hn).isName (size_ownedFiles n hn)
  have hleads : v.disk.Leads v.here folder.path p := hv.here ▸ hat.leads
  refine (ends_removeStale (fun n hn => (apart_ownedFiles.hasDraft n hn).isName) hleads husable
    (hat.not_isLink (hplain p hat.isAt) howned)).bind
      (fun removed u hu ⟨hremoved, hgone⟩ => ?_) fun e u _ ⟨hwriting, hremoved, hcalm⟩ => ?_
  · refine (Ends.forIn (I := fun t => t.disk = u.disk) (F := fun _ _ => False)
      (fun path _ t ht => ?_) removed PUnit.unit rfl).bind
        (fun _ t _ ht => .pure ⟨p, ⟨v.disk, hat, ht ▸ hremoved⟩, fun h => ht ▸ hgone (hv.sees h)⟩)
          fun _ _ _ => False.elim
    have hnoted : ((c.progressOf "sql" ("Removed stale " ++ path)).run t).2.disk = u.disk :=
      (Program.Uses.disk_run (Console.uses_progressOf (fun _ => trivial) c _ _) t).trans ht
    exact Ends.bind (.ofProgram (P := fun _ s => s.disk = u.disk) hnoted)
      (fun _ _ _ hs => .pure hs) fun _ _ _ => False.elim
  · exact ⟨hwriting, .removing ⟨v.disk, hat, hremoved⟩, fun h => absurd (hv.isCalm h) hcalm⟩

end AntRegister
