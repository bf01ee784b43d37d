import AntRegister.Proofs.Disk.Places
import AntRegister.Proofs.Sequence
import Mathlib.Data.List.Induction
import Mathlib.Data.List.TakeWhile
/-! Making a folder and those above it. It puts folders where nothing was, on the way to it and
nowhere else. -/

namespace AntRegister

open AntRegister.Path

namespace Path

variable {path above : String}

/-- What stands behind the segments up to the slashes at the end of a path is empty. -/
theorem exists_segments_eq (path : String) :
    ∃ rest, segments path = slashless path ++ rest ∧ ∀ s ∈ rest, isIdle s = true := by
  refine ⟨((segments path).reverse.takeWhile String.isEmpty).reverse, ?_, fun s hs => ?_⟩
  · rw [slashless, ← List.reverse_append, List.takeWhile_append_dropWhile, List.reverse_reverse]
  · have hempty := List.mem_takeWhile_imp (List.mem_reverse.mp hs)
    rw [isIdle, hempty, Bool.true_or]

theorem above_empty (count : Nat) : Path.above "" count = "" := by
  have hnone : parent? "" = none := by decide
  cases count with
  | zero => rfl
  | succ count => rw [Path.above, hnone]

theorem trimIdle_prefix (ss : List String) : trimIdle ss <+: ss := by
  cases ss with
  | nil => exact List.prefix_rfl
  | cons s ss =>
    rw [trimIdle, List.cons_prefix_cons, ← List.reverse_suffix, List.reverse_reverse]
    exact ⟨rfl, List.dropWhile_suffix _⟩

end Path

namespace Disk

variable {d e f : Disk} {here l m : Location} {path above : String}

/-- Whether a path leads to a place or over it. -/
def OnWay (d : Disk) (here : Location) (path : String) (l : Location) : Prop :=
  ∃ ss, ss <+: segments path ∧ d.walk true mostLinks (start here path) ss = .ok l

theorem Grows.onWay (h : d.Grows e) (hl : d.entryAt? l = some .folder)
    (hway : d.OnWay here path l) : e.OnWay here path l := by
  obtain ⟨ss, hss, hwalk⟩ := hway
  exact ⟨ss, hss, h.walk_eq hwalk (target?_of_folder hl) (target?_of_folder (h.folders l hl))⟩

theorem OnWay.append_slash (hne : above ≠ "") (q : String) (h : d.OnWay here above l) :
    d.OnWay here (above ++ "/" ++ q) l := by
  obtain ⟨ss, hss, hl⟩ := h
  refine ⟨ss, hss.trans ?_, ?_⟩
  · rw [segments_append_slash]
    exact List.prefix_append _ _
  · rwa [start, String.append_assoc, isAbsolute_append hne]

theorem walk_of_idle {links : Nat} {ss rest : List String}
    (hrest : ∀ s ∈ rest, isIdle s = true) (h : d.walk true links l (ss ++ rest) = .ok m) :
    d.walk true links l ss = .ok m := by
  induction rest using List.reverseRecOn generalizing m with
  | nil => rwa [List.append_nil] at h
  | append_singleton rest s ih =>
    rw [← List.append_assoc] at h
    obtain ⟨p, q, target, hp, hlook, hq⟩ := exists_of_walk_concat h
    have hidle := look_of_isIdle (hrest s (by simp)) (folder_of_look hlook)
    obtain ⟨rfl, rfl⟩ := Prod.mk.inj (Except.ok.inj (hidle.symm.trans hlook))
    rw [hq (.inl rfl)]
    exact ih (fun r hr => hrest r (List.mem_append_left _ hr)) hp

/-- All on the way to the root is the root. -/
theorem OnWay.eq_root (h : d.OnWay here "/" l) : l = [] := by
  obtain ⟨ss, ⟨rest, hss⟩, hwalk⟩ := h
  have hidle : ∀ s ∈ ss, isIdle s = true := by
    have hall : ∀ s ∈ segments "/", isIdle s = true := by decide
    exact fun s hs => hall s (hss ▸ List.mem_append_left _ hs)
  have hstart : d.walk true mostLinks (start here "/") [] = .ok l := walk_of_idle hidle hwalk
  exact (Except.ok.inj hstart).symm

theorem onWay_root (q : String) : d.OnWay here ("/" ++ q) [] := by
  have hstart : start here ("/" ++ q) = [] := by
    rw [start, isAbsolute_append (by decide)]
    rfl
  refine ⟨[], List.nil_prefix, ?_⟩
  rw [hstart]
  rfl

/-- Segments in front of others are a path of their own, and all on its way is on the way of the
whole. -/
theorem OnWay.of_segments {ss rest : List String} (hpath : segments path = ss ++ rest)
    (hrest : rest ≠ []) (hne : ofSegments ss ≠ "") (h : d.OnWay here (ofSegments ss) l) :
    d.OnWay here path l := by
  have hss : ss ≠ [] := by
    rintro rfl
    exact hne rfl
  have hwhole : path = "/".intercalate ss ++ "/" ++ "/".intercalate rest := by
    rw [← String.intercalate_append_of_ne_nil hss hrest, ← hpath, intercalate_segments]
  by_cases hroot : ss = [""]
  · rw [hroot] at h hwhole
    rw [hwhole, h.eq_root]
    exact onWay_root _
  · rw [ofSegments_of_ne hroot] at h hne
    rw [hwhole]
    exact h.append_slash hne _

theorem OnWay.of_parent (hparent : parent? path = some above) (hne : above ≠ "")
    (h : d.OnWay here above l) : d.OnWay here path l := by
  unfold parent? at hparent
  dsimp only at hparent
  split at hparent
  · cases hparent
  · obtain rfl := Option.some.inj hparent
    obtain ⟨rest, hrest⟩ : trimmedSegments path <+: segments path := trimIdle_prefix _
    obtain ⟨mid, hmid⟩ := trimIdle_prefix (trimmedSegments path).dropLast
    rcases List.eq_nil_or_concat (trimmedSegments path) with hnil | ⟨front, last, hlast⟩
    · rw [hnil] at hne
      exact absurd rfl hne
    · have hsegments : segments path =
          trimIdle (trimmedSegments path).dropLast ++ (mid ++ last :: rest) := by
        rw [← List.append_assoc, hmid, ← hrest, hlast, List.concat_eq_append, List.dropLast_concat,
          List.append_assoc]
        rfl
      exact h.of_segments hsegments (by simp) hne

/-- Whether a disk has come of another by making folders on the way to a path. -/
structure Paves (here : Location) (path : String) (d e : Disk) : Prop where
  entry : ∀ l, e.entryAt? l = d.entryAt? l ∨
    e.OnWay here path l ∧ d.entryAt? l = none ∧ e.entryAt? l = some .folder
  contents : e.contents = d.contents

theorem Paves.refl (here : Location) (path : String) (d : Disk) : Paves here path d d :=
  ⟨fun _ => .inl rfl, rfl⟩

theorem Paves.entry_of_ne_none (h : Paves here path d e) (hl : d.entryAt? l ≠ none) :
    e.entryAt? l = d.entryAt? l := (h.entry l).resolve_right fun hnew => hl hnew.2.1

theorem Paves.entry_of_ne_folder (h : Paves here path d e) (hl : e.entryAt? l ≠ some .folder) :
    e.entryAt? l = d.entryAt? l := (h.entry l).resolve_right fun hnew => hl hnew.2.2

theorem Paves.file_iff (h : Paves here path d e) {k : Nat} :
    e.entryAt? l = some (.file k) ↔ d.entryAt? l = some (.file k) := by
  constructor
  · intro hl
    rwa [← h.entry_of_ne_folder (hl ▸ nofun)]
  · intro hl
    rwa [h.entry_of_ne_none (hl ▸ nofun)]

theorem Paves.sameFile_iff (h : Paves here path d e) : e.SameFile l m ↔ d.SameFile l m :=
  exists_congr fun _ => and_congr h.file_iff h.file_iff

theorem Paves.isLink_iff (h : Paves here path d e) : e.IsLink l ↔ d.IsLink l := by
  rw [Disk.isLink_iff, Disk.isLink_iff]
  refine exists_congr fun target => ⟨fun hl => ?_, fun hl => ?_⟩
  · rwa [← h.entry_of_ne_folder (hl ▸ nofun)]
  · rwa [h.entry_of_ne_none (hl ▸ nofun)]

theorem Paves.grows (h : Paves here path d e) : d.Grows e where
  folders _ hl := (h.entry_of_ne_none (hl ▸ nofun)).trans hl
  links _ _ hl := (h.entry_of_ne_none (hl ▸ nofun)).trans hl

theorem Paves.trans (hd : Paves here path d e) (he : Paves here path e f) :
    Paves here path d f where
  entry l := by
    rcases hd.entry l with hl | ⟨hway, hnone, hfolder⟩
    · rcases he.entry l with hl' | ⟨hway, hnone, hfolder⟩
      · exact .inl (hl'.trans hl)
      · exact .inr ⟨hway, hl ▸ hnone, hfolder⟩
    · exact .inr ⟨he.grows.onWay hfolder hway, hnone, he.grows.folders l hfolder⟩
  contents := he.contents.trans hd.contents

theorem Paves.mono (h : Paves here above d e)
    (hway : ∀ l, e.OnWay here above l → e.OnWay here path l) : Paves here path d e :=
  ⟨fun l => (h.entry l).imp_right fun ⟨habove, hnew⟩ => ⟨hway l habove, hnew⟩, h.contents⟩

theorem Paves.content_eq (h : Paves here path d e) (k : Nat) : e.content k = d.content k := by
  rw [content, h.contents, content]

theorem paves_enter (hnone : d.entryAt? l = none)
    (hway : (d.enter l .folder).OnWay here path l) : Paves here path d (d.enter l .folder) where
  entry m := by
    have hl : l ≠ [] := ne_root_of_entryAt?_eq_none hnone
    by_cases hm : m = l
    · subst hm
      exact .inr ⟨hway, hnone, entryAt?_enter_self hl⟩
    · exact .inl (entryAt?_enter_of_ne hm)
  contents := rfl

theorem grows_enter (hnone : d.entryAt? l = none) {x : Entry} : d.Grows (d.enter l x) where
  folders m hm := by
    rwa [entryAt?_enter_of_ne]
    rintro rfl
    rw [hnone] at hm
    cases hm
  links m target hm := by
    rwa [entryAt?_enter_of_ne]
    rintro rfl
    rw [hnone] at hm
    cases hm

theorem exists_of_makeFolder (h : d.makeFolder here path = .ok e) : ∃ l,
    d.entryAt? l = none ∧ d.walk true mostLinks (start here path) (slashless path) = .ok l ∧
      d.enter l .folder = e := by
  unfold makeFolder at h
  dsimp only at h
  split at h
  · cases h
  · obtain ⟨l, hl, h⟩ := bind_eq_ok_iff.mp h
    cases hentry : d.entryAt? l with
    | some x =>
      rw [hentry] at h
      cases h
    | none =>
      rw [hentry] at h
      have htarget := target?_of_empty hentry
      exact ⟨l, hentry, (Grows.refl d).walk_eq hl htarget htarget, Except.ok.inj h⟩

theorem paves_makeFolder (h : d.makeFolder here path = .ok e) : Paves here path d e := by
  obtain ⟨l, hnone, hwalk, rfl⟩ := exists_of_makeFolder h
  have hl : l ≠ [] := ne_root_of_entryAt?_eq_none hnone
  obtain ⟨rest, hrest, -⟩ := exists_segments_eq path
  refine paves_enter hnone ⟨slashless path, hrest ▸ List.prefix_append _ _, ?_⟩
  exact (grows_enter hnone).walk_eq hwalk (target?_of_empty hnone)
    (target?_of_folder (entryAt?_enter_self hl))

theorem paves_ensureFolder (d : Disk) (here : Location) (path : String) :
    Paves here path d (d.ensureFolder here path).2 := by
  unfold ensureFolder
  cases h : d.makeFolder here path with
  | ok e => exact paves_makeFolder h
  | error fault => exact .refl here path d

theorem paves_makeFolders (d : Disk) (here : Location) (path : String) (depth : Nat) :
    Paves here path d (d.makeFolders here path depth).2 := by
  induction depth generalizing path d with
  | zero =>
    have hensured := paves_ensureFolder d here path
    unfold makeFolders
    split
    · exact .refl here path d
    · split
      next e h => rwa [h] at hensured
      next => exact hensured
  | succ depth ih =>
    have hensured := paves_ensureFolder d here path
    unfold makeFolders
    split
    · exact .refl here path d
    · split
      next e h =>
        rw [h] at hensured
        split
        next above hdepth hparent =>
          obtain rfl := Nat.succ.inj hdepth
          -- what is on the way of the folder above is on the way of the path
          have habove : Paves here path e (e.makeFolders here above depth).2 := by
            by_cases hempty : above = ""
            · rw [hempty, makeFolders.eq_def]
              exact .refl here path e
            · exact (ih e above).mono fun l => OnWay.of_parent hparent hempty
          split
          next f hf =>
            rw [hf] at habove
            exact (hensured.trans habove).trans (paves_ensureFolder f here path)
          next fault f hf =>
            rw [hf] at habove
            exact hensured.trans habove
        next => exact hensured
      next => exact hensured

theorem paves_above (d : Disk) (here : Location) (path : String) (count depth : Nat) :
    Paves here path d (d.makeFolders here (Path.above path count) depth).2 := by
  induction count generalizing path with
  | zero => exact paves_makeFolders d here path depth
  | succ count ih =>
    rw [Path.above]
    split
    next parent hparent =>
      by_cases hempty : parent = ""
      · rw [hempty, above_empty, makeFolders.eq_def]
        exact .refl here path d
      · exact (ih parent).mono fun l => OnWay.of_parent hparent hempty
    next => exact paves_makeFolders d here path depth

/-- All that stands in front of segments that lead somewhere leads to a folder. -/
theorem exists_walk_append {links : Nat} {ss rest : List String}
    (h : d.walk true links l (ss ++ rest) = .ok m)
    (hm : d.entryAt? m = some .folder) :
    ∃ q, d.walk true links l ss = .ok q ∧ d.entryAt? q = some .folder := by
  induction rest using List.reverseRecOn generalizing m with
  | nil => exact ⟨m, by rwa [List.append_nil] at h, hm⟩
  | append_singleton rest s ih =>
    rw [← List.append_assoc] at h
    obtain ⟨p, q, target, hp, hlook, -⟩ := exists_of_walk_concat h
    exact ih hp (folder_of_look hlook)

/-- Where a path leads to a folder already, no more folders can be made on the way to it. -/
theorem Leads.entry_of_paves (h : d.Leads here path m) (hpaves : Paves here path d e) :
    e.entryAt? l = d.entryAt? l := by
  rcases hpaves.entry l with heq | ⟨⟨ss, ⟨rest, hrest⟩, hwalk⟩, hnone, -⟩
  · exact heq
  · obtain ⟨q, hq, hfolder⟩ := exists_walk_append (hrest ▸ h.1) h.2
    have hgrown := target?_of_folder (hpaves.grows.folders q hfolder)
    have hsame := hpaves.grows.walk_eq hq (target?_of_folder hfolder) hgrown
    obtain rfl := Except.ok.inj (hsame.symm.trans hwalk)
    rw [hfolder] at hnone
    cases hnone

theorem Leads.isFolder (h : d.Leads here path l) (husable : Usable path) (hne : path ≠ "") :
    d.isFolder here path = true := by
  rw [Disk.isFolder, nodeAt?, locate_eq_ok_iff.mpr ⟨hne, husable, h.1⟩]
  dsimp only
  rw [find?_eq_folder_iff.mpr h.2]

/-- Where a path leads to a folder already, making that folder changes nothing. -/
theorem Leads.makeFolders_eq (h : d.Leads here path l) (husable : Usable path) (depth : Nat) :
    d.makeFolders here path depth = (.ok (), d) := by
  unfold makeFolders
  by_cases hempty : path.isEmpty = true
  · rw [if_pos hempty]
  · have hensured : d.ensureFolder here path = (.ok (), d) := by
      unfold ensureFolder
      cases hmade : d.makeFolder here path with
      | ok e =>
        -- a folder is only made where there was nothing
        obtain ⟨m, hnone, hwalk, -⟩ := exists_of_makeFolder hmade
        obtain ⟨rest, hrest, hidle⟩ := exists_segments_eq path
        have hend := walk_of_idle hidle (hrest ▸ h.1)
        obtain rfl : m = l := Except.ok.inj (hwalk.symm.trans hend)
        rw [h.2] at hnone
        cases hnone
      | error fault =>
        dsimp only
        rw [h.isFolder husable fun h => hempty (String.isEmpty_iff.mpr h)]
        rfl
    rw [if_neg hempty, hensured]

/-- Whether a place is as it was, unless it was empty, is on the way to a folder and became a folder
too. -/
def Kept (here : Location) (path : String) (d e : Disk) (l : Location) : Prop :=
  e.find? l = d.find? l ∨ e.OnWay here path l ∧ d.find? l = none ∧ e.find? l = some .folder

theorem Kept.refl (here : Location) (path : String) (d : Disk) (l : Location) :
    Kept here path d d l := .inl rfl

theorem Paves.kept (h : Paves here path d e) (l : Location) : Kept here path d e l := by
  rcases h.entry l with hl | ⟨hway, hnone, hfolder⟩
  · exact .inl (find?_congr hl fun k _ => h.content_eq k)
  · exact .inr ⟨hway, find?_eq_none_iff.mpr hnone, find?_eq_folder_iff.mpr hfolder⟩

theorem Kept.of_eq (h : Kept here path d e l) (hgrows : e.Grows f) (hl : f.find? l = e.find? l) :
    Kept here path d f l := by
  rcases h with h | ⟨hway, hnone, hfolder⟩
  · exact .inl (hl.trans h)
  · exact .inr ⟨hgrows.onWay (find?_eq_folder_iff.mp hfolder) hway, hnone, hl.trans hfolder⟩

end Disk

end AntRegister
