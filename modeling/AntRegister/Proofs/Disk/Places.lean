import AntRegister.Proofs.Disk.Entries
import AntRegister.Proofs.Disk.Segments
/-! Where paths lead. A walk only looks at folders and links, so that it comes to the same on every
disk that has all of them, and a name at its end is looked up where the path in front of it leads. -/

namespace AntRegister

namespace Path

/-- Whether a path is not too long and could be that of something. -/
@[mk_iff] structure Usable (path : String) : Prop where
  unended : '\x00' ∉ path.toList
  length : path.utf8ByteSize ≤ longest

variable {here : Location} {folder n m : String}

theorem fault?_eq_none_iff {path : String} : fault? path = none ↔ path ≠ "" ∧ Usable path := by
  rw [fault?, usable_iff]
  by_cases hempty : path = ""
  · simp [hempty]
  · by_cases hended : '\x00' ∈ path.toList
    · simp [hempty, hended]
    · simp [hempty, hended]

theorem start_join (hn : IsName n) : start here (join folder n) = start here folder := by
  rw [start, start, isAbsolute_join hn]

theorem join_ne_empty (hn : IsName n) : join folder n ≠ "" := by
  intro h
  have hsegments : segments (join folder n) = steps folder ++ [n] := segments_join hn
  have hlast := congrArg List.getLast? hsegments
  rw [h, List.getLast?_concat] at hlast
  have hcounts := hn.counts
  rw [← Option.some.inj hlast] at hcounts
  cases hcounts

theorem Usable.of_le (hm : IsName m) (hn : IsName n) (h : Usable (join folder m))
    (hle : n.utf8ByteSize ≤ m.utf8ByteSize) : Usable (join folder n) where
  unended := by
    have hm' := h.unended
    rw [join_eq hm, String.toList_append, List.mem_append, not_or] at hm'
    rw [join_eq hn, String.toList_append, List.mem_append, not_or]
    exact ⟨hm'.1, hn.unended⟩
  length := by
    have hm' := h.length
    rw [join_eq hm, String.utf8ByteSize_append] at hm'
    rw [join_eq hn, String.utf8ByteSize_append]
    omega

theorem Usable.of_join (hn : IsName n) (h : Usable (join folder n)) : Usable folder := by
  obtain ⟨tail, htail⟩ := exists_opening_eq_append folder
  have hjoin : join folder n = folder ++ (tail ++ n) := by
    rw [join_eq hn, htail, String.append_assoc]
  have hunended := h.unended
  have hlength := h.length
  rw [hjoin, String.toList_append, List.mem_append, not_or] at hunended
  rw [hjoin, String.utf8ByteSize_append] at hlength
  exact ⟨hunended.1, by omega⟩

end Path

namespace Disk

open AntRegister.Path

variable {d e : Disk} {here l m p : Location} {ss : List String} {s n folder path : String}
  {target : Option String} {follow : Bool} {links : Nat}

theorem folder_of_look (h : d.look l s = .ok (m, target)) : d.entryAt? l = some .folder := by
  unfold look at h
  split at h
  · cases h
  · assumption
  · cases h

theorem look_of_isIdle (hs : isIdle s = true) (hl : d.entryAt? l = some .folder) :
    d.look l s = .ok (l, none) := by
  simp [look, hl, hs]

theorem look_of_isName (hn : IsName n) (hl : d.entryAt? l = some .folder) :
    d.look l n = .ok (l ++ [n], d.target? (l ++ [n])) := by
  simp [look, hl, hn.counts, hn.down, Nat.not_lt.mpr hn.short]

/-- What a segment leads to does not depend on the disk, but for the link that may be there. -/
theorem look_cases (l : Location) (s : String) :
    (∃ fault, ∀ d : Disk, d.entryAt? l = some .folder → d.look l s = .error fault) ∨
    (∃ m, ∀ d : Disk, d.entryAt? l = some .folder → d.look l s = .ok (m, none)) ∨
    ∃ m, ∀ d : Disk, d.entryAt? l = some .folder → d.look l s = .ok (m, d.target? m) := by
  by_cases hidle : isIdle s = true
  · exact .inr (.inl ⟨l, fun d hd => look_of_isIdle hidle hd⟩)
  by_cases hup : s = ".."
  · refine .inr (.inl ⟨l.dropLast, fun d hd => ?_⟩)
    rw [look, hd]
    dsimp only
    rw [if_neg hidle, if_pos hup]
  by_cases hlong : longestName < s.utf8ByteSize
  · exact .inl ⟨.nameTooLong, fun d hd => by simp [look, hd, hidle, hup, hlong]⟩
  · exact .inr (.inr ⟨l ++ [s], fun d hd => by simp [look, hd, hidle, hup, hlong]⟩)

theorem target?_of_look (h : d.look l s = .ok (m, some n)) : d.target? m = some n := by
  have hl := folder_of_look h
  rcases look_cases l s with ⟨fault, hs⟩ | ⟨p, hs⟩ | ⟨p, hs⟩
  all_goals
    have hp := (hs d hl).symm.trans h
    simp only [reduceCtorEq, Except.ok.injEq, Prod.mk.injEq, and_false] at hp
  obtain ⟨rfl, hn⟩ := hp
  exact hn

theorem Grows.look_eq (h : d.Grows e) (hlook : d.look l s = .ok (m, target))
    (hm : target = none → e.target? m = none) : e.look l s = .ok (m, target) := by
  have hl := folder_of_look hlook
  have hl' := h.folders l hl
  rcases look_cases l s with ⟨fault, hs⟩ | ⟨p, hs⟩ | ⟨p, hs⟩
  all_goals
    have hp := (hs d hl).symm.trans hlook
    simp only [reduceCtorEq, Except.ok.injEq, Prod.mk.injEq] at hp
  · obtain ⟨rfl, rfl⟩ := hp
    exact hs e hl'
  · obtain ⟨rfl, rfl⟩ := hp
    rw [hs e hl']
    cases htarget : d.target? p with
    | none => rw [hm htarget]
    | some n =>
      have hlink := h.links p n (target?_eq_some_iff.mp htarget)
      rw [target?_eq_some_iff.mpr hlink]

/-- A walk does not end before its last segment but at a link, so that whatever it passes is on the
other disk too. -/
theorem Grows.advance_eq (h : d.Grows e) {way : Way} (hway : d.advance follow l ss = .ok way)
    (hend : ∀ m, way = .arrived m → d.target? m = none ∧ e.target? m = none) :
    e.advance true l ss = .ok way := by
  induction ss generalizing l with
  | nil => exact hway
  | cons s ss ih =>
    unfold advance at hway ⊢
    cases hlook : d.look l s with
    | error fault =>
      rw [hlook] at hway
      cases hway
    | ok found =>
      obtain ⟨m, target⟩ := found
      rw [hlook] at hway
      cases target with
      | none =>
        have hm : e.target? m = none := by
          cases ss with
          | nil =>
            obtain rfl := Except.ok.inj hway
            exact (hend m rfl).2
          | cons r rest =>
            -- since the walk goes on, the place is a folder
            unfold advance at hway
            cases hnext : d.look m r with
            | error fault => simp [hnext] at hway
            | ok next => exact target?_of_folder (h.folders m (folder_of_look hnext))
        rw [h.look_eq hlook fun _ => hm]
        exact ih hway
      | some target =>
        rw [h.look_eq hlook nofun]
        dsimp only at hway ⊢
        split at hway
        · obtain rfl := Except.ok.inj hway
          have hnone := (hend m rfl).1
          rw [target?_of_look hlook] at hnone
          cases hnone
        · rw [Bool.not_true, Bool.and_false, if_neg Bool.false_ne_true]
          exact hway

theorem Grows.walk_eq (h : d.Grows e) (hwalk : d.walk follow links l ss = .ok m)
    (hd : d.target? m = none) (he : e.target? m = none) : e.walk true links l ss = .ok m := by
  fun_induction d.walk follow links l ss with
  | case1 => cases hwalk
  | case2 links l ss p hway =>
    obtain rfl := Except.ok.inj hwalk
    rw [walk.eq_def, h.advance_eq hway fun q hq => Way.arrived.inj hq ▸ ⟨hd, he⟩]
  | case3 => cases hwalk
  | case4 l ss folder target rest hway links ih =>
    rw [walk.eq_def, h.advance_eq hway nofun]
    exact ih hwalk

theorem advance_concat (d : Disk) (follow : Bool) (l : Location) (ss : List String) (n : String) :
    d.advance follow l (ss ++ [n]) =
      match d.advance true l ss with
      | .error fault => .error fault
      | .ok (.arrived m) => d.advance follow m [n]
      | .ok (.linked folder target rest) => .ok (.linked folder target (rest ++ [n])) := by
  induction ss generalizing l with
  | nil => rfl
  | cons s ss ih =>
    rw [List.cons_append, advance, advance]
    rcases d.look l s with fault | ⟨m, _ | target⟩
    · rfl
    · exact ih m
    · simp

/-- A walk to the end of segments first leads to where the last of them is looked up. -/
theorem exists_of_walk_concat (h : d.walk follow links l (ss ++ [n]) = .ok m) :
    ∃ p q target, d.walk true links l ss = .ok p ∧ d.look p n = .ok (q, target) ∧
      (target = none ∨ follow = false → m = q) := by
  fun_induction d.walk true links l ss with
  | case1 links l ss fault hway =>
    rw [walk.eq_def, advance_concat, hway] at h
    cases h
  | case2 links l ss p hway =>
    rw [walk.eq_def, advance_concat, hway] at h
    dsimp only at h
    unfold advance at h
    rcases hlook : d.look p n with fault | ⟨q, _ | target⟩ <;> rw [hlook] at h
    · cases h
    · obtain rfl := Except.ok.inj h
      exact ⟨p, q, none, rfl, hlook, fun _ => rfl⟩
    · refine ⟨p, q, some target, rfl, hlook, fun hfollow => ?_⟩
      obtain rfl := hfollow.resolve_left nofun
      exact (Except.ok.inj h).symm
  | case3 l ss folder target rest hway =>
    rw [walk.eq_def, advance_concat, hway] at h
    cases h
  | case4 l ss folder target rest hway links ih =>
    rw [walk.eq_def, advance_concat, hway] at h
    dsimp only at h
    rw [← List.append_assoc] at h
    exact ih h

theorem walk_concat (h : d.walk true links l ss = .ok p) (hlook : d.look p n = .ok (m, target))
    (htarget : target = none ∨ follow = false) : d.walk follow links l (ss ++ [n]) = .ok m := by
  fun_induction d.walk true links l ss with
  | case1 => cases h
  | case2 links l ss q hway =>
    obtain rfl := Except.ok.inj h
    rw [walk.eq_def, advance_concat, hway]
    dsimp only
    rw [advance, hlook]
    cases target with
    | none => rfl
    | some target =>
      obtain rfl := htarget.resolve_left nofun
      rfl
  | case3 => cases h
  | case4 l ss folder target rest hway links ih =>
    rw [walk.eq_def, advance_concat, hway]
    dsimp only
    rw [← List.append_assoc]
    exact ih h

/-- Whether a path leads to a folder. -/
def Leads (d : Disk) (here : Location) (path : String) (l : Location) : Prop :=
  d.walk true mostLinks (start here path) (segments path) = .ok l ∧ d.entryAt? l = some .folder

instance (d : Disk) (here : Location) (path : String) (l : Location) :
    Decidable (d.Leads here path l) := instDecidableAnd

theorem Leads.unique (h : d.Leads here path l) (h' : d.Leads here path m) : l = m :=
  Except.ok.inj (h.1.symm.trans h'.1)

theorem Leads.mono (h : d.Leads here path l) (hgrows : d.Grows e) : e.Leads here path l := by
  have hl := hgrows.folders l h.2
  exact ⟨hgrows.walk_eq h.1 (target?_of_folder h.2) (target?_of_folder hl), hl⟩

/-- A slash at the end of a path leads nowhere else. -/
theorem leads_iff_steps : d.Leads here folder l ↔
    d.walk true mostLinks (start here folder) (steps folder) = .ok l ∧
      d.entryAt? l = some .folder := by
  have hempty : isIdle "" = true := rfl
  rcases segments_eq_steps folder with h | h
  · rw [Leads, h]
  · rw [Leads, h]
    refine and_congr_left fun hl => ⟨fun hwalk => ?_, fun hwalk => ?_⟩
    · obtain ⟨p, q, target, hp, hlook, hq⟩ := exists_of_walk_concat hwalk
      have hsame := (look_of_isIdle hempty (folder_of_look hlook)).symm.trans hlook
      obtain ⟨rfl, rfl⟩ := Prod.mk.inj (Except.ok.inj hsame)
      rw [hq (.inl rfl)]
      exact hp
    · exact walk_concat hwalk (look_of_isIdle hempty hl) (.inl rfl)

theorem locate_eq_ok_iff : d.locate follow here path = .ok l ↔
    path ≠ "" ∧ Usable path ∧
      d.walk follow mostLinks (start here path) (segments path) = .ok l := by
  rw [← and_assoc, ← fault?_eq_none_iff, locate]
  cases fault? path <;> simp

theorem exists_of_locate_join (hn : IsName n) (h : d.locate follow here (join folder n) = .ok m) :
    Usable (join folder n) ∧ ∃ l, d.Leads here folder l ∧
      (follow = false ∨ ¬d.IsLink (l ++ [n]) → m = l ++ [n]) := by
  obtain ⟨-, husable, hwalk⟩ := locate_eq_ok_iff.mp h
  rw [segments_join hn, start_join hn] at hwalk
  obtain ⟨l, q, target, hl, hlook, hq⟩ := exists_of_walk_concat hwalk
  have hfolder := folder_of_look hlook
  obtain ⟨rfl, rfl⟩ := Prod.mk.inj (Except.ok.inj ((look_of_isName hn hfolder).symm.trans hlook))
  refine ⟨husable, l, leads_iff_steps.mpr ⟨hl, hfolder⟩, fun hlink => hq ?_⟩
  rwa [target?_eq_none_iff, or_comm]

theorem Leads.locate_join (h : d.Leads here folder l) (hn : IsName n)
    (husable : Usable (join folder n)) (hlink : follow = false ∨ ¬d.IsLink (l ++ [n])) :
    d.locate follow here (join folder n) = .ok (l ++ [n]) := by
  refine locate_eq_ok_iff.mpr ⟨join_ne_empty hn, husable, ?_⟩
  rw [segments_join hn, start_join hn]
  refine walk_concat (leads_iff_steps.mp h).1 (look_of_isName hn h.2) ?_
  rwa [target?_eq_none_iff, or_comm]

end Disk

end AntRegister
