import AntRegister.OutputFolder
import Mathlib.Tactic.MkIffOfInductiveProp
/-! The segments of a path. A path is its segments joined again, a name that is joined to a folder
is one more segment, and the draft of a file is in the file's folder. -/

namespace AntRegister.Path

theorem splitFrom_ne_nil (segment cs : List Char) : splitFrom segment cs ≠ [] := by
  induction cs generalizing segment with
  | nil => exact List.cons_ne_nil _ _
  | cons c cs ih =>
    rw [splitFrom]
    split
    · exact List.cons_ne_nil _ _
    · exact ih _

theorem splitFrom_append (segment cs ds : List Char) :
    splitFrom segment (cs ++ '/' :: ds) = splitFrom segment cs ++ splitFrom [] ds := by
  induction cs generalizing segment with
  | nil => simp [splitFrom]
  | cons c cs ih =>
    rw [List.cons_append, splitFrom, splitFrom]
    split
    · rw [ih, List.cons_append]
    · exact ih (c :: segment)

theorem splitFrom_of_slashless {cs : List Char} (h : '/' ∉ cs) (segment : List Char) :
    splitFrom segment cs = [.ofList (segment.reverse ++ cs)] := by
  induction cs generalizing segment with
  | nil => rw [splitFrom, List.append_nil]
  | cons c cs ih =>
    obtain ⟨hc, hcs⟩ := not_or.mp (mt List.mem_cons.mpr h)
    rw [splitFrom, if_neg (Ne.symm hc), ih hcs, List.reverse_cons, List.append_assoc]
    rfl

theorem intercalate_splitFrom (segment cs : List Char) :
    "/".intercalate (splitFrom segment cs) = .ofList (segment.reverse ++ cs) := by
  induction cs generalizing segment with
  | nil => rw [splitFrom, String.intercalate_singleton, List.append_nil]
  | cons c cs ih =>
    rw [splitFrom]
    split
    next hc =>
      rw [String.intercalate_cons_of_ne_nil (splitFrom_ne_nil [] cs), ih, hc]
      exact String.toList_inj.mp (by simp)
    next => rw [ih, List.reverse_cons, List.append_assoc]; rfl

theorem segments_append_slash (a b : String) :
    segments (a ++ "/" ++ b) = segments a ++ segments b := by
  have htext : (a ++ "/" ++ b).toList = a.toList ++ '/' :: b.toList := by simp
  rw [segments, htext, splitFrom_append]
  rfl

theorem segments_of_slashless {s : String} (h : '/' ∉ s.toList) : segments s = [s] := by
  rw [segments, splitFrom_of_slashless h, List.reverse_nil, List.nil_append, String.ofList_toList]

theorem intercalate_segments (p : String) : "/".intercalate (segments p) = p := by
  rw [segments, intercalate_splitFrom, List.reverse_nil, List.nil_append, String.ofList_toList]

/-- A segment that leads from a folder to what is in it. -/
@[mk_iff] structure IsName (n : String) : Prop where
  slashless : '/' ∉ n.toList
  unended : '\x00' ∉ n.toList
  counts : isIdle n = false
  down : n ≠ ".."
  short : n.utf8ByteSize ≤ longestName

instance (n : String) : Decidable (IsName n) := decidable_of_iff' _ (isName_iff n)

def opening (folder : String) : String :=
  if folder.isEmpty then ""
  else if folder.toList.getLast? == some '/' then folder
  else folder ++ "/"

/-- The segments before that of a name that is joined to a folder. -/
def steps (folder : String) : List String := (segments (opening folder)).dropLast

variable {folder n : String}

theorem IsName.segments_eq (hn : IsName n) : segments n = [n] := segments_of_slashless hn.slashless

theorem IsName.isAbsolute_eq (hn : IsName n) : isAbsolute n = false := by
  rw [isAbsolute, beq_eq_false_iff_ne]
  exact fun h => hn.slashless (List.mem_of_head? h)

theorem join_eq (hn : IsName n) : join folder n = opening folder ++ n := by
  rw [join, opening, hn.isAbsolute_eq, Bool.false_or]
  split
  · rw [String.empty_append]
  · split <;> rfl

theorem opening_cases (folder : String) : (folder = "" ∧ opening folder = "") ∨
    folder ≠ "" ∧ (opening folder = folder ++ "/" ∨
      ∃ p, folder = p ++ "/" ∧ opening folder = folder) := by
  unfold opening
  split
  next h => exact .inl ⟨String.isEmpty_iff.mp h, rfl⟩
  next hne =>
    refine .inr ⟨fun h => hne (String.isEmpty_iff.mpr h), ?_⟩
    split
    next h =>
      obtain ⟨cs, hcs⟩ := List.getLast?_eq_some_iff.mp (beq_iff_eq.mp h)
      have hfolder : folder = .ofList cs ++ "/" := String.toList_inj.mp (by simp [hcs])
      exact .inr ⟨_, hfolder, rfl⟩
    next => exact .inl rfl

theorem exists_opening_eq_append (folder : String) : ∃ tail, opening folder = folder ++ tail := by
  rcases opening_cases folder with ⟨rfl, h⟩ | ⟨-, h | ⟨p, -, h⟩⟩
  · exact ⟨"", h⟩
  · exact ⟨"/", h⟩
  · exact ⟨"", h.trans String.append_empty.symm⟩

theorem segments_concat_slash (p : String) : segments (p ++ "/") = segments p ++ [""] := by
  have h := segments_append_slash p ""
  rw [String.append_empty] at h
  exact h

theorem segments_opening_append (hn : IsName n) :
    segments (opening folder ++ n) = steps folder ++ [n] := by
  have hslash : ∀ p, segments (p ++ "/" ++ n) = (segments (p ++ "/")).dropLast ++ [n] := by
    intro p
    rw [segments_append_slash, hn.segments_eq, segments_concat_slash, List.dropLast_concat]
  rcases opening_cases folder with ⟨-, h⟩ | ⟨-, h | ⟨p, rfl, h⟩⟩
  · rw [steps, h, String.empty_append, hn.segments_eq]
    rfl
  · rw [steps, h, hslash]
  · rw [steps, h, hslash]

theorem segments_join (hn : IsName n) : segments (join folder n) = steps folder ++ [n] := by
  rw [join_eq hn, segments_opening_append hn]

theorem join_eq_intercalate (hn : IsName n) :
    join folder n = "/".intercalate (steps folder ++ [n]) := by
  rw [← segments_join hn, intercalate_segments]

/-- A slash at the end of a folder's path is one segment more. -/
theorem segments_eq_steps (folder : String) :
    segments folder = steps folder ∨ segments folder = steps folder ++ [""] := by
  rcases opening_cases folder with ⟨rfl, h⟩ | ⟨-, h | ⟨p, rfl, h⟩⟩
  · exact .inr (by rw [steps, h]; rfl)
  · exact .inl (by rw [steps, h, segments_concat_slash, List.dropLast_concat])
  · exact .inr (by rw [steps, h, segments_concat_slash, List.dropLast_concat])

theorem isAbsolute_append {p : String} (h : p ≠ "") (q : String) :
    isAbsolute (p ++ q) = isAbsolute p := by
  have hne : p.toList ≠ [] := fun hnil => h (String.toList_eq_nil_iff.mp hnil)
  obtain ⟨c, cs, hcs⟩ := List.exists_cons_of_ne_nil hne
  rw [isAbsolute, isAbsolute, String.toList_append, hcs]
  rfl

theorem isAbsolute_join (hn : IsName n) : isAbsolute (join folder n) = isAbsolute folder := by
  rw [join_eq hn]
  rcases opening_cases folder with ⟨rfl, h⟩ | ⟨hne, h | ⟨p, -, h⟩⟩
  · rw [h, String.empty_append, hn.isAbsolute_eq]
    rfl
  · rw [h, String.append_assoc, isAbsolute_append hne]
  · rw [h, isAbsolute_append hne]

theorem trimIdle_concat (hn : isIdle n = false) (ss : List String) :
    trimIdle (ss ++ [n]) = ss ++ [n] := by
  cases ss with
  | nil => rfl
  | cons s ss =>
    rw [List.cons_append, trimIdle, List.reverse_append, List.reverse_singleton,
      List.singleton_append, List.dropWhile_cons_of_neg (by simp [hn]), List.reverse_cons,
      List.reverse_reverse]

theorem ofSegments_of_ne {ss : List String} (h : ss ≠ [""]) :
    ofSegments ss = "/".intercalate ss := if_neg h

theorem withExtension_of_segments {p : String} {ss : List String} (hn : IsName n)
    (h : segments p = ss ++ [n]) (extension : String) : withExtension p extension =
      "/".intercalate (ss ++ [if stem n = "." then ".." else stem n ++ "." ++ extension]) := by
  have htrimmed : trimmedSegments p = ss ++ [n] := by
    rw [trimmedSegments, h, trimIdle_concat hn.counts]
  have hname : fileName? p = some n := by
    rw [fileName?, htrimmed, List.getLast?_concat]
    simp [hn.counts, hn.down]
  rw [withExtension, hname]
  dsimp only
  rw [htrimmed, h, List.dropLast_concat, List.getLast?_concat]
  -- what ends the path has a dot, so that the path is not that of the root
  have hdot : ∀ x : String, '.' ∈ x.toList → ss ++ [x] ≠ [""] := by
    intro x hx hroot
    have hlast := congrArg List.getLast? hroot
    rw [List.getLast?_concat] at hlast
    obtain rfl := Option.some.inj hlast
    exact List.not_mem_nil hx
  by_cases hstem : stem n = "."
  · rw [if_pos ⟨hstem, rfl⟩, if_pos hstem, ofSegments_of_ne (hdot _ (by decide))]
  · rw [if_neg fun hboth => hstem hboth.1, if_neg hstem, ofSegments_of_ne (hdot _ (by simp))]

theorem draft_join (hn : IsName n) (hdraft : IsName (OutputFolder.draft n)) :
    OutputFolder.draft (join folder n) = join folder (OutputFolder.draft n) := by
  have halone := withExtension_of_segments hn (hn.segments_eq.trans (List.nil_append _).symm)
  rw [join_eq_intercalate hdraft, OutputFolder.draft,
    withExtension_of_segments hn (segments_join hn), OutputFolder.draft, halone, List.nil_append,
    String.intercalate_singleton]

end AntRegister.Path
