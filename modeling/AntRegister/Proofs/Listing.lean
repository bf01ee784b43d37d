import AntRegister.Listing
import AntRegister.Proofs.Text.Blank
import AntRegister.Proofs.Text.Lines
/-! The entries of a listing. A listing of just its entries, one a line, has the same entries, and
cutting a listing at any line feed cuts its entries in two. -/

namespace AntRegister

namespace Text

theorem linesFrom_of_not_mem {cs : List Char} (h : '\n' ∉ cs) (line : List Char) :
    linesFrom line cs = linesFrom (cs.reverse ++ line) [] := by
  induction cs generalizing line with
  | nil => rfl
  | cons c cs ih =>
    have hne : c ≠ '\n' := fun hc => h (hc ▸ List.mem_cons_self)
    rw [linesFrom.eq_2, if_neg hne, ih (List.not_mem_of_not_mem_cons h), List.reverse_cons,
      List.append_assoc]
    rfl

theorem filled_lines_of_not_mem {cs : List Char} (h : '\n' ∉ cs) :
    filled (lines cs) = filled [cs] := by
  rw [lines, linesFrom_of_not_mem h, List.append_nil, linesFrom, List.isEmpty_reverse,
    List.reverse_reverse]
  cases cs <;> rfl

theorem not_mem_dropReturn {line : List Char} (h : '\n' ∉ line) : '\n' ∉ dropReturn line := by
  unfold dropReturn
  split
  · exact fun hmem => h (List.dropLast_subset line hmem)
  · exact h

theorem not_mem_of_mem_linesFrom {line cs : List Char} (h : '\n' ∉ line) :
    ∀ l ∈ linesFrom line cs, '\n' ∉ l := by
  induction cs generalizing line with
  | nil =>
    rw [linesFrom]
    split
    · exact List.forall_mem_nil _
    · exact List.forall_mem_singleton.mpr (by rwa [List.mem_reverse])
  | cons c cs ih =>
    rw [linesFrom]
    split
    case isTrue =>
      exact List.forall_mem_cons.mpr
        ⟨not_mem_dropReturn (by rwa [List.mem_reverse]), ih List.not_mem_nil⟩
    case isFalse hne => exact ih (List.not_mem_cons_of_ne_of_not_mem (Ne.symm hne) h)

end Text

theorem parseListing_eq (text : String) :
    parseListing text = (Text.filled (Text.lines text.toList)).map .ofList := rfl

/-- A text that can be the entry of a listing. -/
structure IsEntry (entry : String) : Prop where
  filled : ∃ c ∈ entry.toList, Text.isBlank c = false
  trimmed : Text.trim entry = entry
  oneLine : '\n' ∉ entry.toList

theorem isEntry_of_mem {text entry : String} (h : entry ∈ parseListing text) : IsEntry entry := by
  obtain ⟨kept, hkept, rfl⟩ := List.mem_map.mp h
  obtain ⟨hline, hfilled⟩ := List.mem_filter.mp hkept
  obtain ⟨line, hmem, rfl⟩ := List.mem_map.mp hline
  refine ⟨?_, ?_, ?_⟩
  · by_contra hblank
    simp only [String.toList_ofList, not_exists, not_and, Bool.not_eq_false] at hblank
    rw [← Text.trimChars_eq_nil_iff, Text.trimChars_trimChars] at hblank
    rw [hblank] at hfilled
    cases hfilled
  · rw [Text.trim, String.toList_ofList, Text.trimChars_trimChars]
  · rw [String.toList_ofList]
    exact fun hfeed => Text.not_mem_of_mem_linesFrom List.not_mem_nil line hmem
      ((Text.trimChars_infix line).subset hfeed)

theorem parseListing_append (a b : String) :
    parseListing (a ++ "\n" ++ b) = parseListing a ++ parseListing b := by
  rw [parseListing_eq, Text.filled_lines_feed, List.map_append]
  rfl

theorem parseListing_of_not_mem {line : String} (h : '\n' ∉ line.toList) :
    parseListing line = if line.toList.all Text.isBlank then [] else [Text.trim line] := by
  rw [parseListing_eq, Text.filled_lines_of_not_mem h, Text.filled, List.map_singleton]
  by_cases hblank : line.toList.all Text.isBlank = true
  · rw [if_pos hblank, Text.trimChars_eq_nil_iff.mpr (List.all_eq_true.mp hblank)]
    rfl
  · have hfilled : Text.trimChars line.toList ≠ [] := fun hnone =>
      hblank (List.all_eq_true.mpr (Text.trimChars_eq_nil_iff.mp hnone))
    rw [if_neg hblank, List.filter_cons_of_pos (by simpa using hfilled)]
    rfl

namespace IsEntry

variable {entry : String}

theorem parseListing_eq (h : IsEntry entry) : parseListing entry = [entry] := by
  obtain ⟨c, hc, hfilled⟩ := h.filled
  rw [parseListing_of_not_mem h.oneLine, h.trimmed, if_neg]
  exact fun hblank => ne_true_of_eq_false hfilled (List.all_eq_true.mp hblank c hc)

theorem parseListing_return (h : IsEntry entry) : parseListing (entry ++ "\r") = [entry] := by
  have hreturn : (entry ++ "\r").toList = entry.toList ++ ['\r'] := String.toList_append
  have htrim : Text.trim (entry ++ "\r") = entry := by
    rw [Text.trim, hreturn, Text.trimChars_concat entry.toList (by decide)]
    exact h.trimmed
  have hline : '\n' ∉ (entry ++ "\r").toList := by
    rw [hreturn, List.mem_append, not_or]
    exact ⟨h.oneLine, by decide⟩
  obtain ⟨c, hc, hfilled⟩ := h.filled
  rw [parseListing_of_not_mem hline, htrim, if_neg]
  intro hblank
  rw [hreturn, List.all_append, Bool.and_eq_true] at hblank
  exact ne_true_of_eq_false hfilled (List.all_eq_true.mp hblank.1 c hc)

end IsEntry

theorem parseListing_intercalate {gap : String}
    (hgap : ∀ entry, IsEntry entry → parseListing (entry ++ gap) = [entry]) {entries : List String}
    (h : ∀ entry ∈ entries, IsEntry entry) :
    parseListing ((gap ++ "\n").intercalate entries) = entries := by
  induction entries with
  | nil => rfl
  | cons entry rest ih =>
    have hentry : IsEntry entry := h entry List.mem_cons_self
    cases rest with
    | nil => rw [String.intercalate_singleton, hentry.parseListing_eq]
    | cons next rest =>
      rw [String.intercalate_cons_cons, ← String.append_assoc, parseListing_append,
        hgap entry hentry, ih fun e he => h e (List.mem_cons_of_mem entry he)]
      rfl

/-- The entries of a listing have no blanks at their ends and none of them is blank. They are the
entries of any listing that has them one a line; those of one part of a listing are followed by
those of the rest; and a line has the one entry that it is apart from blanks. -/
theorem parseListing_entries (text : String) :
    (∀ entry ∈ parseListing text, IsEntry entry) ∧
      parseListing ("\n".intercalate (parseListing text)) = parseListing text ∧
      parseListing ("\r\n".intercalate (parseListing text)) = parseListing text ∧
      (∀ a b, parseListing (a ++ "\n" ++ b) = parseListing a ++ parseListing b) ∧
      ∀ line : String, '\n' ∉ line.toList → parseListing line =
        if line.toList.all Text.isBlank then [] else [Text.trim line] := by
  have hentries : ∀ entry ∈ parseListing text, IsEntry entry := fun _ => isEntry_of_mem
  have hfeeds : parseListing (("" ++ "\n").intercalate (parseListing text)) = parseListing text :=
    parseListing_intercalate
      (fun entry h => by rw [String.append_empty, h.parseListing_eq]) hentries
  have hreturns : parseListing (("\r" ++ "\n").intercalate (parseListing text)) =
      parseListing text :=
    parseListing_intercalate (fun _ h => h.parseListing_return) hentries
  exact ⟨hentries, hfeeds, hreturns, parseListing_append, fun _ => parseListing_of_not_mem⟩

end AntRegister
