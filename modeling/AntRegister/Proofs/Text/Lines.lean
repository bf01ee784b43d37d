import AntRegister.Text.Blank
import AntRegister.Text.Lines
/-! Lines with something on them, apart from blanks. Texts with a line feed between them have those
of both, since the characters that lines are cut at are blanks. -/

namespace AntRegister.Text

/-- The trimmed forms of lines, without those that are empty. -/
def filled (lines : List (List Char)) : List (List Char) :=
  (lines.map trimChars).filter fun l => !l.isEmpty

theorem filled_append (xs ys : List (List Char)) : filled (xs ++ ys) = filled xs ++ filled ys := by
  rw [filled, List.map_append, List.filter_append]
  rfl

theorem trimEnd_concat (cs : List Char) {c : Char} (h : isBlank c = true) :
    trimEnd (cs ++ [c]) = trimEnd cs := by
  rw [trimEnd, List.reverse_append, List.reverse_singleton, List.singleton_append,
    List.dropWhile_cons_of_pos h]
  rfl

theorem trimChars_concat (cs : List Char) {c : Char} (h : isBlank c = true) :
    trimChars (cs ++ [c]) = trimChars cs := by
  unfold trimChars trimStart
  rw [List.dropWhile_append]
  split
  case isTrue hall =>
    rw [List.dropWhile_cons_of_pos h, List.isEmpty_iff.mp hall]
    rfl
  case isFalse => exact trimEnd_concat _ h

theorem trimChars_dropReturn (line : List Char) : trimChars (dropReturn line) = trimChars line := by
  unfold dropReturn
  split
  case h_1 hreturn =>
    obtain ⟨rest, rfl⟩ := List.getLast?_eq_some_iff.mp hreturn
    rw [List.dropLast_concat, trimChars_concat rest (by decide)]
  case h_2 => rfl

theorem filled_dropReturn (line : List Char) :
    filled [dropReturn line] = filled (if line.isEmpty then [] else [line]) := by
  rw [filled, List.map_singleton, trimChars_dropReturn]
  cases line <;> rfl

theorem filled_linesFrom_append (line xs ys : List Char) :
    filled (linesFrom line (xs ++ '\n' :: ys)) =
      filled (linesFrom line xs) ++ filled (lines ys) := by
  induction xs generalizing line with
  | nil =>
    have hend : filled [dropReturn line.reverse] = filled (linesFrom line []) := by
      rw [filled_dropReturn, List.isEmpty_reverse]
      rfl
    rw [← hend, ← filled_append]
    rfl
  | cons c xs ih =>
    rw [List.cons_append, linesFrom, linesFrom]
    split
    · rw [← List.singleton_append, filled_append, ih, ← List.append_assoc, ← filled_append]
      rfl
    · exact ih (c :: line)

theorem filled_lines_append (xs ys : List Char) :
    filled (lines (xs ++ '\n' :: ys)) = filled (lines xs) ++ filled (lines ys) :=
  filled_linesFrom_append [] xs ys

theorem filled_lines_feed (a b : String) :
    filled (lines (a ++ "\n" ++ b).toList) =
      filled (lines a.toList) ++ filled (lines b.toList) := by
  have hfeed : "\n".toList = ['\n'] := rfl
  rw [String.toList_append, String.toList_append, hfeed, List.append_assoc, List.singleton_append,
    filled_lines_append]

end AntRegister.Text
