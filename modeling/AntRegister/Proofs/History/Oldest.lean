import AntRegister.History.LogSearch
import AntRegister.Proofs.Calendar.Timeline
import AntRegister.Proofs.Text.Lines
import Mathlib.Order.MinMax
/-! The date that is taken from a log. Only the place of its line counts, so it is the earliest one
of a log whose dates descend, but need not be where the clocks of two commits disagree. -/

namespace AntRegister

open Calendar (Instant)

/-- The lines of a log that are not blank, trimmed. -/
def dateLines (log : String) : List String := (Text.filled (Text.lines log.toList)).map .ofList

theorem oldestDate_eq (log : String) : oldestDate log =
    match (dateLines log).getLast? with
    | none => .ok none
    | some line =>
      match Instant.readExact? line with
      | some i => .ok (some i)
      | none => .error (.badDate line) := by
  rw [oldestDate, ← Text.filled, dateLines, List.getLast?_map]
  cases (Text.filled (Text.lines log.toList)).getLast? <;> rfl

theorem dateLines_append (newer older : String) :
    dateLines (newer ++ "\n" ++ older) = dateLines newer ++ dateLines older := by
  rw [dateLines, Text.filled_lines_feed, List.map_append]
  rfl

theorem oldestDate_eq_none_iff (log : String) : oldestDate log = .ok none ↔ dateLines log = [] := by
  rw [oldestDate_eq, ← List.getLast?_eq_none_iff]
  cases (dateLines log).getLast? with
  | none => simp
  | some line => cases hread : Instant.readExact? line <;> simp [hread]

/-- What is in front of a log with any date is not even read. -/
theorem oldestDate_append {older : String} (h : dateLines older ≠ []) (newer : String) :
    oldestDate (newer ++ "\n" ++ older) = oldestDate older := by
  rw [oldestDate_eq, dateLines_append, List.getLast?_append_of_ne_nil _ h, ← oldestDate_eq]

section

variable {log : String} {dates : List Instant}

theorem oldestDate_of_reads (h : (dateLines log).map Instant.readExact? = dates.map some) :
    oldestDate log = .ok dates.getLast? := by
  have hlast : (dateLines log).getLast?.map Instant.readExact? = dates.getLast?.map some := by
    rw [← List.getLast?_map, h, List.getLast?_map]
  rw [oldestDate_eq]
  cases hline : (dateLines log).getLast? with
  | none =>
    rw [hline] at hlast
    rw [Option.map_eq_none_iff.mp hlast.symm]
  | some line =>
    rw [hline] at hlast
    obtain ⟨i, hi, hread⟩ := Option.map_eq_some_iff.mp hlast.symm
    rw [hi]
    dsimp only
    rw [← hread]

theorem getLast?_eq_min?_iff :
    dates.getLast? = dates.min? ↔ ∀ i ∈ dates.getLast?, ∀ j ∈ dates, i ≤ j := by
  cases hlast : dates.getLast? with
  | none => simp [List.getLast?_eq_none_iff.mp hlast]
  | some i =>
    have hmem : i ∈ dates := List.mem_of_getLast? hlast
    rw [eq_comm, List.min?_eq_some_iff]
    simp [hmem]

theorem getLast?_le_of_descending (h : dates.Pairwise (· ≥ ·)) :
    ∀ i ∈ dates.getLast?, ∀ j ∈ dates, i ≤ j := by
  intro i hi j hj
  obtain ⟨front, rfl⟩ := List.getLast?_eq_some_iff.mp hi
  rcases List.mem_append.mp hj with hfront | hsame
  · exact (List.pairwise_append.mp h).2.2 j hfront i (List.mem_singleton_self i)
  · exact (List.mem_singleton.mp hsame).ge

theorem answer_of_reads (s : LogSearch) (content : String) {output errors : ByteArray}
    (h : (dateLines log).map Instant.readExact? = dates.map some)
    (houtput : String.fromUTF8? output = some log) :
    s.answer content (.ended (.code 0) output errors) =
      dates.getLast?.elim (.error (.notFound content)) .ok := by
  have hdecode : decodeOutput output = .ok log := by
    rw [decodeOutput, houtput]
  have hlog : s.output content (.ended (.code 0) output errors) = .ok log := by
    rw [LogSearch.output, hdecode]
    rfl
  rw [LogSearch.answer, hlog]
  change (oldestDate log >>= _) = _
  rw [oldestDate_of_reads h]
  cases dates.getLast? <;> rfl

end

/-- The date taken from a log is the last one. It is the earliest if no date before it is earlier,
so always if the dates descend. -/
theorem oldestDate_last {log : String} {dates : List Instant}
    (h : (dateLines log).map Instant.readExact? = dates.map some) :
    (oldestDate log = .ok none ↔ dateLines log = []) ∧
      oldestDate log = .ok dates.getLast? ∧
      (oldestDate log = .ok dates.min? ↔ ∀ i ∈ dates.getLast?, ∀ j ∈ dates, i ≤ j) ∧
      (dates.Pairwise (· ≥ ·) → oldestDate log = .ok dates.min?) ∧
      (dates ≠ [] → ∀ newer, oldestDate (newer ++ "\n" ++ log) = .ok dates.getLast?) ∧
      ∀ (run : LogSearch → LogReply) (directory content : String) (limit : Nat)
        (output errors : ByteArray),
        let s := LogSearch.ofContent directory limit content
        content.isEmpty = false → s.obstacle? = none →
        run s = .ended (.code 0) output errors → String.fromUTF8? output = some log →
        answerFromLog (m := Id) run directory limit content =
          dates.getLast?.elim (.error (.notFound content)) .ok := by
  have hlast := oldestDate_of_reads h
  have hearliest : oldestDate log = .ok dates.min? ↔ dates.getLast? = dates.min? := by
    rw [hlast, Except.ok.injEq]
  refine ⟨oldestDate_eq_none_iff log, hlast, hearliest.trans getLast?_eq_min?_iff, ?_, ?_, ?_⟩
  · intro hdescending
    exact hearliest.mpr (getLast?_eq_min?_iff.mpr (getLast?_le_of_descending hdescending))
  · intro hdates newer
    have hlines : dateLines log ≠ [] := fun hnone => hdates (by
      rw [hnone] at h
      exact List.map_eq_nil_iff.mp h.symm)
    rw [oldestDate_append hlines, hlast]
  · intro run directory content limit output errors s hcontent hobstacle hrun houtput
    have hsearched : answerFromLog (m := Id) run directory limit content =
        s.answer content (run s) := by
      simp only [answerFromLog, hcontent, Bool.false_eq_true, if_false, hobstacle, s]
      rfl
    rw [hsearched, hrun]
    exact answer_of_reads s content h houtput

/-- A log with the offset of a time zone, the other kind of line ending and lines of blanks. -/
theorem oldestDate_last_descending :
    let log := "2023-05-01T10:00:00+02:00\r\n  \n2021-02-03T04:05:06+00:00\n\n"
    let newer : Instant := ⟨⟨2023, 5, 1, by decide, by decide, by decide⟩, 8, 0, 0, 0, by decide,
      by decide, by decide, by decide⟩
    let older : Instant := ⟨⟨2021, 2, 3, by decide, by decide, by decide⟩, 4, 5, 6, 0, by decide,
      by decide, by decide, by decide⟩
    let reply := LogReply.ended (.code 0) log.toUTF8 .empty
    (dateLines log).map Instant.readExact? = [newer, older].map some ∧
      oldestDate log = .ok [newer, older].min? ∧
      oldestDate ("no date" ++ "\n" ++ log) = .ok (some older) ∧
      answerFromLog (m := Id) (fun _ => reply) "site" 30000 "ant" = .ok older := by
  intro log newer older reply
  have hdates : (dateLines log).map Instant.readExact? = [newer, older].map some := by decide
  have hdecode : String.fromUTF8? log.toUTF8 = some log := dif_pos log.isValidUTF8
  obtain ⟨-, -, -, hdescending, hfront, hanswer⟩ := oldestDate_last hdates
  exact ⟨hdates, hdescending (by decide), hfront (by decide) "no date",
    hanswer (fun _ => reply) "site" "ant" 30000 _ _ (by decide) (by decide) rfl hdecode⟩

/-- A commit whose clock was behind that of the commit before it. -/
theorem oldestDate_skewed :
    let log := "2019-01-01T00:00:00Z\n2023-01-01T00:00:00Z\n"
    let earlier := Instant.midnight ⟨2019, 1, 1, by decide, by decide, by decide⟩
    let later := Instant.midnight ⟨2023, 1, 1, by decide, by decide, by decide⟩
    (dateLines log).map Instant.readExact? = [earlier, later].map some ∧
      [earlier, later].min? = some earlier ∧ earlier < later ∧
      oldestDate log = .ok (some later) := by
  decide

end AntRegister
