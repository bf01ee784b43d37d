import AntRegister.Proofs.Classification.Verdicts
/-! The two modes of a classification. Strict mode ends at the first generated issue that has to
carry a suggestion and does not. Without such an issue it gives what lenient mode gives. -/

namespace AntRegister

/-- A generated issue whose title carries no suggestion, unless it is closed without a date, since
such an issue is skipped unread. -/
def Issue.IsUntitled (i : Issue) : Prop :=
  ¬(i.closed = true ∧ i.closedAt = none) ∧ i.content? = none ∧ autogenerated ∈ i.labels

theorem Issue.hasLabel_iff {i : Issue} {label : String} :
    i.hasLabel label = true ↔ label ∈ i.labels := by
  rw [hasLabel, List.contains_eq_mem, decide_eq_true_eq]

namespace Verdict

variable {matcher : Matcher} {mode : Mode} {i : Issue} {e : ClassificationError}

theorem ofIssue_cases_error (h : ofIssue matcher mode i = .error e) :
    mode = .strict ∧ i.IsUntitled ∧ e = .untitled i.title := by
  unfold ofIssue at h
  split at h
  · cases h
  case isFalse hread =>
    split at h
    · cases h
    next hcontent =>
      split at h
      · next hrefused =>
        obtain ⟨hstrict, hlabel⟩ := hrefused
        exact ⟨hstrict, ⟨hread, hcontent, Issue.hasLabel_iff.mp hlabel⟩,
          (Except.error.inj h).symm⟩
      · cases h

theorem ofIssue_of_untitled (h : i.IsUntitled) :
    ofIssue matcher .strict i = .error (.untitled i.title) := by
  obtain ⟨hread, hcontent, hlabel⟩ := h
  unfold ofIssue
  rw [if_neg hread, hcontent]
  exact if_pos ⟨rfl, Issue.hasLabel_iff.mpr hlabel⟩

theorem ofIssue_strict_eq_error_iff :
    ofIssue matcher .strict i = .error e ↔ i.IsUntitled ∧ e = .untitled i.title := by
  constructor
  · intro h
    exact (ofIssue_cases_error h).2
  · rintro ⟨huntitled, rfl⟩
    exact ofIssue_of_untitled huntitled

theorem exists_ofIssue_lenient (matcher : Matcher) (i : Issue) :
    ∃ v, ofIssue matcher .lenient i = .ok v := by
  cases h : ofIssue matcher .lenient i with
  | ok v => exact ⟨v, rfl⟩
  | error e => cases (ofIssue_cases_error h).1

theorem ofIssue_strict_eq (h : ¬i.IsUntitled) :
    ofIssue matcher .strict i = ofIssue matcher .lenient i := by
  unfold ofIssue
  split
  · rfl
  case isFalse hread =>
    split
    · rfl
    next hcontent =>
      have hlabel : ¬i.hasLabel Issue.autogenerated = true :=
        fun hlabel => h ⟨hread, hcontent, Issue.hasLabel_iff.mp hlabel⟩
      rw [if_neg fun hrefused => hlabel hrefused.2, if_neg fun hrefused => hlabel hrefused.2]

end Verdict

variable {issues : List Issue} {matcher : Matcher} {mode : Mode} {e : ClassificationError}

theorem classify_eq_error_iff : classify issues matcher mode = .error e ↔
    ∃ before i after, issues = before ++ i :: after ∧
      (∀ j ∈ before, ∃ v, Verdict.ofIssue matcher mode j = .ok v) ∧
      Verdict.ofIssue matcher mode i = .error e := by
  rw [← mapM_eq_error_iff, classify]
  cases issues.mapM (Verdict.ofIssue matcher mode) with
  | error e' => simp only [Except.map, Except.error.injEq]
  | ok vs => exact ⟨nofun, nofun⟩

theorem exists_classify_lenient (issues : List Issue) (matcher : Matcher) :
    ∃ found, classify issues matcher .lenient = .ok found := by
  cases h : classify issues matcher .lenient with
  | ok found => exact ⟨found, rfl⟩
  | error e =>
    obtain ⟨-, i, -, -, -, hi⟩ := classify_eq_error_iff.mp h
    obtain ⟨v, hv⟩ := Verdict.exists_ofIssue_lenient matcher i
    rw [hv] at hi
    cases hi

theorem classify_strict_eq_error_iff : classify issues matcher .strict = .error e ↔
    ∃ before i after, issues = before ++ i :: after ∧ (∀ j ∈ before, ¬j.IsUntitled) ∧
      i.IsUntitled ∧ e = .untitled i.title := by
  rw [classify_eq_error_iff]
  simp only [Verdict.ofIssue_strict_eq_error_iff]
  -- an issue has a verdict in strict mode exactly if it is not untitled
  have hverdict : ∀ j, (∃ v, Verdict.ofIssue matcher .strict j = .ok v) ↔ ¬j.IsUntitled := by
    intro j
    constructor
    · rintro ⟨v, hv⟩ huntitled
      rw [Verdict.ofIssue_of_untitled huntitled] at hv
      cases hv
    · intro htitled
      rw [Verdict.ofIssue_strict_eq htitled]
      exact Verdict.exists_ofIssue_lenient matcher j
  simp only [hverdict]

theorem classify_strict_eq (h : ∀ i ∈ issues, ¬i.IsUntitled) :
    classify issues matcher .strict = classify issues matcher .lenient := by
  have hverdicts : issues.map (Verdict.ofIssue matcher .strict) =
      issues.map (Verdict.ofIssue matcher .lenient) :=
    List.map_congr_left fun i hi => Verdict.ofIssue_strict_eq (h i hi)
  obtain ⟨found, hfound⟩ := exists_classify_lenient issues matcher
  obtain ⟨vs, hvs, hof⟩ := classify_eq_ok_iff.mp hfound
  rw [hfound]
  exact classify_eq_ok_iff.mpr ⟨vs, hverdicts.trans hvs, hof⟩

theorem exists_classify_strict_eq_error_iff :
    (∃ e, classify issues matcher .strict = .error e) ↔ ∃ i ∈ issues, i.IsUntitled := by
  constructor
  · rintro ⟨e, h⟩
    obtain ⟨before, i, after, rfl, -, huntitled, -⟩ := classify_strict_eq_error_iff.mp h
    exact ⟨i, List.mem_append_right _ List.mem_cons_self, huntitled⟩
  · rintro ⟨i, hi, huntitled⟩
    cases h : classify issues matcher .strict with
    | error e => exact ⟨e, rfl⟩
    | ok found =>
      obtain ⟨vs, hvs, -⟩ := classify_eq_ok_iff.mp h
      have hmem : Verdict.ofIssue matcher .strict i ∈ vs.map .ok := hvs ▸ List.mem_map_of_mem hi
      obtain ⟨v, -, hv⟩ := List.mem_map.mp hmem
      rw [Verdict.ofIssue_of_untitled huntitled] at hv
      cases hv

/-- Lenient mode never fails. Strict mode fails exactly if an issue is untitled, and says the title
of the first one that is. Where it does not fail it gives what lenient mode gives. -/
theorem classify_modes (issues : List Issue) (matcher : Matcher) :
    (∃ found, classify issues matcher .lenient = .ok found) ∧
    ((∃ e, classify issues matcher .strict = .error e) ↔ ∃ i ∈ issues, i.IsUntitled) ∧
    (∀ e, classify issues matcher .strict = .error e ↔
      ∃ before i after, issues = before ++ i :: after ∧ (∀ j ∈ before, ¬j.IsUntitled) ∧
        i.IsUntitled ∧ e = .untitled i.title) ∧
    ((∃ i ∈ issues, i.IsUntitled) ∨
      classify issues matcher .strict = classify issues matcher .lenient) := by
  refine ⟨exists_classify_lenient issues matcher, exists_classify_strict_eq_error_iff,
    fun e => classify_strict_eq_error_iff, ?_⟩
  by_cases huntitled : ∃ i ∈ issues, i.IsUntitled
  · exact .inl huntitled
  · exact .inr (classify_strict_eq fun i hi h => huntitled ⟨i, hi, h⟩)

/-- An issue that is closed without a date or that was not generated does not count as untitled. -/
example :
    let now := Calendar.Instant.midnight ⟨2020, 1, 1, by decide, by decide, by decide⟩
    let generated (title : String) := (Issue.closedOn title now now).withLabel "autogenerated"
    classify [{ generated "a" with closedAt := none }, .opened "b" now, generated "c",
      generated "d"] .empty .strict = .error (.untitled "c") := by
  decide

end AntRegister
