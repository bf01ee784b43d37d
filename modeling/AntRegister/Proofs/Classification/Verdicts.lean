import AntRegister.Classification.Basic
import AntRegister.Proofs.Latest
import AntRegister.Proofs.Sequence
/-! What a classification holds comes from the verdicts on single issues: an ant is declined only if
the site's ants were looked through in vain, and accepted only as the one that was found. -/

namespace AntRegister

namespace Verdict

variable {matcher : Matcher} {mode : Mode} {i : Issue} {v : Verdict}

theorem ofIssue_cases (h : ofIssue matcher mode i = .ok v) :
    v = .skipped ∨ ∃ content, i.content? = some content ∧
      ¬(i.closed ∧ i.closedAt = none) ∧ v = ofContent matcher content i := by
  unfold ofIssue at h
  split at h
  · exact .inl (Except.ok.inj h).symm
  · split at h
    · exact .inr ⟨_, ‹_›, ‹_›, (Except.ok.inj h).symm⟩
    · split at h
      · cases h
      · exact .inl (Except.ok.inj h).symm

theorem ofContent_cases (matcher : Matcher) (content : String) (i : Issue) :
    ofContent matcher content i = .unseen ⟨content, i.createdAt⟩ ∨
      ∃ closedAt, i.closedAt = some closedAt ∧
        ofContent matcher content i = ofClosed matcher content i.createdAt closedAt := by
  unfold ofContent
  split
  · exact .inr ⟨_, ‹_›, rfl⟩
  · exact .inl rfl

theorem ofIssue_of_closed {content : String} {closedAt : Calendar.Instant}
    (hclosed : i.closed = true) (hdate : i.closedAt = some closedAt)
    (hcontent : i.content? = some content) :
    ofIssue matcher mode i = .ok (ofClosed matcher content i.createdAt closedAt) := by
  have hopen : ¬(i.closed = true ∧ i.closedAt = none) := by simp [hdate]
  rw [ofIssue, if_neg hopen, hcontent]
  dsimp only
  rw [ofContent, hclosed, hdate]

theorem lookup_of_declined {a : Declined} (h : ofIssue matcher mode i = .ok (.declined a)) :
    matcher.lookup a.suggestion = none := by
  rcases ofIssue_cases h with h | ⟨content, -, -, h⟩
  · cases h
  · rcases ofContent_cases matcher content i with hv | ⟨closedAt, -, hv⟩
    · rw [hv] at h
      cases h
    · rw [hv, ofClosed] at h
      split at h
      next => cases h
      next hnone =>
        obtain rfl := Verdict.declined.inj h
        exact hnone

theorem lookup_of_accepted {a : Accepted} (h : ofIssue matcher mode i = .ok (.accepted a)) :
    ∃ text e closedAt, matcher.lookup text = some e ∧ a = .ofEntry e i.createdAt closedAt := by
  rcases ofIssue_cases h with h | ⟨content, -, -, h⟩
  · cases h
  · rcases ofContent_cases matcher content i with hv | ⟨closedAt, -, hv⟩
    · rw [hv] at h
      cases h
    · rw [hv, ofClosed] at h
      split at h
      next hfound => exact ⟨content, _, closedAt, hfound, Verdict.accepted.inj h⟩
      next => cases h

end Verdict

variable {issues : List Issue} {matcher : Matcher} {mode : Mode} {found : Classification}

theorem classify_eq_ok_iff : classify issues matcher mode = .ok found ↔
    ∃ vs, issues.map (Verdict.ofIssue matcher mode) = vs.map .ok ∧ found = .ofVerdicts vs := by
  unfold classify
  constructor
  · intro h
    cases hvs : issues.mapM (Verdict.ofIssue matcher mode) with
    | error e =>
      rw [hvs] at h
      cases h
    | ok vs =>
      rw [hvs] at h
      exact ⟨vs, mapM_eq_ok_iff.mp hvs, (Except.ok.inj h).symm⟩
  · rintro ⟨vs, hvs, rfl⟩
    rw [mapM_eq_ok_iff.mpr hvs]
    rfl

theorem exists_of_mem_verdicts {vs : List Verdict} {v : Verdict}
    (h : issues.map (Verdict.ofIssue matcher mode) = vs.map .ok) (hv : v ∈ vs) :
    ∃ i ∈ issues, Verdict.ofIssue matcher mode i = .ok v := by
  have hmem : .ok v ∈ issues.map (Verdict.ofIssue matcher mode) := h ▸ List.mem_map_of_mem hv
  exact List.mem_map.mp hmem

theorem lookup_of_mem_declined (h : classify issues matcher mode = .ok found) {a : Declined}
    (ha : a ∈ found.declined) : matcher.lookup a.suggestion = none := by
  obtain ⟨vs, hvs, rfl⟩ := classify_eq_ok_iff.mp h
  obtain ⟨v, hv, hva⟩ := List.mem_filterMap.mp ha
  cases v with
  | declined b =>
    obtain rfl := Option.some.inj hva
    obtain ⟨i, -, hi⟩ := exists_of_mem_verdicts hvs hv
    exact Verdict.lookup_of_declined hi
  | skipped | unseen _ | accepted _ => cases hva

theorem lookup_of_mem_accepted (h : classify issues matcher mode = .ok found) {a : Accepted}
    (ha : a ∈ found.accepted) :
    ∃ text e createdAt closedAt, matcher.lookup text = some e ∧
      a = .ofEntry e createdAt closedAt := by
  obtain ⟨vs, hvs, rfl⟩ := classify_eq_ok_iff.mp h
  obtain ⟨v, hv, hva⟩ := List.mem_filterMap.mp (mem_of_mem_latestBy ha)
  cases v with
  | accepted b =>
    obtain rfl := Option.some.inj hva
    obtain ⟨i, -, hi⟩ := exists_of_mem_verdicts hvs hv
    obtain ⟨text, e, closedAt, hlookup, rfl⟩ := Verdict.lookup_of_accepted hi
    exact ⟨text, e, i.createdAt, closedAt, hlookup, rfl⟩
  | skipped | unseen _ | declined _ => cases hva

end AntRegister
