import AntRegister.Proofs.Classification.Verdicts
import AntRegister.Proofs.Site.Matching
/-! Where the issues of an export go. An open issue with a suggestion is unseen. A closed and dated
one hits an ant of the site or is declined. All others are skipped, and of several hits of one ant
the last is kept in the place of the first. -/

namespace AntRegister

/-- The suggestion of an open issue, whether or not it has a closing date. -/
def Issue.pending? (i : Issue) : Option Unseen :=
  if i.closed then none else i.content?.map fun s => ⟨s, i.createdAt⟩

/-- The suggestion of a closed issue with a closing date. -/
def Issue.settled? (i : Issue) : Option Declined :=
  if i.closed then
    i.closedAt.bind fun closedAt => i.content?.map fun s => ⟨s, i.createdAt, closedAt⟩
  else none

/-- The record of the ant that a settled suggestion hits. -/
def Matcher.hit? (matcher : Matcher) (d : Declined) : Option Accepted :=
  (matcher.lookup d.suggestion).map fun e => .ofEntry e d.createdAt d.closedAt

/-- The records of all issues that hit an ant. -/
def Matcher.hits (matcher : Matcher) (issues : List Issue) : List Accepted :=
  issues.filterMap fun i => i.settled?.bind matcher.hit?

theorem Issue.settled?_eq_some {i : Issue} {text : String} {closedAt : Calendar.Instant}
    (hclosed : i.closed = true) (hdate : i.closedAt = some closedAt)
    (hcontent : i.content? = some text) :
    i.settled? = some ⟨text, i.createdAt, closedAt⟩ := by
  rw [settled?, if_pos hclosed, hdate, hcontent]
  rfl

theorem Matcher.hits_singleton {matcher : Matcher} {i : Issue} {d : Declined} {e : SiteEntry}
    (hsettled : i.settled? = some d) (hlookup : matcher.lookup d.suggestion = some e) :
    matcher.hits [i] = [.ofEntry e d.createdAt d.closedAt] := by
  rw [hits, List.filterMap_cons, hsettled, Option.bind_some, hit?, hlookup]
  rfl

theorem Issue.settled?_of_pending {i : Issue} {a : Unseen} (h : i.pending? = some a) :
    i.settled? = none := by
  unfold pending? at h
  unfold settled?
  split at h
  · cases h
  · rw [if_neg ‹_›]

namespace Verdict

variable {matcher : Matcher} {mode : Mode} {i : Issue} {v : Verdict}

theorem ofIssue_of_pending {a : Unseen} (h : i.pending? = some a) :
    ofIssue matcher mode i = .ok (.unseen a) := by
  unfold Issue.pending? at h
  split at h
  · cases h
  case isFalse hopen =>
    obtain ⟨content, hcontent, rfl⟩ := Option.map_eq_some_iff.mp h
    rw [ofIssue, if_neg fun hclosed => hopen hclosed.1, hcontent]
    simp [ofContent, hopen]

theorem ofIssue_of_settled {d : Declined} (h : i.settled? = some d) :
    ofIssue matcher mode i = .ok (ofClosed matcher d.suggestion d.createdAt d.closedAt) := by
  unfold Issue.settled? at h
  split at h
  · obtain ⟨closedAt, hdate, h⟩ := Option.bind_eq_some_iff.mp h
    obtain ⟨content, hcontent, rfl⟩ := Option.map_eq_some_iff.mp h
    exact ofIssue_of_closed ‹_› hdate hcontent
  · cases h

theorem eq_skipped (hpending : i.pending? = none) (hsettled : i.settled? = none)
    (h : ofIssue matcher mode i = .ok v) : v = .skipped := by
  rcases ofIssue_cases h with h | ⟨content, hcontent, hdated, -⟩
  · exact h
  · unfold Issue.pending? at hpending
    unfold Issue.settled? at hsettled
    rw [hcontent] at hpending hsettled
    cases hclosed : i.closed with
    | false => simp [hclosed] at hpending
    | true =>
      obtain ⟨closedAt, hdate⟩ := Option.ne_none_iff_exists'.mp fun hnone => hdated ⟨hclosed, hnone⟩
      simp [hclosed, hdate] at hsettled

/-- An issue is unseen, or what the site has decides on it, or it is skipped. -/
theorem ofIssue_sorted (h : ofIssue matcher mode i = .ok v) :
    (∃ a, i.pending? = some a ∧ i.settled? = none ∧ v = .unseen a) ∨
    (∃ d, i.pending? = none ∧ i.settled? = some d ∧
      v = ofClosed matcher d.suggestion d.createdAt d.closedAt) ∨
    (i.pending? = none ∧ i.settled? = none ∧ v = .skipped) := by
  cases hpending : i.pending? with
  | some a =>
    rw [ofIssue_of_pending hpending] at h
    exact .inl ⟨a, rfl, Issue.settled?_of_pending hpending, (Except.ok.inj h).symm⟩
  | none =>
    cases hsettled : i.settled? with
    | some d =>
      rw [ofIssue_of_settled hsettled] at h
      exact .inr (.inl ⟨d, rfl, rfl, (Except.ok.inj h).symm⟩)
    | none => exact .inr (.inr ⟨rfl, rfl, eq_skipped hpending hsettled h⟩)

theorem declined?_ofClosed (d : Declined) :
    (ofClosed matcher d.suggestion d.createdAt d.closedAt).declined? =
      if (matcher.lookup d.suggestion).isNone then some d else none := by
  unfold ofClosed
  cases matcher.lookup d.suggestion <;> rfl

theorem accepted?_ofClosed (d : Declined) :
    (ofClosed matcher d.suggestion d.createdAt d.closedAt).accepted? = matcher.hit? d := by
  unfold ofClosed Matcher.hit?
  cases matcher.lookup d.suggestion <;> rfl

theorem declined?_of_ofIssue (h : ofIssue matcher mode i = .ok v) :
    v.declined? = i.settled?.filter fun d => (matcher.lookup d.suggestion).isNone := by
  rcases ofIssue_sorted h with ⟨a, -, hs, rfl⟩ | ⟨d, -, hs, rfl⟩ | ⟨-, hs, rfl⟩
  · rw [hs]
    rfl
  · rw [declined?_ofClosed, hs]
    rfl
  · rw [hs]
    rfl

theorem accepted?_of_ofIssue (h : ofIssue matcher mode i = .ok v) :
    v.accepted? = i.settled?.bind matcher.hit? := by
  rcases ofIssue_sorted h with ⟨a, -, hs, rfl⟩ | ⟨d, -, hs, rfl⟩ | ⟨-, hs, rfl⟩
  · rw [hs]
    rfl
  · rw [accepted?_ofClosed, hs]
    rfl
  · rw [hs]
    rfl

end Verdict

variable {issues : List Issue} {matcher : Matcher} {mode : Mode} {found : Classification}

theorem filterMap_accepted? {vs : List Verdict}
    (hvs : issues.map (Verdict.ofIssue matcher mode) = vs.map .ok) :
    vs.filterMap Verdict.accepted? = matcher.hits issues :=
  filterMap_eq_filterMap_of_ok hvs fun _ _ => Verdict.accepted?_of_ofIssue

theorem declined_eq (h : classify issues matcher mode = .ok found) :
    found.declined = (issues.filterMap Issue.settled?).filter
      fun d => (matcher.lookup d.suggestion).isNone := by
  obtain ⟨vs, hvs, rfl⟩ := classify_eq_ok_iff.mp h
  rw [List.filter_filterMap]
  exact filterMap_eq_filterMap_of_ok hvs fun _ _ => Verdict.declined?_of_ofIssue

theorem accepted_eq (h : classify issues matcher mode = .ok found) :
    found.accepted = latestBy (fun a => a.content) (matcher.hits issues) := by
  obtain ⟨vs, hvs, rfl⟩ := classify_eq_ok_iff.mp h
  rw [Classification.ofVerdicts, filterMap_accepted? hvs]

theorem exists_siteAnt_of_mem_accepted {ants : List SiteAnt}
    (h : classify issues (.ofAnts ants) mode = .ok found) {a : Accepted}
    (ha : a ∈ found.accepted) :
    ∃ s ∈ ants, ∃ createdAt closedAt, a = .ofEntry s.entry createdAt closedAt := by
  obtain ⟨text, e, createdAt, closedAt, hlookup, rfl⟩ := lookup_of_mem_accepted h ha
  obtain ⟨s, hs, rfl, -⟩ := Matcher.exists_of_lookup hlookup
  exact ⟨s, hs, createdAt, closedAt, rfl⟩

/-- The contents of accepted ants, each where it is hit first. -/
theorem contents_accepted (h : classify issues matcher mode = .ok found) :
    found.accepted.map (fun a => a.content) =
      ((matcher.hits issues).map fun a => a.content).eraseDups := by
  rw [accepted_eq h]
  exact map_latestBy _ _

end AntRegister
