import AntRegister.Proofs.Distinct
import AntRegister.Proofs.Integrity.Findings
import Mathlib.Data.String.Basic
/-! The whole of a report, for any ants, any matcher and any listing. Its last findings are what is
left of the site's contents once every ant that is found has struck out its content and its
suggestion. -/

namespace AntRegister

namespace Integrity

def strike (found : Bool) (left : Finset String) (a : Resident) : Finset String :=
  if found then (left.erase a.content).erase a.suggestion else left

/-- A legacy ant is looked for by its content, and once more by its suggestion. -/
def strikeLegacy (matcher : Matcher) (left : Finset String) (a : Legacy) : Finset String :=
  strike (matcher.contains a.suggestion) (strike (matcher.contains a.content) left a.toResident)
    a.toResident

def leftOver (site : Site) (matcher : Matcher) (accepted : List Accepted) (legacy : List Legacy) :
    Finset String :=
  legacy.foldl (fun left a => strikeLegacy matcher left a) <|
    accepted.foldl (fun left a => strike (matcher.contains a.content) left a.toResident)
      (site.ants.map fun a => a.content).toFinset

variable {site : Site} {matcher : Matcher} {accepted : List Accepted} {legacy : List Legacy}
  {listed : List String} {text : String}

theorem mem_strike (found : Bool) (left : Finset String) (a : Resident) :
    text ∈ strike found left a ↔
      text ∈ left ∧ ¬(found = true ∧ (a.content = text ∨ a.suggestion = text)) := by
  unfold strike
  cases found with
  | false => simp
  | true =>
    rw [if_pos rfl, Finset.mem_erase, Finset.mem_erase, ne_comm, ne_comm (b := a.content)]
    tauto

theorem mem_strikeLegacy (left : Finset String) (a : Legacy) :
    text ∈ strikeLegacy matcher left a ↔ text ∈ left ∧
      ¬((matcher.contains a.content = true ∨ matcher.contains a.suggestion = true) ∧
        (a.content = text ∨ a.suggestion = text)) := by
  rw [strikeLegacy, mem_strike, mem_strike]
  tauto

theorem mem_foldl_of_step {α : Type} {step : Finset String → α → Finset String} {P : α → Prop}
    (hstep : ∀ left a, text ∈ step left a ↔ text ∈ left ∧ ¬P a) (ants : List α)
    (left : Finset String) :
    text ∈ ants.foldl step left ↔ text ∈ left ∧ ∀ a ∈ ants, ¬P a := by
  induction ants generalizing left with
  | nil => simp
  | cons a ants ih => rw [List.foldl_cons, ih, hstep, List.forall_mem_cons, and_assoc]

theorem mem_leftOver : text ∈ leftOver site matcher accepted legacy ↔
    (∃ s ∈ site.ants, s.content = text) ∧
    (∀ a ∈ accepted, ¬(matcher.contains a.content = true ∧
      (a.content = text ∨ a.suggestion = text))) ∧
    ∀ a ∈ legacy, ¬((matcher.contains a.content = true ∨ matcher.contains a.suggestion = true) ∧
      (a.content = text ∨ a.suggestion = text)) := by
  rw [leftOver, mem_foldl_of_step mem_strikeLegacy, mem_foldl_of_step fun left a =>
    mem_strike (matcher.contains a.content) left a.toResident, List.mem_toFinset, List.mem_map,
    and_assoc]

theorem unaccountedFindings_eq : unaccountedFindings site matcher accepted legacy =
    (leftOver site matcher accepted legacy).sort.map .unaccounted := by
  have hleft : ((site.ants.map fun a => a.content).filter fun content =>
      !(setOf (accountedFor matcher accepted legacy)).contains content).toFinset =
        leftOver site matcher accepted legacy := by
    ext text
    rw [List.mem_toFinset, List.mem_filter, List.mem_map, contains_setOf, Bool.not_eq_true',
      decide_eq_false_iff_not, mem_accountedFor, mem_leftOver, not_or]
    simp only [not_exists, not_and]
  unfold unaccountedFindings
  dsimp only
  rw [sortedDistinct_eq_sort fun a b => decide_eq_true_iff, hleft]

end Integrity

open Integrity

/-- A report has these findings in this order: the entries of the listing that are wrong, the
accepted ants that are not listed, those that are not on the site, the legacy ants that are not on
the site, and in ascending order, none of them twice, the site's contents that are left over. Such
a content is neither content nor suggestion of an accepted ant that is on the site, or of a legacy
ant of which either is. -/
theorem findings_checkIntegrity (site : Site) (matcher : Matcher) (accepted : List Accepted)
    (legacy : List Legacy) (listed : List String) :
    let unaccounted := (leftOver site matcher accepted legacy).sort
    (checkIntegrity site matcher accepted legacy listed).findings =
      (listed.flatMap fun entry =>
        if matcher.lookup entry = none then [.listedNotOnSite entry]
        else if Known accepted legacy entry then []
        else [.listedNeedsSuggested entry]) ++
      (accepted.flatMap fun a =>
        if a.content ∈ listed ∨ a.suggestion ∈ listed then []
        else [.acceptedNotListed a.content a.suggestion]) ++
      (accepted.flatMap fun a =>
        if matcher.lookup a.content = none then [.acceptedNotOnSite a.content] else []) ++
      (legacy.flatMap fun a =>
        (if matcher.lookup a.content = none then [.legacyNotOnSite a.content] else []) ++
          if matcher.lookup a.suggestion = none then [.legacySuggestionNotOnSite a.content]
          else []) ++
      unaccounted.map .unaccounted ∧
    unaccounted.Pairwise (· < ·) ∧
    ∀ content, content ∈ unaccounted ↔ (∃ s ∈ site.ants, s.content = content) ∧
      (¬∃ a ∈ accepted, matcher.lookup a.content ≠ none ∧
        (a.content = content ∨ a.suggestion = content)) ∧
      ¬∃ a ∈ legacy, (matcher.lookup a.content ≠ none ∨ matcher.lookup a.suggestion ≠ none) ∧
        (a.content = content ∨ a.suggestion = content) := by
  intro unaccounted
  refine ⟨?_, (Finset.sortedLT_sort _).pairwise, fun content => ?_⟩
  · rw [← listedFindings_eq, ← unlistedFindings_eq, ← acceptedFindings_eq, ← legacyFindings_eq,
      ← unaccountedFindings_eq]
    rfl
  · rw [Finset.mem_sort, mem_leftOver]
    simp only [Matcher.contains_eq_true_iff, not_exists, not_and]

end AntRegister
