import AntRegister.Integrity
import AntRegister.Proofs.Site.Matching
/-! Which findings a report has, and which of them are errors. -/

namespace AntRegister

namespace Matcher

variable {matcher : Matcher} {text : String}

theorem contains_eq_false_iff : matcher.contains text = false ↔ matcher.lookup text = none := by
  rw [contains, Option.isSome_eq_false_iff, Option.isNone_iff_eq_none]

theorem contains_eq_true_iff : matcher.contains text = true ↔ matcher.lookup text ≠ none := by
  rw [← Bool.not_eq_false, contains_eq_false_iff]

theorem contains_content {ants : List SiteAnt} {a : SiteAnt} (ha : a ∈ ants) :
    (ofAnts ants).contains a.content = true :=
  contains_eq_true_iff.mpr (lookup_content_ne_none ha)

end Matcher

namespace Integrity

variable {site : Site} {matcher : Matcher} {accepted : List Accepted} {legacy : List Legacy}
  {listed : List String} {f : Finding} {text : String}

/-- Whether an entry is the content or the suggestion of an accepted ant, or the content of a legacy
one. -/
def Known (accepted : List Accepted) (legacy : List Legacy) (entry : String) : Prop :=
  (∃ a ∈ accepted, a.content = entry ∨ a.suggestion = entry) ∨ ∃ a ∈ legacy, a.content = entry

instance (entry : String) : Decidable (Known accepted legacy entry) :=
  inferInstanceAs (Decidable (_ ∨ _))

theorem contains_setOf (xs : List String) (x : String) :
    (setOf xs).contains x = decide (x ∈ xs) := by
  rw [setOf, Std.HashSet.contains_ofList, List.contains_eq_mem]

theorem contains_iff_known {entry : String} :
    ((setOf (accepted.map fun a => a.content)).contains entry ||
      (setOf (accepted.map fun a => a.suggestion)).contains entry ||
      (setOf (legacy.map fun a => a.content)).contains entry) = true ↔
        Known accepted legacy entry := by
  simp only [contains_setOf, Bool.or_eq_true, decide_eq_true_eq, Known, List.mem_map,
    ← exists_or, ← and_or_left]

theorem listedFindings_eq : listedFindings matcher accepted legacy listed =
    listed.flatMap fun entry =>
      if matcher.lookup entry = none then [.listedNotOnSite entry]
      else if Known accepted legacy entry then []
      else [.listedNeedsSuggested entry] := by
  unfold listedFindings
  dsimp only
  rw [List.filterMap_eq_flatMap_toList]
  refine congrArg (listed.flatMap ·) (funext fun entry => ?_)
  simp only [Bool.not_eq_true', Matcher.contains_eq_false_iff, contains_iff_known]
  split
  · rfl
  · split <;> rfl

theorem mem_listedFindings_iff : f ∈ listedFindings matcher accepted legacy listed ↔
    ∃ entry ∈ listed, (matcher.lookup entry = none ∧ f = .listedNotOnSite entry) ∨
      (matcher.lookup entry ≠ none ∧ ¬Known accepted legacy entry ∧
        f = .listedNeedsSuggested entry) := by
  rw [listedFindings_eq, List.mem_flatMap]
  refine exists_congr fun entry => and_congr_right fun _ => ?_
  split
  · next hsite => simp [hsite]
  · next hsite => split <;> simp_all

theorem severity_of_mem_listed (h : f ∈ listedFindings matcher accepted legacy listed) :
    f.severity = .error := by
  obtain ⟨entry, -, ⟨-, rfl⟩ | ⟨-, -, rfl⟩⟩ := mem_listedFindings_iff.mp h <;> rfl

theorem unlistedFindings_eq : unlistedFindings accepted listed =
    accepted.flatMap fun a =>
      if a.content ∈ listed ∨ a.suggestion ∈ listed then []
      else [.acceptedNotListed a.content a.suggestion] := by
  unfold unlistedFindings
  dsimp only
  rw [List.filterMap_eq_flatMap_toList]
  refine congrArg (accepted.flatMap ·) (funext fun a => ?_)
  simp only [contains_setOf, Bool.or_eq_true, decide_eq_true_eq]
  split <;> rfl

theorem exists_of_mem_unlisted (h : f ∈ unlistedFindings accepted listed) :
    ∃ a ∈ accepted, f = .acceptedNotListed a.content a.suggestion := by
  obtain ⟨a, ha, hf⟩ := List.mem_filterMap.mp h
  split at hf
  · cases hf
  · exact ⟨a, ha, (Option.some.inj hf).symm⟩

theorem acceptedFindings_eq : acceptedFindings matcher accepted =
    accepted.flatMap fun a =>
      if matcher.lookup a.content = none then [.acceptedNotOnSite a.content] else [] := by
  unfold acceptedFindings
  rw [List.filterMap_eq_flatMap_toList]
  refine congrArg (accepted.flatMap ·) (funext fun a => ?_)
  simp only [Matcher.contains_eq_true_iff, ite_not]
  split <;> rfl

theorem acceptedFindings_eq_nil (h : ∀ a ∈ accepted, matcher.contains a.content = true) :
    acceptedFindings matcher accepted = [] :=
  List.filterMap_eq_nil_iff.mpr fun a ha => if_pos (h a ha)

theorem legacyFindings_eq : legacyFindings matcher legacy =
    legacy.flatMap fun a =>
      (if matcher.lookup a.content = none then [.legacyNotOnSite a.content] else []) ++
        if matcher.lookup a.suggestion = none then [.legacySuggestionNotOnSite a.content]
        else [] := by
  unfold legacyFindings
  simp only [Matcher.contains_eq_true_iff, ite_not]

theorem legacyFindings_eq_nil (h : ∀ a ∈ legacy, matcher.contains a.content = true ∧
    matcher.contains a.suggestion = true) : legacyFindings matcher legacy = [] := by
  refine List.flatMap_eq_nil_iff.mpr fun a ha => ?_
  rw [if_pos (h a ha).1, if_pos (h a ha).2, List.append_nil]

theorem mem_accountedFor : text ∈ accountedFor matcher accepted legacy ↔
    (∃ a ∈ accepted, matcher.contains a.content = true ∧
      (a.content = text ∨ a.suggestion = text)) ∨
    ∃ a ∈ legacy, (matcher.contains a.content = true ∨ matcher.contains a.suggestion = true) ∧
      (a.content = text ∨ a.suggestion = text) := by
  simp only [accountedFor, List.mem_append, List.mem_flatMap, List.mem_filter, List.mem_cons,
    List.not_mem_nil, or_false, Bool.or_eq_true, and_assoc, eq_comm (a := text)]

theorem mem_accountedFor_of_legacy {a : Legacy} (ha : a ∈ legacy)
    (h : matcher.contains a.content = true) :
    a.content ∈ accountedFor matcher accepted legacy :=
  mem_accountedFor.mpr (.inr ⟨a, ha, .inl h, .inl rfl⟩)

theorem exists_of_mem_unaccounted (h : f ∈ unaccountedFindings site matcher accepted legacy) :
    ∃ a ∈ site.ants, a.content ∉ accountedFor matcher accepted legacy ∧
      f = .unaccounted a.content := by
  obtain ⟨content, hcontent, rfl⟩ := List.mem_map.mp h
  rw [sortedDistinct, List.mem_mergeSort, List.mem_eraseDups] at hcontent
  obtain ⟨hsite, hleft⟩ := List.mem_filter.mp hcontent
  obtain ⟨a, ha, rfl⟩ := List.mem_map.mp hsite
  rw [contains_setOf, Bool.not_eq_true', decide_eq_false_iff_not] at hleft
  exact ⟨a, ha, hleft, rfl⟩

end Integrity

end AntRegister
