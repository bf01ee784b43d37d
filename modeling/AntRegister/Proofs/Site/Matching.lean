import AntRegister.Proofs.Latest
import AntRegister.Site.Matcher
/-! The matcher in terms of the site's ants only: a text belongs to the last ant with this content,
and if there is none to the last ant that was suggested as it. -/

namespace AntRegister.Matcher

variable (ants : List SiteAnt) (text : String)

theorem ofAnts_concat (a : SiteAnt) : ofAnts (ants ++ [a]) = (ofAnts ants).add a := by
  rw [ofAnts, List.foldl_append]
  rfl

theorem getElem?_byContent : (ofAnts ants).byContent[text]? =
    (ants.findRev? fun a => a.content == text).map SiteAnt.entry := by
  induction ants using List.reverseRecOn with
  | nil => exact Std.HashMap.getElem?_empty
  | append_singleton ants a ih =>
    rw [ofAnts_concat, findRev?_concat, add, Std.HashMap.getElem?_insert, ih]
    cases a.content == text <;> rfl

theorem getElem?_bySuggestion : (ofAnts ants).bySuggestion[text]? =
    (ants.findRev? fun a => a.suggested == some text).map SiteAnt.entry := by
  induction ants using List.reverseRecOn with
  | nil => exact Std.HashMap.getElem?_empty
  | append_singleton ants a ih =>
    rw [ofAnts_concat, findRev?_concat, add]
    cases a.suggested with
    | none => exact ih
    | some s =>
      rw [Std.HashMap.getElem?_insert, ih, Option.some_beq_some]
      cases s == text <;> rfl

theorem lookup_ofAnts : (ofAnts ants).lookup text =
    ((ants.findRev? fun a => a.content == text).or
      (ants.findRev? fun a => a.suggested == some text)).map SiteAnt.entry := by
  rw [lookup, getElem?_byContent, getElem?_bySuggestion]
  cases ants.findRev? fun a => a.content == text <;> rfl

variable {ants text}

/-- What is found is the entry of an ant that has the text as its content or was suggested as it. -/
theorem exists_of_lookup {e : SiteEntry} (h : (ofAnts ants).lookup text = some e) :
    ∃ a ∈ ants, a.entry = e ∧ (a.content = text ∨ a.suggested = some text) := by
  rw [lookup_ofAnts] at h
  obtain ⟨a, ha, he⟩ := Option.map_eq_some_iff.mp h
  cases hc : ants.findRev? fun a => a.content == text with
  | some b =>
    rw [hc] at ha
    cases ha
    obtain ⟨hmem, hb⟩ := mem_of_findRev? hc
    exact ⟨a, hmem, he, .inl (beq_iff_eq.mp hb)⟩
  | none =>
    rw [hc] at ha
    obtain ⟨hmem, hb⟩ := mem_of_findRev? ha
    exact ⟨a, hmem, he, .inr (beq_iff_eq.mp hb)⟩

/-- The ant that is found has the text as its content if any ant has. -/
theorem content_eq_of_lookup {e : SiteEntry} (h : (ofAnts ants).lookup text = some e)
    {a : SiteAnt} (ha : a ∈ ants) (hcontent : a.content = text) : e.content = text := by
  obtain ⟨b, hb, hbtext⟩ := exists_findRev? (List.mem_map.mpr ⟨a, ha, hcontent⟩)
  rw [lookup_ofAnts, hb] at h
  cases h
  exact hbtext

theorem suggestion_eq_of_lookup {e : SiteEntry} (h : (ofAnts ants).lookup text = some e)
    (hcontent : e.content ≠ text) : e.suggestion = text := by
  obtain ⟨a, -, rfl, hname | hname⟩ := exists_of_lookup h
  · exact absurd hname hcontent
  · exact (congrArg (Option.getD · a.content) hname).trans rfl

theorem lookup_eq_none_iff : (ofAnts ants).lookup text = none ↔
    ∀ a ∈ ants, a.content ≠ text ∧ a.suggested ≠ some text := by
  rw [lookup_ofAnts, Option.map_eq_none_iff, Option.or_eq_none_iff]
  simp only [List.findRev?_eq_find?_reverse, List.find?_eq_none, List.mem_reverse, beq_iff_eq]
  constructor
  · intro h a ha
    exact ⟨h.1 a ha, h.2 a ha⟩
  · intro h
    exact ⟨fun a ha => (h a ha).1, fun a ha => (h a ha).2⟩

theorem lookup_content_ne_none {a : SiteAnt} (ha : a ∈ ants) :
    (ofAnts ants).lookup a.content ≠ none := fun hnone =>
  (lookup_eq_none_iff.mp hnone a ha).1 rfl

/-- Each ant is found by the content that it was suggested as. -/
theorem lookup_suggestion_ne_none {a : SiteAnt} (ha : a ∈ ants) :
    (ofAnts ants).lookup a.suggestion ≠ none := by
  intro h
  obtain ⟨hcontent, hsuggested⟩ := lookup_eq_none_iff.mp h a ha
  unfold SiteAnt.suggestion at hcontent hsuggested
  cases hs : a.suggested with
  | none => exact hcontent (by rw [hs]; rfl)
  | some s => exact hsuggested (by rw [hs]; rfl)

/-- The content of an ant that is found is found too, at an ant with this content. -/
theorem exists_lookup_content {e : SiteEntry} (h : (ofAnts ants).lookup text = some e) :
    ∃ own, (ofAnts ants).lookup e.content = some own ∧ own.content = e.content := by
  obtain ⟨a, ha, rfl, -⟩ := exists_of_lookup h
  obtain ⟨own, hown⟩ := Option.ne_none_iff_exists'.mp (lookup_content_ne_none ha)
  exact ⟨own, hown, content_eq_of_lookup hown ha rfl⟩

theorem mem_byContent_iff : text ∈ (ofAnts ants).byContent ↔ text ∈ ants.map SiteAnt.content := by
  rw [Std.HashMap.mem_iff_isSome_getElem?, getElem?_byContent, Option.isSome_map,
    List.findRev?_eq_find?_reverse, List.find?_isSome]
  simp only [List.mem_reverse, beq_iff_eq, List.mem_map]

theorem size_ofAnts (ants : List SiteAnt) :
    (ofAnts ants).size = (ants.map SiteAnt.content).toFinset.card := by
  induction ants using List.reverseRecOn with
  | nil => rfl
  | append_singleton ants a ih =>
    rw [size] at ih
    have hcontents : ((ants ++ [a]).map SiteAnt.content).toFinset =
        insert a.content (ants.map SiteAnt.content).toFinset := by
      rw [List.map_append, List.toFinset_append, Finset.union_comm]
      rfl
    rw [ofAnts_concat, size, add, Std.HashMap.size_insert, ih, hcontents,
      Finset.card_insert_eq_ite]
    simp only [mem_byContent_iff, List.mem_toFinset]

/-- Looking a text up is going through the ants from the last one for its content, and once more
for its suggestion if there is none. There are as many ants to find as contents, and the content of
what is found leads to itself. -/
theorem lookup_eq_scan (ants : List SiteAnt) :
    (∀ text, (ofAnts ants).lookup text =
      match ants.findRev? fun a => a.content == text with
      | some a => some a.entry
      | none => (ants.findRev? fun a => a.suggested == some text).map SiteAnt.entry) ∧
    (ofAnts ants).size = (ants.map SiteAnt.content).toFinset.card ∧
    ∀ text e, (ofAnts ants).lookup text = some e →
      ∃ own, (ofAnts ants).lookup e.content = some own ∧ own.content = e.content := by
  refine ⟨fun text => ?_, size_ofAnts ants, fun text e h => exists_lookup_content h⟩
  rw [lookup_ofAnts]
  cases ants.findRev? fun a => a.content == text <;> rfl

/-- A text is the content of one ant and the suggestion of the ants before and behind it. -/
theorem lookup_eq_scan_shared :
    let owner := (SiteAnt.plain "b").withSuggestion "c"
    let ants := [(SiteAnt.plain "a").withSuggestion "b", owner,
      (SiteAnt.plain "d").withSuggestion "b"]
    (ofAnts ants).lookup "b" = some owner.entry ∧ (ofAnts ants).size = 3 ∧
      (ofAnts ants).lookup "c" = some owner.entry ∧
      ∃ own, (ofAnts ants).lookup owner.entry.content = some own ∧ own.content = "b" := by
  intro owner ants
  obtain ⟨hscan, hsize, hown⟩ := lookup_eq_scan ants
  have hc : (ofAnts ants).lookup "c" = some owner.entry := by rw [hscan]; rfl
  refine ⟨by rw [hscan]; rfl, by rw [hsize]; decide, hc, hown "c" _ hc⟩

end AntRegister.Matcher
