import AntRegister.Issue.Basic
import AntRegister.Proofs.Title.Quotation
/-! Writing apostrophes plain. It touches neither backquotes nor line ends, so that it does not
matter whether it is done before or after a suggestion is taken out of its title. -/

namespace AntRegister

namespace Title

theorem plainApostrophe_eq_iff {c d : Char} (hplain : d ≠ '\'') (hcurly : d ≠ '\u2019') :
    plainApostrophe c = d ↔ c = d := by
  unfold plainApostrophe
  split
  case isTrue h =>
    subst h
    exact ⟨fun h => absurd h.symm hplain, fun h => absurd h.symm hcurly⟩
  case isFalse => rfl

theorem plainApostrophe_eq_quote_iff {c : Char} : plainApostrophe c = '`' ↔ c = '`' :=
  plainApostrophe_eq_iff (by decide) (by decide)

theorem plainApostrophe_eq_newline_iff {c : Char} : plainApostrophe c = '\n' ↔ c = '\n' :=
  plainApostrophe_eq_iff (by decide) (by decide)

theorem upToQuote_map (body cs : List Char) :
    upToQuote (body.map plainApostrophe) (cs.map plainApostrophe) =
      (upToQuote body cs).map (List.map plainApostrophe) := by
  induction cs generalizing body with
  | nil => rfl
  | cons c cs ih =>
    simp only [List.map_cons, upToQuote, plainApostrophe_eq_quote_iff,
      plainApostrophe_eq_newline_iff]
    split
    · rw [Option.map_some, List.map_reverse]
    · split
      · rfl
      · exact ih (c :: body)

theorem opened_map (cs : List Char) :
    opened (cs.map plainApostrophe) = (opened cs).map (List.map plainApostrophe) := by
  cases cs with
  | nil => rfl
  | cons c cs =>
    have hbody := upToQuote_map [c] cs
    rw [List.map_singleton] at hbody
    rw [List.map_cons, opened, opened, hbody]
    simp only [plainApostrophe_eq_newline_iff]
    split <;> rfl

theorem contentChars_map (cs : List Char) :
    contentChars (cs.map plainApostrophe) =
      (contentChars cs).map (List.map plainApostrophe) := by
  induction cs with
  | nil => rfl
  | cons c cs ih =>
    rw [List.map_cons, contentChars_cons, contentChars_cons, opened_map, ih]
    simp only [plainApostrophe_eq_quote_iff]
    split
    · rw [Option.map_or]
    · rfl

theorem content?_plainApostrophes (title : String) :
    content? (plainApostrophes title) = (content? title).map plainApostrophes := by
  rw [content?, content?, plainApostrophes, String.toList_ofList, contentChars_map,
    Option.map_map, Option.map_map]
  refine congrArg (Option.map · _) (funext fun cs => ?_)
  rw [Function.comp_apply, Function.comp_apply, plainApostrophes, String.toList_ofList]

theorem plainApostrophes_eq_self {s : String} (h : '\u2019' ∉ s.toList) :
    plainApostrophes s = s := by
  have hmap : s.toList.map plainApostrophe = s.toList := by
    refine (List.map_congr_left fun c hc => ?_).trans (List.map_id _)
    exact if_neg fun hcurly : c = '\u2019' => h (hcurly ▸ hc)
  rw [plainApostrophes, hmap, String.ofList_toList]

theorem not_mem_plainApostrophes (s : String) : '\u2019' ∉ (plainApostrophes s).toList := by
  rw [plainApostrophes, String.toList_ofList, List.mem_map]
  rintro ⟨c, -, hc⟩
  unfold plainApostrophe at hc
  split at hc
  · cases hc
  · exact absurd hc ‹_›

end Title

theorem Issue.content?_plain (i : Issue) :
    i.plain.content? = i.content?.map Title.plainApostrophes :=
  Title.content?_plainApostrophes i.title

end AntRegister
