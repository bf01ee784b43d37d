import AntRegister.Proofs.Title.Quotation
/-! Two backquotes with nothing between them quote nothing. If there is a third one on the line,
though, the second is read as the first character of a suggestion. -/

namespace AntRegister.Title

variable {text before body after : List Char}

theorem QuotesFirst.quote_notMem_tail (h : QuotesFirst text before body after) :
    '`' ∉ body.tail := by
  obtain ⟨c, cs, rfl⟩ := List.exists_cons_of_ne_nil h.body_ne
  intro hquote
  obtain ⟨u, v, rfl⟩ := List.append_of_mem hquote
  -- a quotation that ends at this backquote is shorter
  have hshorter : Quotes text before (c :: u) (v ++ '`' :: after) := by
    refine ⟨?_, List.cons_ne_nil c u, fun hline => h.oneLine ?_⟩
    · rw [h.eq, List.cons_append, List.cons_append, List.append_assoc, List.cons_append]
    · exact List.mem_append_left _ hline
  have hle := h.shortest hshorter
  simp only [List.length_cons, List.length_append] at hle
  omega

/-- The quotation begins at the first backquote of its line. -/
theorem QuotesFirst.newline_mem (h : QuotesFirst text before body after) {x y : List Char}
    (hbefore : before = x ++ '`' :: y) : '\n' ∈ y := by
  by_contra hline
  subst hbefore
  have hearlier : ∃ c a, Quotes text x c a := by
    cases y with
    | nil =>
      refine ⟨'`' :: body, after, ?_, List.cons_ne_nil '`' body, ?_⟩
      · rw [h.eq, List.append_assoc, List.cons_append, List.nil_append, List.cons_append]
      · exact List.not_mem_cons_of_ne_of_not_mem (by decide) h.oneLine
    | cons d ds =>
      refine ⟨d :: ds, body ++ '`' :: after, ?_, List.cons_ne_nil d ds, hline⟩
      rw [h.eq, List.append_assoc, List.cons_append]
  obtain ⟨c, a, hquotes⟩ := hearlier
  have hle := h.leftmost hquotes
  simp only [List.length_append, List.length_cons] at hle
  omega

theorem QuotesFirst.quote_mem_iff (h : QuotesFirst text before body after) :
    '`' ∈ body ↔ ∃ rest, text = before ++ '`' :: '`' :: rest := by
  have htail := h.quote_notMem_tail
  obtain ⟨c, cs, rfl⟩ := List.exists_cons_of_ne_nil h.body_ne
  rw [List.mem_cons, h.eq]
  constructor
  · rintro (rfl | hcs)
    · exact ⟨cs ++ '`' :: after, rfl⟩
    · exact absurd hcs htail
  · rintro ⟨rest, heq⟩
    have hrest := (List.cons.inj (List.append_cancel_left heq)).2
    exact .inl (List.cons.inj hrest).1.symm

theorem contentChars_append (h : '`' ∉ before) :
    contentChars (before ++ text) = contentChars text := by
  induction before with
  | nil => rfl
  | cons c cs ih =>
    obtain ⟨hc, hcs⟩ := List.ne_and_not_mem_of_not_mem_cons h
    rw [List.cons_append, contentChars_cons, if_neg hc.symm, ih hcs]

theorem contentChars_quoted (body after : List Char) (hne : body ≠ []) (h : '`' ∉ body.tail) :
    contentChars ('`' :: (body ++ '`' :: after)) =
      if '\n' ∈ body then contentChars (body ++ '`' :: after) else some body := by
  rw [contentChars_cons, if_pos rfl, opened_append after hne h]
  split
  · rw [Option.none_or]
  · rw [Option.some_or]

theorem contentChars_emptyPair {between real after : List Char} (hbetween : '`' ∉ between)
    (hreal : '`' ∉ real) (hline : '\n' ∉ real) (hne : real ≠ []) :
    contentChars ('`' :: '`' :: (between ++ '`' :: (real ++ '`' :: after))) =
      some (if '\n' ∈ between then real else '`' :: between) := by
  have hpair := contentChars_quoted ('`' :: between) (real ++ '`' :: after)
    (List.cons_ne_nil '`' between) hbetween
  rw [List.cons_append] at hpair
  rw [hpair]
  by_cases h : '\n' ∈ between
  · -- neither backquote of the pair opens anything, as the line ends before the next one
    have hopens := contentChars_quoted between (real ++ '`' :: after) (List.ne_nil_of_mem h)
      fun hmem => hbetween (List.mem_of_mem_tail hmem)
    have hnext := contentChars_quoted real after hne fun hmem => hreal (List.mem_of_mem_tail hmem)
    rw [if_pos (List.mem_cons_of_mem _ h), if_pos h, hopens, if_pos h, contentChars_append hbetween,
      hnext, if_neg hline]
  · rw [if_neg (List.not_mem_cons_of_ne_of_not_mem (by decide) h), if_neg h]

/-- A suggestion begins behind the first backquote of its line and ends at the next one, but one
that comes right behind the first does not count as the next. So there is no backquote in a
suggestion except where a pair has nothing between, and then the suggestion begins with one. An
empty pair in front of a pair is passed over exactly if a line ends between the two. -/
theorem content_by_opening (title : String) :
    (∀ content, content? title = some content → ∃ before after,
      Quotes title.toList before content.toList after ∧
      (∀ x y, before = x ++ '`' :: y → '\n' ∈ y) ∧ '`' ∉ content.toList.tail ∧
      ('`' ∈ content.toList ↔ ∃ rest, title.toList = before ++ '`' :: '`' :: rest)) ∧
    ∀ before between real after : String,
      title = before ++ "``" ++ between ++ "`" ++ real ++ "`" ++ after →
      '`' ∉ before.toList → '`' ∉ between.toList → '`' ∉ real.toList → '\n' ∉ real.toList →
      real ≠ "" →
      content? title = some (if '\n' ∈ between.toList then real else "`" ++ between) := by
  constructor
  · intro content h
    obtain ⟨before, after, hfirst⟩ :=
      exists_quotesFirst_of_contentChars (content?_eq_some_iff.mp h)
    exact ⟨before, after, hfirst.toQuotes, fun x y => hfirst.newline_mem,
      hfirst.quote_notMem_tail, hfirst.quote_mem_iff⟩
  · intro before between real after htitle hbefore hbetween hreal hline hne
    have hchars : title.toList = before.toList ++ '`' :: '`' ::
        (between.toList ++ '`' :: (real.toList ++ '`' :: after.toList)) := by
      simp only [htitle, String.toList_append, List.append_assoc]
      rfl
    rw [content?_eq_some_iff, hchars, contentChars_append hbefore,
      contentChars_emptyPair hbetween hreal hline fun hnil => hne (String.toList_injective hnil)]
    split
    · rfl
    · rw [String.toList_append]
      rfl

/-- The same pairs on one line and on two. -/
theorem content_by_opening_lines :
    content? "`` `real`" = some "` " ∧ content? "``\n`real`" = some "real" ∧
      ∃ before after, Quotes "`` `real`".toList before "` ".toList after ∧
        '`' ∉ "` ".toList.tail := by
  obtain ⟨hquotes, hone⟩ := content_by_opening "`` `real`"
  obtain ⟨-, htwo⟩ := content_by_opening "``\n`real`"
  have hspans : content? "`` `real`" = some "` " :=
    hone "" " " "real" "" rfl (by decide) (by decide) (by decide) (by decide) (by decide)
  have hpasses : content? "``\n`real`" = some "real" :=
    htwo "" "\n" "real" "" rfl (by decide) (by decide) (by decide) (by decide) (by decide)
  obtain ⟨before, after, hmem, -, htail, -⟩ := hquotes _ hspans
  exact ⟨hspans, hpasses, before, after, hmem, htail⟩

/-- An empty pair becomes part of a suggestion, and the pair behind it is not read. -/
theorem content_emptyPair_in_front :
    content? "`` `real`" = some "` " ∧ '`' ∈ "` ".toList ∧
      content? "`` `real`" ≠ some "real" := by
  decide +kernel

end AntRegister.Title
