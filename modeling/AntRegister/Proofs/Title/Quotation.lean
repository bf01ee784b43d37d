import AntRegister.Title
import Mathlib.Data.List.Basic
/-! A title in terms of its quotations only: a text that is not empty and stands between two
backquotes on one line. The suggestion is the quotation that begins first, and of several that
begin there the shortest. -/

namespace AntRegister.Title

/-- The text has the body between two backquotes. -/
structure Quotes (text before body after : List Char) : Prop where
  eq : text = before ++ '`' :: (body ++ '`' :: after)
  body_ne : body ≠ []
  oneLine : '\n' ∉ body

/-- No quotation begins earlier, and none that begins there is shorter. -/
structure QuotesFirst (text before body after : List Char) : Prop
    extends Quotes text before body after where
  leftmost : ∀ {b c a}, Quotes text b c a → before.length ≤ b.length
  shortest : ∀ {c a}, Quotes text before c a → body.length ≤ c.length

theorem QuotesFirst.unique {text before body after before' body' after' : List Char}
    (h : QuotesFirst text before body after) (h' : QuotesFirst text before' body' after') :
    body = body' := by
  have hbefore : before.length = before'.length :=
    Nat.le_antisymm (h.leftmost h'.toQuotes) (h'.leftmost h.toQuotes)
  obtain ⟨rfl, hrest⟩ := List.append_inj (h.eq.symm.trans h'.eq) hbefore
  have hbody : body.length = body'.length :=
    Nat.le_antisymm (h.shortest h'.toQuotes) (h'.shortest h.toQuotes)
  exact (List.append_inj (List.cons.inj hrest).2 hbody).1

theorem prefix_of_closed {body after c a : List Char} (heq : body ++ '`' :: after = c ++ '`' :: a)
    (hbody : '`' ∉ body.tail) (hc : c ≠ []) : body <+: c := by
  obtain ⟨rest, rfl, -⟩ | ⟨rest, rfl, hrest⟩ := List.append_eq_append_iff.mp heq
  · exact List.prefix_append body rest
  · cases rest with
    | nil => exact ⟨[], by rw [List.append_nil, List.append_nil]⟩
    | cons d rest =>
      -- the backquote behind `c` would stand in the body, and not in front
      obtain ⟨rfl, -⟩ := List.cons.inj hrest
      refine absurd ?_ hbody
      rw [List.tail_append_of_ne_nil hc]
      exact List.mem_append_right _ List.mem_cons_self

/-! ### What a backquote opens -/

theorem upToQuote_append {body mid : List Char} (rest : List Char) (h : '`' ∉ mid) :
    upToQuote body (mid ++ '`' :: rest) =
      if '\n' ∈ mid then none else some (body.reverse ++ mid) := by
  induction mid generalizing body with
  | nil => simp [upToQuote]
  | cons c mid ih =>
    obtain ⟨hc, hmid⟩ := List.ne_and_not_mem_of_not_mem_cons h
    rw [List.cons_append, upToQuote, if_neg hc.symm, ih hmid]
    by_cases hline : c = '\n' <;> simp [hline, eq_comm]

theorem upToQuote_of_notMem {body cs : List Char} (h : '`' ∉ cs) : upToQuote body cs = none := by
  induction cs generalizing body with
  | nil => rfl
  | cons c cs ih =>
    obtain ⟨hc, hcs⟩ := List.ne_and_not_mem_of_not_mem_cons h
    rw [upToQuote, if_neg hc.symm, ih hcs, ite_self]

/-- The shortest body that a backquote in front of the text opens. -/
def opened : List Char → Option (List Char)
  | [] => none
  | c :: cs => if c = '\n' then none else upToQuote [c] cs

theorem contentChars_cons (c : Char) (cs : List Char) :
    contentChars (c :: cs) =
      if c = '`' then (opened cs).or (contentChars cs) else contentChars cs := by
  cases cs with
  | nil => rw [contentChars]; rfl
  | cons d ds =>
    rw [contentChars, opened]
    by_cases hd : d = '\n'
    · rw [if_pos hd, if_pos hd, Option.none_or]
    · rw [if_neg hd, if_neg hd]
      cases upToQuote [d] ds <;> rfl

theorem opened_append {body : List Char} (rest : List Char) (hne : body ≠ [])
    (h : '`' ∉ body.tail) :
    opened (body ++ '`' :: rest) = if '\n' ∈ body then none else some body := by
  obtain ⟨c, cs, rfl⟩ := List.exists_cons_of_ne_nil hne
  rw [List.tail_cons] at h
  rw [List.cons_append, opened, upToQuote_append rest h]
  by_cases hline : c = '\n' <;> simp [hline, eq_comm]

theorem exists_of_opened {cs body : List Char} (h : opened cs = some body) :
    ∃ after, cs = body ++ '`' :: after ∧ body ≠ [] ∧ '\n' ∉ body ∧ '`' ∉ body.tail := by
  cases cs with
  | nil => cases h
  | cons c cs =>
    by_cases hquote : '`' ∈ cs
    · obtain ⟨mid, after, rfl, hmid⟩ := List.eq_append_cons_of_mem hquote
      rw [← List.cons_append, opened_append after (List.cons_ne_nil c mid) hmid] at h
      split at h
      · cases h
      · cases h
        exact ⟨after, rfl, List.cons_ne_nil c mid, ‹_›, hmid⟩
    · rw [opened, upToQuote_of_notMem hquote, ite_self] at h
      cases h

/-- If anything closes on the line, something is opened. -/
theorem exists_opened {c a : List Char} (hne : c ≠ []) (hline : '\n' ∉ c) :
    ∃ body, opened (c ++ '`' :: a) = some body := by
  obtain ⟨d, ds, rfl⟩ := List.exists_cons_of_ne_nil hne
  have hquote : '`' ∈ ds ++ '`' :: a := List.mem_append_right ds List.mem_cons_self
  obtain ⟨mid, after, heq, hmid⟩ := List.eq_append_cons_of_mem hquote
  have hopened : (d :: mid) ++ '`' :: after = (d :: ds) ++ '`' :: a := congrArg (d :: ·) heq.symm
  have hpre := prefix_of_closed hopened hmid hne
  refine ⟨d :: mid, ?_⟩
  rw [← hopened, opened_append after (List.cons_ne_nil d mid) hmid,
    if_neg fun hmem => hline (hpre.subset hmem)]

/-! ### The first quotation -/

variable {text before body after : List Char}

theorem Quotes.cons (h : Quotes text before body after) (c : Char) :
    Quotes (c :: text) (c :: before) body after :=
  ⟨congrArg (c :: ·) h.eq, h.body_ne, h.oneLine⟩

theorem quotes_cons_cases {c : Char} (h : Quotes (c :: text) before body after) :
    (before = [] ∧ c = '`' ∧ text = body ++ '`' :: after) ∨
      ∃ rest, before = c :: rest ∧ Quotes text rest body after := by
  cases before with
  | nil =>
    obtain ⟨hc, htext⟩ := List.cons.inj h.eq
    exact .inl ⟨rfl, hc, htext⟩
  | cons d rest =>
    obtain ⟨rfl, htext⟩ := List.cons.inj h.eq
    exact .inr ⟨rest, rfl, htext, h.body_ne, h.oneLine⟩

theorem exists_quotesFirst_of_opened (h : opened text = some body) :
    ∃ after, QuotesFirst ('`' :: text) [] body after := by
  obtain ⟨after, heq, hne, hline, htail⟩ := exists_of_opened h
  refine ⟨after, ⟨congrArg _ heq, hne, hline⟩, fun _ => Nat.zero_le _, fun {c a} hother => ?_⟩
  have hclosed : body ++ '`' :: after = c ++ '`' :: a :=
    heq.symm.trans (List.cons.inj hother.eq).2
  exact (prefix_of_closed hclosed htail hother.body_ne).length_le

theorem QuotesFirst.cons (h : QuotesFirst text before body after) {c : Char}
    (hc : c = '`' → opened text = none) :
    QuotesFirst (c :: text) (c :: before) body after := by
  refine ⟨h.toQuotes.cons c, fun {b d a} hother => ?_, fun {d a} hother => ?_⟩
  · obtain ⟨-, hquote, rfl⟩ | ⟨rest, rfl, hrest⟩ := quotes_cons_cases hother
    · -- a quotation from the head would have been opened there
      obtain ⟨found, hfound⟩ := exists_opened hother.body_ne hother.oneLine
      rw [hc hquote] at hfound
      cases hfound
    · exact Nat.succ_le_succ (h.leftmost hrest)
  · obtain ⟨hnil, -⟩ | ⟨rest, heq, hrest⟩ := quotes_cons_cases hother
    · cases hnil
    · obtain ⟨-, rfl⟩ := List.cons.inj heq
      exact h.shortest hrest

theorem exists_quotesFirst_of_contentChars (h : contentChars text = some body) :
    ∃ before after, QuotesFirst text before body after := by
  induction text with
  | nil => cases h
  | cons c cs ih =>
    rw [contentChars_cons] at h
    by_cases hc : c = '`'
    · subst hc
      rw [if_pos rfl] at h
      cases hopened : opened cs with
      | some found =>
        rw [hopened, Option.some_or] at h
        cases h
        obtain ⟨after, hfirst⟩ := exists_quotesFirst_of_opened hopened
        exact ⟨[], after, hfirst⟩
      | none =>
        rw [hopened, Option.none_or] at h
        obtain ⟨before, after, hfirst⟩ := ih h
        exact ⟨_, after, hfirst.cons fun _ => hopened⟩
    · rw [if_neg hc] at h
      obtain ⟨before, after, hfirst⟩ := ih h
      exact ⟨_, after, hfirst.cons fun hquote => absurd hquote hc⟩

theorem contentChars_ne_none (h : Quotes text before body after) : contentChars text ≠ none := by
  induction text generalizing before with
  | nil => exact absurd h.eq.symm (by simp)
  | cons c cs ih =>
    rw [contentChars_cons]
    obtain ⟨-, rfl, rfl⟩ | ⟨rest, -, hrest⟩ := quotes_cons_cases h
    · obtain ⟨found, hfound⟩ := exists_opened h.body_ne h.oneLine
      rw [if_pos rfl, hfound, Option.some_or]
      exact Option.some_ne_none found
    · have hcs := ih hrest
      split
      · cases opened cs with
        | some found => exact Option.some_ne_none found
        | none => exact hcs
      · exact hcs

theorem contentChars_eq_some_iff :
    contentChars text = some body ↔ ∃ before after, QuotesFirst text before body after := by
  refine ⟨exists_quotesFirst_of_contentChars, ?_⟩
  rintro ⟨before, after, h⟩
  obtain ⟨found, hfound⟩ := Option.ne_none_iff_exists'.mp (contentChars_ne_none h.toQuotes)
  obtain ⟨before', after', h'⟩ := exists_quotesFirst_of_contentChars hfound
  rw [hfound, h'.unique h]

theorem contentChars_eq_none_iff :
    contentChars text = none ↔ ¬∃ before body after, Quotes text before body after := by
  constructor
  · rintro hnone ⟨before, body, after, h⟩
    exact contentChars_ne_none h hnone
  · intro hquotes
    cases h : contentChars text with
    | none => rfl
    | some body =>
      obtain ⟨before, after, hfirst⟩ := exists_quotesFirst_of_contentChars h
      exact absurd ⟨before, body, after, hfirst.toQuotes⟩ hquotes

theorem content?_eq_some_iff {title content : String} :
    content? title = some content ↔ contentChars title.toList = some content.toList := by
  rw [content?, Option.map_eq_some_iff]
  constructor
  · rintro ⟨body, hbody, rfl⟩
    rw [hbody, String.toList_ofList]
  · intro h
    exact ⟨_, h, String.ofList_toList⟩

/-- The suggestion in a title is its first quotation, and a title has none if it quotes nothing. -/
theorem content_first_quotation (title : String) :
    (∀ content, content? title = some content ↔
      ∃ before after, QuotesFirst title.toList before content.toList after) ∧
    (content? title = none ↔ ¬∃ before body after, Quotes title.toList before body after) := by
  refine ⟨fun content => ?_, ?_⟩
  · rw [content?_eq_some_iff, contentChars_eq_some_iff]
  · rw [content?, Option.map_eq_none_iff, contentChars_eq_none_iff]

end AntRegister.Title
