import AntRegister.Proofs.Sql.Reading
import Mathlib.Algebra.Ring.Parity
/-! Which texts are escaped. They are those whose runs of quotes all have even length, and no other
text can stand inside a literal without a danger of ending it. -/

namespace AntRegister.Sql

/-- A run of quotes in a text, which may be empty and could not be longer. -/
structure QuoteRun (text before : List Char) (n : Nat) (after : List Char) : Prop where
  eq : text = before ++ (List.replicate n '\'' ++ after)
  left : before.getLast? ≠ some '\''
  right : after.head? ≠ some '\''

def EvenRuns (text : List Char) : Prop :=
  ∀ before n after, QuoteRun text before n after → Even n

/-- Whether a literal that is opened in front of a text is still open behind it, whatever
follows. -/
def StaysQuoted (text : List Char) : Prop :=
  ∃ body, ∀ rest, scan .between ('\'' :: (text ++ rest)) = scan (.quoted body) rest

section

variable {text before after cs : List Char} {c d : Char} {n : Nat}

theorem QuoteRun.cons (h : QuoteRun text before n after) (hc : before = [] → c ≠ '\'') :
    QuoteRun (c :: text) (c :: before) n after := by
  refine ⟨congrArg (c :: ·) h.eq, ?_, h.right⟩
  cases before with
  | nil => simpa using hc rfl
  | cons d before => exact h.left

theorem QuoteRun.of_cons (h : QuoteRun (c :: text) (d :: before) n after) :
    c = d ∧ QuoteRun text before n after := by
  obtain ⟨hc, htext⟩ := List.cons.inj h.eq
  refine ⟨hc, htext, fun hlast => h.left ?_, h.right⟩
  rw [List.getLast?_cons, hlast, Option.getD_some]

theorem evenRuns_nil : EvenRuns [] := by
  intro before n after h
  obtain ⟨-, hrest⟩ := List.append_eq_nil_iff.mp h.eq.symm
  obtain ⟨hn, -⟩ := List.append_eq_nil_iff.mp hrest
  rw [(List.replicate_eq_nil_iff '\'').mp hn]
  exact Even.zero

theorem evenRuns_cons_iff (hc : c ≠ '\'') : EvenRuns (c :: cs) ↔ EvenRuns cs := by
  constructor
  · intro h before n after hrun
    exact h _ _ _ (hrun.cons fun _ => hc)
  · intro h before n after hrun
    cases before with
    | nil =>
      cases n with
      | zero => exact Even.zero
      | succ n => exact absurd (List.cons.inj hrun.eq).1 hc
    | cons d before => exact h _ _ _ hrun.of_cons.2

theorem evenRuns_pair_iff : EvenRuns ('\'' :: '\'' :: cs) ↔ EvenRuns cs := by
  constructor
  · intro h before n after hrun
    cases before with
    | nil =>
      -- the pair makes this run longer by two
      have hlonger : QuoteRun ('\'' :: '\'' :: cs) [] (n + 2) after :=
        ⟨congrArg ('\'' :: '\'' :: ·) hrun.eq, hrun.left, hrun.right⟩
      exact (Nat.even_add.mp (h _ _ _ hlonger)).mpr even_two
    | cons d before => exact h _ _ _ ((hrun.cons nofun).cons nofun)
  · intro h before n after hrun
    match before, n with
    | [], 0 => exact absurd (congrArg List.head? hrun.eq).symm hrun.right
    | [], 1 => exact absurd (congrArg List.head? (List.cons.inj hrun.eq).2).symm hrun.right
    | [], n + 2 =>
      have hrest : cs = List.replicate n '\'' ++ after :=
        (List.cons.inj (List.cons.inj hrun.eq).2).2
      exact (h [] n after ⟨hrest, nofun, hrun.right⟩).add even_two
    | [d], n => exact absurd (congrArg some hrun.of_cons.1.symm) hrun.left
    | d :: e :: before, n => exact h _ _ _ hrun.of_cons.2.of_cons.2

theorem not_evenRuns_lone (h : cs.head? ≠ some '\'') : ¬EvenRuns ('\'' :: cs) :=
  fun hruns => Nat.not_even_one (hruns [] 1 cs ⟨rfl, nofun, h⟩)

theorem head?_ne_of_lone (h : ∀ ds, c = '\'' → cs = '\'' :: ds → False) (hc : c = '\'') :
    cs.head? ≠ some '\'' := by
  intro hhead
  obtain ⟨ds, hds⟩ := List.head?_eq_some_iff.mp hhead
  exact h ds hc hds

end

/-! ### Escaped texts -/

theorem escapeChars_quote (cs : List Char) :
    escapeChars ('\'' :: cs) = '\'' :: '\'' :: escapeChars cs := if_pos rfl

theorem escapeChars_cons {c : Char} (hc : c ≠ '\'') (cs : List Char) :
    escapeChars (c :: cs) = c :: escapeChars cs := if_neg hc

theorem escapeChars_unescapeChars_iff (cs : List Char) :
    escapeChars (unescapeChars cs) = cs ↔ EvenRuns cs := by
  fun_induction unescapeChars cs with
  | case1 cs ih =>
    rw [escapeChars_quote, List.cons.injEq, List.cons.injEq, ih, evenRuns_pair_iff]
    simp
  | case2 c cs hlone ih =>
    by_cases hc : c = '\''
    · have hhead := head?_ne_of_lone hlone hc
      subst hc
      refine iff_of_false (fun h => hhead ?_) (not_evenRuns_lone hhead)
      rw [escapeChars_quote] at h
      rw [← (List.cons.inj h).2]
      rfl
    · rw [escapeChars_cons hc, List.cons.injEq, ih, evenRuns_cons_iff hc]
      simp
  | case3 => exact iff_of_true rfl evenRuns_nil

theorem exists_escapeChars_iff (cs : List Char) :
    (∃ ds, escapeChars ds = cs) ↔ EvenRuns cs := by
  rw [← escapeChars_unescapeChars_iff]
  constructor
  · rintro ⟨ds, rfl⟩
    rw [unescapeChars_escapeChars]
  · intro h
    exact ⟨_, h⟩

theorem unescape_escape (s : String) : unescape (escape s) = s := by
  rw [unescape, escape, String.toList_ofList, unescapeChars_escapeChars, String.ofList_toList]

theorem escape_injective : Function.Injective escape :=
  Function.LeftInverse.injective unescape_escape

theorem escape_eq_iff {s t : String} : escape s = t ↔ escapeChars s.toList = t.toList := by
  rw [escape, ← String.toList_inj, String.toList_ofList]

/-! ### Inside a literal -/

/-- A reader that is inside one literal at both ends of a text has read quotes in pairs only. -/
theorem evenRuns_of_scan {done body cs : List Char}
    (h : scan (.quoted done) cs = ([], .quoted body)) : EvenRuns cs := by
  fun_induction unescapeChars cs generalizing done with
  | case1 cs ih => exact evenRuns_pair_iff.mpr (ih h)
  | case2 c cs hlone ih =>
    by_cases hc : c = '\''
    · have hhead := head?_ne_of_lone hlone hc
      subst hc
      have hclosing : scan (.closing done) cs = ([], .quoted body) := h
      cases cs with
      | nil => cases hclosing
      | cons d ds =>
        have hd : d ≠ '\'' := fun hd => hhead (congrArg some hd)
        simp [scan, Mode.next, Mode.pending, hd] at hclosing
    · rw [scan, Mode.next, if_neg hc] at h
      have hrest : scan (.quoted (done ++ [c])) cs = ([], .quoted body) := h
      exact (evenRuns_cons_iff hc).mpr (ih hrest)
  | case3 => exact evenRuns_nil

theorem staysQuoted_iff (cs : List Char) : StaysQuoted cs ↔ EvenRuns cs := by
  constructor
  · rintro ⟨body, h⟩
    have hscan := h []
    rw [List.append_nil] at hscan
    exact evenRuns_of_scan hscan
  · intro h
    obtain ⟨ds, rfl⟩ := (exists_escapeChars_iff cs).mpr h
    refine ⟨ds, fun rest => ?_⟩
    change scan (.quoted []) (escapeChars ds ++ rest) = _
    rw [scan_append, scan_escapeChars]
    rfl

/-- Unescaping undoes escaping, and escaping undoes unescaping exactly on texts with even runs of
quotes. These are the texts that something is escaped to, and the only ones that cannot end the
literal that they stand in. -/
theorem escaped_texts :
    (∀ s, unescape (escape s) = s) ∧
    (∀ t, escape (unescape t) = t ↔ EvenRuns t.toList) ∧
    Function.Injective escape ∧
    (∀ t, (∃ s, escape s = t) ↔ EvenRuns t.toList) ∧
    ∀ t : String, StaysQuoted t.toList ↔ EvenRuns t.toList := by
  refine ⟨unescape_escape, fun t => ?_, escape_injective, fun t => ?_,
    fun t => staysQuoted_iff t.toList⟩
  · rw [escape_eq_iff, unescape, String.toList_ofList, escapeChars_unescapeChars_iff]
  · rw [← exists_escapeChars_iff]
    constructor
    · rintro ⟨s, rfl⟩
      exact ⟨s.toList, (escape_eq_iff.mp rfl)⟩
    · rintro ⟨ds, hds⟩
      exact ⟨.ofList ds, escape_eq_iff.mpr (by rw [String.toList_ofList, hds])⟩

end AntRegister.Sql
