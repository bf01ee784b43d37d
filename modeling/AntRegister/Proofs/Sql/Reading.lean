import AntRegister.Proofs.Sql.Token
import AntRegister.Proofs.Text.Decimal
import AntRegister.Sql.Statement
/-! Reading texts piece by piece. A piece that ends between two tokens may be followed by anything,
a piece that ends in a token only by a character that separates tokens. -/

namespace AntRegister.Sql

/-- Whether the reader is neither inside a literal nor in a comment. -/
def Mode.IsOpen : Mode → Prop
  | .quoted _ | .comment => False
  | _ => True

instance : DecidablePred Mode.IsOpen
  | .quoted _ | .comment => .isFalse id
  | .between | .run _ | .closing _ | .hyphen => .isTrue trivial

/-- The text consists of whole tokens and ends between two. -/
def Reads (cs : List Char) (ts : List Token) : Prop := scan .between cs = (ts, .between)

/-- The text consists of whole tokens, the last of which may be lacking a mark of its end. -/
def Yields (cs : List Char) (ts : List Token) : Prop :=
  (scan .between cs).2.IsOpen ∧ (scan .between cs).1 ++ (scan .between cs).2.pending = ts

instance (cs : List Char) (ts : List Token) : Decidable (Reads cs ts) :=
  inferInstanceAs (Decidable (_ = _))

instance (cs : List Char) (ts : List Token) : Decidable (Yields cs ts) :=
  inferInstanceAs (Decidable (_ ∧ _))

/-- Whether the first character belongs to no token in front of it. -/
def separates : List Char → Bool
  | c :: _ => !(isWordChar c || c == '\'' || c == '-')
  | [] => false

theorem scan_append (m : Mode) (cs ds : List Char) :
    scan m (cs ++ ds) =
      ((scan m cs).1 ++ (scan (scan m cs).2 ds).1, (scan (scan m cs).2 ds).2) := by
  induction cs generalizing m with
  | nil => rfl
  | cons c cs ih => simp only [List.cons_append, scan, ih, List.append_assoc]

theorem next_of_separates {m : Mode} {c : Char} {cs : List Char} (hm : m.IsOpen)
    (hc : separates (c :: cs) = true) :
    m.next c = (m.pending ++ (Mode.start c).1, (Mode.start c).2) := by
  simp only [separates, Bool.not_eq_true', Bool.or_eq_false_iff, beq_eq_false_iff_ne] at hc
  obtain ⟨⟨hword, hquote⟩, hhyphen⟩ := hc
  cases m with
  | between => rfl
  | run cs => simp [Mode.next, hword]
  | closing cs => simp [Mode.next, hquote]
  | hyphen => simp [Mode.next, hhyphen]
  | quoted cs | comment => exact hm.elim

theorem scan_of_separates {m : Mode} {cs : List Char} (hm : m.IsOpen)
    (hcs : separates cs = true) :
    scan m cs = (m.pending ++ (scan .between cs).1, (scan .between cs).2) := by
  cases cs with
  | nil => exact absurd hcs Bool.false_ne_true
  | cons c cs =>
    rw [scan, scan, next_of_separates hm hcs, List.append_assoc]
    rfl

section

variable {cs ds : List Char} {ts us : List Token}

theorem Reads.append (h : Reads cs ts) (h' : Reads ds us) : Reads (cs ++ ds) (ts ++ us) := by
  rw [Reads, scan_append, h, h']

theorem Reads.yields (h : Reads cs ts) : Yields cs ts := by
  rw [Yields, h]
  exact ⟨trivial, List.append_nil ts⟩

theorem Reads.append_yields (h : Reads cs ts) (h' : Yields ds us) :
    Yields (cs ++ ds) (ts ++ us) := by
  rw [Yields, scan_append, h, List.append_assoc]
  exact ⟨h'.1, congrArg _ h'.2⟩

theorem Yields.append_reads (h : Yields cs ts) (h' : Reads ds us) (hds : separates ds = true) :
    Reads (cs ++ ds) (ts ++ us) := by
  rw [Reads, scan_append, scan_of_separates h.1 hds, h', ← h.2, List.append_assoc]

end

theorem Reads.flatMap {α : Type} {text : α → List Char} {tokens : α → List Token} {l : List α}
    (h : ∀ a ∈ l, Reads (text a) (tokens a)) : Reads (l.flatMap text) (l.flatMap tokens) := by
  induction l with
  | nil => rfl
  | cons a l ih =>
    rw [List.flatMap_cons, List.flatMap_cons]
    exact (h a List.mem_cons_self).append (ih fun b hb => h b (List.mem_cons_of_mem _ hb))

theorem Yields.intercalate {α : Type} {text : α → List Char} {tokens : α → List Token}
    {l : List α} {cs : List Char} {ts : List Token} (hsep : Reads cs ts)
    (hcs : separates cs = true) (h : ∀ a ∈ l, Yields (text a) (tokens a)) :
    Yields (cs.intercalate (l.map text)) (ts.intercalate (l.map tokens)) := by
  induction l with
  | nil => exact ⟨trivial, rfl⟩
  | cons a l ih =>
    have ha := h a List.mem_cons_self
    cases l with
    | nil => simpa using ha
    | cons b l =>
      have hrest := ih fun b hb => h b (List.mem_cons_of_mem _ hb)
      simp only [List.map_cons, List.intercalate_cons_cons] at hrest ⊢
      exact (ha.append_reads hsep hcs).append_yields hrest

theorem lex_of_reads {s : String} {ts : List Token} (h : Reads s.toList ts) : lex s = some ts := by
  rw [lex, h]
  exact congrArg some (List.append_nil ts)

/-- Inside a literal an escaped text stands for itself, whatever is in it. -/
theorem scan_escapeChars (done cs : List Char) :
    scan (.quoted done) (escapeChars cs) = ([], .quoted (done ++ cs)) := by
  -- A quote is the only character that is written otherwise, and its second half reopens.
  induction cs generalizing done with
  | nil => simp [escapeChars, scan]
  | cons c cs ih =>
    by_cases h : c = '\''
    · subst h
      simp [escapeChars, scan, Mode.next, ih]
    · simp [escapeChars, scan, Mode.next, h, ih]

theorem toList_literal (s : String) :
    (literal s).toList = '\'' :: (escapeChars s.toList ++ ['\'']) := by
  simp [literal, escape]

theorem yields_literal (s : String) : Yields (literal s).toList [.literal s] := by
  have hscan : scan .between (literal s).toList = ([], .closing s.toList) := by
    rw [toList_literal, scan, show Mode.next .between '\'' = ([], .quoted []) from rfl, scan_append,
      scan_escapeChars]
    rfl
  rw [Yields, hscan]
  exact ⟨trivial, by simp [Mode.pending]⟩

theorem scan_run {done cs : List Char} (h : ∀ c ∈ cs, isWordChar c = true) :
    scan (.run done) cs = ([], .run (done ++ cs)) := by
  induction cs generalizing done with
  | nil => simp [scan]
  | cons c cs ih =>
    have hc := h c List.mem_cons_self
    simp [scan, Mode.next, hc, ih fun d hd => h d (List.mem_cons_of_mem _ hd)]

theorem start_of_isDigit {c : Char} (h : c.isDigit = true) : Mode.start c = ([], .run [c]) := by
  have hword : isWordChar c = true := by simp [isWordChar, Char.isAlphanum, h]
  have hrange : 48 ≤ c.toNat ∧ c.toNat ≤ 57 := by
    simpa [Char.isDigit, UInt32.le_iff_toNat_le] using h
  have hblank : Text.isBlank c = false := by
    simp only [Text.isBlank, Bool.or_eq_false_iff, Bool.and_eq_false_iff, decide_eq_false_iff_not,
      beq_eq_false_iff_ne]
    omega
  have hquote : c ≠ '\'' := by rintro rfl; exact absurd h (by decide)
  have hhyphen : c ≠ '-' := by rintro rfl; exact absurd h (by decide)
  rw [Mode.start, hblank, if_neg Bool.false_ne_true, if_neg hquote, if_neg hhyphen, if_pos hword]

theorem yields_decimal (n : Nat) : Yields (Text.decimal n).toList [.number n] := by
  have hdigit : ∀ c ∈ (Text.decimal n).toList, c.isDigit = true := fun _ =>
    Text.isDigit_of_mem_decimal
  have hscan : scan .between (Text.decimal n).toList = ([], .run (Text.decimal n).toList) := by
    cases hcs : (Text.decimal n).toList with
    | nil => exact absurd (Text.toList_decimal n ▸ hcs) Nat.toDigits_ne_nil
    | cons c cs =>
      rw [hcs] at hdigit
      have hrun : ∀ d ∈ cs, isWordChar d = true := fun d hd => by
        simp [isWordChar, Char.isAlphanum, hdigit d (List.mem_cons_of_mem _ hd)]
      rw [scan, Mode.next, start_of_isDigit (hdigit c List.mem_cons_self), scan_run hrun]
      rfl
  rw [Yields, hscan]
  refine ⟨trivial, ?_⟩
  rw [Mode.pending, Token.ofRun, if_pos (List.all_eq_true.mpr hdigit), Text.valueOf_decimal]
  rfl

end AntRegister.Sql
