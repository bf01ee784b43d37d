import AntRegister.Json.Printer
import AntRegister.Json.Token
import AntRegister.Proofs.Json.Quoted
import AntRegister.Proofs.Text.Decimal
/-! Written tokens are read back, whatever text follows. Only behind a number something has to
follow that ends it. -/

namespace AntRegister.Json

/-- Whether a value may end in front of these characters. -/
def Closes (cs : List Char) : Prop := ∀ c ∈ cs.head?, c = ',' ∨ c = ']' ∨ c = '\x7d'

theorem Closes.cases {cs : List Char} (h : Closes cs) :
    cs = [] ∨ ∃ c rest, cs = c :: rest ∧ (c = ',' ∨ c = ']' ∨ c = '\x7d') := by
  cases cs with
  | nil => exact .inl rfl
  | cons c rest => exact .inr ⟨c, rest, rfl, h c rfl⟩

namespace Token

/-- Whether the tokens of a text are these. -/
def Lexes (cs : List Char) (ts : List Token) : Prop :=
  ∀ done, lexFrom done cs = some (done.reverse ++ ts)

theorem lexes_nil : Lexes [] [] := fun done => by rw [lexFrom, List.append_nil]

/-- Blanks begin no token. -/
theorem isSpace_of_next? {c : Char} {cs : List Char} {r : Token × List Char}
    (h : next? (c :: cs) = some r) : isSpace c = false := by
  by_contra hspace
  rw [Bool.not_eq_false, isSpace] at hspace
  simp only [Bool.or_eq_true, beq_iff_eq] at hspace
  rcases hspace with ((rfl | rfl) | rfl) | rfl <;> cases h

theorem Lexes.cons {cs rest : List Char} {t : Token} {ts : List Token}
    (h : next? cs = some (t, rest)) (hrest : Lexes rest ts) : Lexes cs (t :: ts) := by
  intro done
  cases cs with
  | nil => cases h
  | cons c cs =>
    rw [lexFrom, if_neg (Bool.eq_false_iff.mp (isSpace_of_next? h))]
    split
    next hnone => cases h.symm.trans hnone
    next t' after hsome =>
      obtain ⟨rfl, rfl⟩ := Prod.mk.inj (Option.some.inj (h.symm.trans hsome))
      rw [hrest (t :: done), List.reverse_cons, List.append_assoc]
      rfl

theorem next?_quote (s : String) (cs : List Char) :
    next? ((quote s).toList ++ cs) = some (.text (some s), cs) := by
  obtain ⟨ps, hjoin, hread⟩ := Quoted.exists_pieces_encode s.toList
  have htext : (quote s).toList ++ cs = '"' :: (s.toList.flatMap Quoted.escape ++ '"' :: cs) := by
    rw [quote, String.toList_ofList, Quoted.encode]
    simp
  rw [htext, next?, hread]
  simp [hjoin]

section

variable {cs : List Char} (h : Closes cs)

include h

theorem afterFraction?_of_closes : afterFraction? cs = some cs := by
  obtain rfl | ⟨c, rest, rfl, rfl | rfl | rfl⟩ := h.cases <;> rfl

theorem afterExponent?_of_closes : afterExponent? cs = some cs := by
  obtain rfl | ⟨c, rest, rfl, rfl | rfl | rfl⟩ := h.cases <;> rfl

theorem hasFraction_of_closes : hasFraction cs = false := by
  obtain rfl | ⟨c, rest, rfl, rfl | rfl | rfl⟩ := h.cases <;> rfl

theorem takeWhile_of_closes : cs.takeWhile Text.isDigit = [] := by
  obtain rfl | ⟨c, rest, rfl, rfl | rfl | rfl⟩ := h.cases <;> rfl

theorem dropWhile_of_closes : cs.dropWhile Text.isDigit = cs := by
  obtain rfl | ⟨c, rest, rfl, rfl | rfl | rfl⟩ := h.cases <;> rfl

/-- A number that is not zero begins with no zero, so that it is read to its last digit. -/
theorem whole_decimal (n : Nat) :
    whole ((Text.decimal n).toList ++ cs) = (Text.decimal n).toList ∧
      afterWhole? ((Text.decimal n).toList ++ cs) = some cs := by
  rcases Nat.eq_zero_or_pos n with rfl | hpos
  · exact ⟨rfl, rfl⟩
  · have hdigits : ∀ d ∈ (Text.decimal n).toList, Text.isDigit d = true := fun d hd =>
      (Text.isDigit_eq d).trans (Text.isDigit_of_mem_decimal hd)
    obtain ⟨d, ds, hds, hzero⟩ := Text.exists_toDigits_eq_cons hpos
    rw [← Text.toList_decimal] at hds
    have hne : ∀ rest, (Text.decimal n).toList ++ cs = '0' :: rest → False := fun rest hrest => by
      rw [hds, List.cons_append] at hrest
      exact hzero (List.cons.inj hrest).1
    constructor
    · rw [whole.eq_2 _ hne, List.takeWhile_append_of_pos hdigits, takeWhile_of_closes h,
        List.append_nil]
    · rw [afterWhole?.eq_2 _ hne]
      rw [hds] at hdigits ⊢
      obtain ⟨hd, hrest⟩ := List.forall_mem_cons.mp hdigits
      rw [List.cons_append, afterDigits?, if_pos hd, List.dropWhile_append_of_pos hrest,
        dropWhile_of_closes h]

theorem unsigned?_decimal (negative : Bool) (n : Nat) :
    unsigned? negative ((Text.decimal n).toList ++ cs) = some (signed? negative n, cs) := by
  rw [unsigned?, (whole_decimal h n).1, (whole_decimal h n).2, Text.valueOf_decimal]
  simp [afterFraction?_of_closes h, afterExponent?_of_closes h, hasFraction_of_closes h]

theorem number?_decimalInt (i : Int) :
    number? ((Text.decimalInt i).toList ++ cs) = some (some i, cs) := by
  unfold Text.decimalInt
  split
  next hneg =>
    have hsign : "-".toList = ['-'] := rfl
    rw [String.toList_append, hsign, List.append_assoc, List.singleton_append, number?,
      unsigned?_decimal h, signed?, if_pos rfl, if_neg (by omega)]
    congr
    omega
  next hpos =>
    have hne : ∀ rest, (Text.decimal i.natAbs).toList ++ cs = '-' :: rest → False := by
      intro rest hrest
      obtain ⟨d, ds, hds⟩ := List.exists_cons_of_ne_nil (Text.toList_decimal_ne_nil i.natAbs)
      rw [hds, List.cons_append] at hrest
      have hdigit : d.isDigit = true := Text.isDigit_of_mem_decimal (hds ▸ List.mem_cons_self)
      rw [(List.cons.inj hrest).1] at hdigit
      exact absurd hdigit (by decide)
    rw [number?.eq_2 _ hne, unsigned?_decimal h, signed?, if_neg (by decide)]
    congr
    omega

end

theorem next?_of_number {c : Char} (h : c = '-' ∨ c.isDigit = true) (cs : List Char) :
    next? (c :: cs) = (number? (c :: cs)).map fun r => (.number r.1, r.2) := by
  have hne : ∀ d : Char, d ≠ '-' → d.isDigit = false → c ≠ d := by
    rintro d hd hdigit rfl
    exact h.elim hd fun h => absurd h (Bool.eq_false_iff.mp hdigit)
  have hmark : punctuation? c = none := by
    simp [punctuation?, hne '[' (by decide) (by decide), hne ']' (by decide) (by decide),
      hne '\x7b' (by decide) (by decide), hne '\x7d' (by decide) (by decide),
      hne ',' (by decide) (by decide), hne ':' (by decide) (by decide)]
  rw [next?.eq_6 c cs (hne '"' (by decide) (by decide))
    (fun _ hc => absurd hc (hne 't' (by decide) (by decide)))
    (fun _ hc => absurd hc (hne 'f' (by decide) (by decide)))
    (fun _ hc => absurd hc (hne 'n' (by decide) (by decide))), hmark]
  cases number? (c :: cs) <;> rfl

theorem next?_decimalInt (i : Int) {cs : List Char} (h : Closes cs) :
    next? ((Text.decimalInt i).toList ++ cs) = some (.number (some i), cs) := by
  have hread := number?_decimalInt h i
  obtain ⟨c, ds, hds, hc⟩ := Text.exists_decimalInt_eq_cons i
  rw [hds, List.cons_append] at hread ⊢
  rw [next?_of_number hc, hread]
  rfl

end Token

end AntRegister.Json
