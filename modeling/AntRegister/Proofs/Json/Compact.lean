import AntRegister.Json.Reader
import AntRegister.Proofs.Json.Token
/-! The compact text of a value is read as that value. The reader is followed along the tokens that
the value is written as, from any place where a value may begin to what follows the value. -/

namespace AntRegister.Json

/-- Whether a value has no part that cannot be held. -/
inductive Held : Json → Prop where
  | null : Held .null
  | bool (b : Bool) : Held (.bool b)
  | integer (i : Int) : Held (.integer i)
  | text (s : String) : Held (.text s)
  | array {items : List Json} (h : ∀ j ∈ items, Held j) : Held (.array items)
  | object {members : List (String × Json)} (h : ∀ m ∈ members, Held m.2) : Held (.object members)

/-- The characters of texts one behind the other. -/
def chars (texts : List String) : List Char := texts.flatMap String.toList

theorem chars_cons (s : String) (texts : List String) : chars (s :: texts) = s.toList ++ chars texts :=
  List.flatMap_cons

theorem toList_compact (j : Json) : j.compact.toList = chars (j.tokens []) := String.toList_join

/-- Whether a text is read as a value by a reader that stands at this place. -/
def Reads (p : Progress) (cs : List Char) (j : Json) : Prop :=
  ∃ ts, Token.Lexes cs ts ∧ ts.foldlM Progress.step p = some (.ended j [])

theorem Reads.cons {p q : Progress} {cs rest : List Char} {t : Token} {j : Json}
    (ht : Token.next? cs = some (t, rest)) (hstep : p.step t = some q) (h : Reads q rest j) :
    Reads p cs j := by
  obtain ⟨ts, hlexes, hfold⟩ := h
  refine ⟨t :: ts, hlexes.cons ht, ?_⟩
  rw [List.foldlM_cons, hstep]
  exact hfold

/-- Whether a value may begin at this place. -/
def Progress.Begins (p : Progress) (frames : List Frame) : Prop :=
  ∀ t, t ≠ .closeBracket → p.step t = begin? frames t

theorem Progress.begins_value (frames : List Frame) : (value frames).Begins frames := fun _ _ => rfl

theorem Progress.begins_firstItem (frames : List Frame) :
    (firstItem frames).Begins (.array [] :: frames) := fun t ht => by
  cases t with
  | closeBracket => exact absurd rfl ht
  | _ => rfl

/-- Members as they are kept while an object is being read. -/
def Progress.kept (members : List (String × Json)) : List (Option String × Json) :=
  (members.map fun m => (some m.1, m.2)).reverse

theorem Progress.kept_concat (members : List (String × Json)) (k : String) (j : Json) :
    kept (members ++ [(k, j)]) = (some k, j) :: kept members := by
  simp [kept]

theorem Progress.closeObject_kept (members : List (String × Json)) :
    closeObject (kept members) = .object members := by
  simp [closeObject, kept, Function.comp_def]

open Progress

/-- Whether the text of a value takes the reader from the place where the value begins to the place
where it has ended. -/
def Leads (j : Json) : Prop :=
  ∀ p frames rest k, p.Begins frames → Closes (chars rest) →
    Reads (.ended j frames) (chars rest) k → Reads p (chars (j.tokens rest)) k

section

variable {p : Progress} {frames : List Frame} {rest : List String} {k : Json}

theorem reads_items {items done : List Json} (h : ∀ j ∈ items, Leads j) (hne : items ≠ [])
    (hp : p.Begins (.array done :: frames))
    (hrest : Reads (.ended (.array (done.reverse ++ items)) frames) (chars rest) k) :
    Reads p (chars (itemTokens items ("]" :: rest))) k := by
  induction items generalizing p done with
  | nil => exact absurd rfl hne
  | cons j items ih =>
    obtain ⟨hj, hitems⟩ := List.forall_mem_cons.mp h
    cases items with
    | nil =>
      refine hj p _ _ k hp (by simp [Closes, chars]) (.cons (t := .closeBracket) rfl rfl ?_)
      rw [List.reverse_cons]
      exact hrest
    | cons j' items =>
      refine hj p _ _ k hp (by simp [Closes, chars]) (.cons (t := .comma) rfl rfl ?_)
      refine ih hitems (List.cons_ne_nil _ _) (begins_value _) ?_
      rw [List.reverse_cons, List.append_assoc]
      exact hrest

theorem reads_members {members done : List (String × Json)} (h : ∀ m ∈ members, Leads m.2)
    (hne : members ≠ [])
    (hp : ∀ s, p.step (.text (some s)) = some (.colon (kept done) (some s) frames))
    (hrest : Reads (.ended (.object (done ++ members)) frames) (chars rest) k) :
    Reads p (chars (memberTokens members ("\x7d" :: rest))) k := by
  induction members generalizing p done with
  | nil => exact absurd rfl hne
  | cons m members ih =>
    obtain ⟨s, j⟩ := m
    obtain ⟨hj, hmembers⟩ := List.forall_mem_cons.mp h
    cases members with
    | nil =>
      rw [memberTokens, chars_cons, chars_cons]
      refine .cons (Token.next?_quote s _) (hp s) (.cons (t := .colon) rfl rfl ?_)
      refine hj _ _ _ k (begins_value _) (by simp [Closes, chars]) ?_
      refine .cons (t := .closeBrace) rfl rfl ?_
      rw [← kept_concat, closeObject_kept]
      exact hrest
    | cons m' members =>
      rw [memberTokens.eq_3 _ _ _ _ (List.cons_ne_nil m' members), chars_cons, chars_cons]
      refine .cons (Token.next?_quote s _) (hp s) (.cons (t := .colon) rfl rfl ?_)
      refine hj _ _ _ k (begins_value _) (by simp [Closes, chars]) (.cons (t := .comma) rfl rfl ?_)
      have hkey : ∀ s', (key ((some s, j) :: kept done) frames).step (.text (some s')) =
          some (.colon (kept (done ++ [(s, j)])) (some s') frames) := fun s' => by
        rw [kept_concat]
        rfl
      refine ih hmembers (List.cons_ne_nil _ _) hkey ?_
      rw [List.append_assoc]
      exact hrest

end

theorem Held.leads {j : Json} (h : Held j) : Leads j := by
  induction h with
  | null =>
    intro p frames rest k hp _ hrest
    exact .cons (t := .null) rfl (hp _ (by decide)) hrest
  | bool b =>
    intro p frames rest k hp _ hrest
    cases b <;> exact .cons (t := .bool _) rfl (hp _ (by decide)) hrest
  | integer i =>
    intro p frames rest k hp hcloses hrest
    rw [tokens, chars_cons]
    exact .cons (Token.next?_decimalInt i hcloses) (hp _ (by simp)) hrest
  | text s =>
    intro p frames rest k hp _ hrest
    rw [tokens, chars_cons]
    exact .cons (Token.next?_quote s _) (hp _ (by simp)) hrest
  | @array items _ ih =>
    intro p frames rest k hp _ hrest
    refine .cons (t := .openBracket) rfl (hp _ (by decide)) ?_
    cases items with
    | nil => exact .cons (t := .closeBracket) rfl rfl hrest
    | cons j items =>
      exact reads_items ih (List.cons_ne_nil _ _) (begins_firstItem frames) hrest
  | @object members _ ih =>
    intro p frames rest k hp _ hrest
    refine .cons (t := .openBrace) rfl (hp _ (by decide)) ?_
    cases members with
    | nil => exact .cons (t := .closeBrace) rfl rfl hrest
    | cons m members =>
      have hkey : ∀ s, (firstKey frames).step (.text (some s)) =
          some (.colon (kept []) (some s) frames) := fun _ => rfl
      exact reads_members ih (List.cons_ne_nil _ _) hkey hrest

theorem read?_compact {j : Json} (h : Held j) : read? j.compact = some j := by
  have hend : Reads (.ended j []) (chars []) j := ⟨[], Token.lexes_nil, rfl⟩
  obtain ⟨ts, hlexes, hfold⟩ := h.leads _ [] [] j (begins_value []) (by simp [Closes, chars]) hend
  have hlex : Token.lex j.compact = some ts := by
    rw [Token.lex, toList_compact]
    exact hlexes []
  rw [read?, hlex]
  simp [ofTokens?, hfold]

/-- Whether no character of these texts is a control character. -/
def Printable (texts : List String) : Prop := ∀ s ∈ texts, ∀ c ∈ s.toList, 32 ≤ c.toNat

theorem printable_cons {s : String} {texts : List String} (hs : ∀ c ∈ s.toList, 32 ≤ c.toNat)
    (h : Printable texts) : Printable (s :: texts) := List.forall_mem_cons.mpr ⟨hs, h⟩

theorem printable_mark {s : String} {texts : List String}
    (hs : (s.toList.all fun c => 32 ≤ c.toNat) = true) (h : Printable texts) :
    Printable (s :: texts) :=
  printable_cons (fun c hc => of_decide_eq_true (List.all_eq_true.mp hs c hc)) h

theorem le_toNat_of_mem_quote {s : String} {c : Char} (h : c ∈ (quote s).toList) :
    32 ≤ c.toNat := by
  rw [quote, String.toList_ofList] at h
  exact Quoted.le_toNat_of_mem_encode h

section

variable {rest : List String}

theorem printable_items {items : List Json}
    (h : ∀ j ∈ items, ∀ rest, Printable rest → Printable (j.tokens rest)) (hrest : Printable rest) :
    Printable (itemTokens items rest) := by
  induction items with
  | nil => exact hrest
  | cons j items ih =>
    obtain ⟨hj, hitems⟩ := List.forall_mem_cons.mp h
    cases items with
    | nil => exact hj rest hrest
    | cons j' items => exact hj _ (printable_mark rfl (ih hitems))

theorem printable_members {members : List (String × Json)}
    (h : ∀ m ∈ members, ∀ rest, Printable rest → Printable (m.2.tokens rest))
    (hrest : Printable rest) : Printable (memberTokens members rest) := by
  induction members with
  | nil => exact hrest
  | cons m members ih =>
    obtain ⟨hm, hmembers⟩ := List.forall_mem_cons.mp h
    cases members with
    | nil =>
      refine printable_cons (fun _ => le_toNat_of_mem_quote) (printable_mark rfl ?_)
      exact hm rest hrest
    | cons m' members =>
      refine printable_cons (fun _ => le_toNat_of_mem_quote) (printable_mark rfl ?_)
      exact hm _ (printable_mark rfl (ih hmembers))

end

theorem Held.printable {j : Json} (h : Held j) :
    ∀ rest, Printable rest → Printable (j.tokens rest) := by
  induction h with
  | null => exact fun _ => printable_mark rfl
  | bool b => cases b <;> exact fun _ => printable_mark rfl
  | integer i => exact fun _ => printable_cons fun _ => Text.le_toNat_of_mem_decimalInt
  | text s => exact fun _ => printable_cons fun _ => le_toNat_of_mem_quote
  | array _ ih =>
    exact fun _ hrest =>
      printable_mark rfl (printable_items ih (printable_mark rfl hrest))
  | object _ ih =>
    exact fun _ hrest =>
      printable_mark rfl (printable_members ih (printable_mark rfl hrest))

/-- A compact text has no control characters, so it is all on one line. -/
theorem Held.le_toNat {j : Json} (h : Held j) {c : Char} (hc : c ∈ j.compact.toList) :
    32 ≤ c.toNat := by
  rw [toList_compact, chars, List.mem_flatMap] at hc
  obtain ⟨s, hs, hc⟩ := hc
  exact h.printable [] (List.forall_mem_nil _) s hs c hc

end AntRegister.Json
