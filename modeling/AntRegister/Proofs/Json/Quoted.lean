import AntRegister.Json.Quoted
import Mathlib.Data.List.Basic
/-! Written string literals are read back. Each character is written so that it is read as one
piece, and no character of a literal is a control character. -/

namespace AntRegister.Json.Quoted

/-- A character is written behind a backslash, as its number, or as it is. -/
theorem escape_cases (c : Char) :
    (∃ d, escape c = ['\\', d] ∧ 32 ≤ d.toNat ∧ d ≠ 'u' ∧ simpleEscape? d = some (.char c)) ∨
      c.toNat < 32 ∧ escape c =
        ['\\', 'u', '0', '0', hexDigit (c.toNat / 16), hexDigit (c.toNat % 16)] ∨
      escape c = [c] ∧ c ≠ '"' ∧ c ≠ '\\' ∧ 32 ≤ c.toNat := by
  unfold escape
  split_ifs with hquote hslash hfeed hreturn htab hback hform hcontrol
  case pos => exact .inl ⟨'"', rfl, by decide, by decide, by rw [hquote]; rfl⟩
  case pos => exact .inl ⟨'\\', rfl, by decide, by decide, by rw [hslash]; rfl⟩
  case pos => exact .inl ⟨'n', rfl, by decide, by decide, hfeed ▸ rfl⟩
  case pos => exact .inl ⟨'r', rfl, by decide, by decide, hreturn ▸ rfl⟩
  case pos => exact .inl ⟨'t', rfl, by decide, by decide, htab ▸ rfl⟩
  case pos => exact .inl ⟨'b', rfl, by decide, by decide, hback ▸ rfl⟩
  case pos => exact .inl ⟨'f', rfl, by decide, by decide, hform ▸ rfl⟩
  case pos => exact .inr (.inl ⟨hcontrol, rfl⟩)
  case neg => exact .inr (.inr ⟨rfl, hquote, hslash, Nat.le_of_not_lt hcontrol⟩)

theorem hex4?_hexDigit : ∀ n < 32, hex4? '0' '0' (hexDigit (n / 16)) (hexDigit (n % 16)) = some n := by
  decide

theorem le_toNat_hexDigit : ∀ n < 16, 32 ≤ (hexDigit n).toNat := by decide

theorem le_toNat_of_mem_escape {c d : Char} (h : d ∈ escape c) : 32 ≤ d.toNat := by
  rcases escape_cases c with ⟨e, he, hle, -⟩ | ⟨hlt, he⟩ | ⟨he, -, -, hle⟩
  · rw [he, List.mem_pair] at h
    rcases h with rfl | rfl
    · decide
    · exact hle
  · have hhigh := le_toNat_hexDigit (c.toNat / 16) (by omega)
    have hlow := le_toNat_hexDigit (c.toNat % 16) (by omega)
    rw [he] at h
    simp only [List.mem_cons, List.not_mem_nil, or_false] at h
    rcases h with rfl | rfl | rfl | rfl | rfl | rfl
    iterate 4 decide
    · exact hhigh
    · exact hlow
  · rw [he, List.mem_singleton] at h
    exact h ▸ hle

theorem le_toNat_of_mem_encode {cs : List Char} {d : Char} (h : d ∈ encode cs) : 32 ≤ d.toNat := by
  rw [encode, List.cons_append, List.mem_cons, List.mem_append, List.mem_flatMap,
    List.mem_singleton] at h
  rcases h with rfl | ⟨c, -, hd⟩ | rfl
  · decide
  · exact le_toNat_of_mem_escape hd
  · decide

/-- Whether a piece is what is read off a written character. A control character may be written as a
unit. -/
def Piece.Stands (p : Piece) (c : Char) : Prop := p = .char c ∨ p = .unit c.toNat ∧ c.toNat < 32

theorem exists_pieces_escape (c : Char) :
    ∃ p : Piece, p.Stands c ∧
      ∀ done rest, pieces done (escape c ++ rest) = pieces (p :: done) rest := by
  rcases escape_cases c with ⟨d, he, -, hu, hd⟩ | ⟨hlt, he⟩ | ⟨he, hquote, hslash, hle⟩
  · refine ⟨.char c, .inl rfl, fun done rest => ?_⟩
    rw [he, List.cons_append, List.singleton_append, pieces.eq_4 _ _ _ fun _ _ _ _ _ h => (hu h).elim,
      hd]
  · refine ⟨.unit c.toNat, .inr ⟨rfl, hlt⟩, fun done rest => ?_⟩
    rw [he]
    simp only [List.cons_append, List.nil_append]
    rw [pieces.eq_3, hex4?_hexDigit _ hlt]
  · refine ⟨.char c, .inl rfl, fun done rest => ?_⟩
    rw [he, List.singleton_append, pieces.eq_5 _ _ _ hquote (fun _ _ _ _ _ h => (hslash h).elim)
      (fun _ _ h => (hslash h).elim), if_neg (Nat.not_lt.mpr hle)]

theorem exists_pieces_flatMap (cs : List Char) :
    ∃ ps : List Piece, List.Forall₂ Piece.Stands ps cs ∧
      ∀ done rest, pieces done (cs.flatMap escape ++ rest) = pieces (ps.reverse ++ done) rest := by
  induction cs with
  | nil => exact ⟨[], .nil, fun _ _ => rfl⟩
  | cons c cs ih =>
    obtain ⟨p, hp, hread⟩ := exists_pieces_escape c
    obtain ⟨ps, hps, hrest⟩ := ih
    refine ⟨p :: ps, .cons hp hps, fun done rest => ?_⟩
    rw [List.flatMap_cons, List.append_assoc, hread, hrest, List.reverse_cons, List.append_assoc]
    rfl

/-- A control character is neither a surrogate nor without a text. -/
theorem join_cons {p : Piece} {c : Char} (h : p.Stands c) (done : List Char) (ps : List Piece) :
    join done (p :: ps) = join (c :: done) ps := by
  rcases h with rfl | ⟨rfl, hlt⟩
  · rfl
  · have hscalar : Text.scalar? c.toNat = some c := by
      rw [Text.scalar?, if_pos (.inl (by omega)), Char.ofNat_toNat]
    have hpair : ∀ m, Text.ofSurrogates? c.toNat m = none := fun m =>
      if_neg fun hhigh => by omega
    cases ps with
    | nil => rw [join.eq_4 _ _ _ (by rintro _ _ ⟨⟩), hscalar]
    | cons q qs =>
      cases q with
      | char d => rw [join.eq_4 _ _ _ (by rintro _ _ ⟨⟩), hscalar]
      | unit m => rw [join.eq_3, hpair, hscalar]

theorem join_of_stands {ps : List Piece} {cs : List Char} (h : List.Forall₂ Piece.Stands ps cs)
    (done : List Char) : join done ps = some (done.reverse ++ cs) := by
  induction h generalizing done with
  | nil => rw [join, List.append_nil]
  | @cons p c ps cs hp _ ih =>
    rw [join_cons hp, ih, List.reverse_cons, List.append_assoc]
    rfl

/-- The literal of a text is read as the pieces of just this text. -/
theorem exists_pieces_encode (cs : List Char) :
    ∃ ps, join [] ps = some cs ∧
      ∀ rest, pieces [] (cs.flatMap escape ++ '"' :: rest) = some (ps, rest) := by
  obtain ⟨ps, hps, hread⟩ := exists_pieces_flatMap cs
  refine ⟨ps, join_of_stands hps [], fun rest => ?_⟩
  rw [hread, List.append_nil, pieces, List.reverse_reverse]

end AntRegister.Json.Quoted
