import AntRegister.Text.Units
/-! The units of a text are its UTF-16: a reader of UTF-16 finds the text in them. -/

namespace AntRegister.Text

/-- The text that units stand for. A surrogate that is not part of a pair stands for nothing. -/
def readUnits? : List UInt16 → Option (List Char)
  | [] => some []
  | [u] => (scalar? u.toNat).map ([·])
  | high :: low :: us =>
    match ofSurrogates? high.toNat low.toNat with
    | some c => (readUnits? us).map (c :: ·)
    | none => (scalar? high.toNat).bind fun c => (readUnits? (low :: us)).map (c :: ·)

theorem toNat_cases (c : Char) : c.toNat < 0xD800 ∨ (0xDFFF < c.toNat ∧ c.toNat < 0x110000) :=
  c.valid

theorem scalar?_toNat (c : Char) : scalar? c.toNat = some c := by
  rw [scalar?, if_pos (toNat_cases c), Char.ofNat_toNat]

theorem unitsOf_of_lt {c : Char} (h : c.toNat < 0x10000) : unitsOf c = [c.toNat.toUInt16] :=
  if_pos h

theorem unitsOf_of_le {c : Char} (h : 0x10000 ≤ c.toNat) :
    unitsOf c = [(0xD800 + (c.toNat - 0x10000) / 0x400).toUInt16,
      (0xDC00 + (c.toNat - 0x10000) % 0x400).toUInt16] := if_neg (Nat.not_lt.mpr h)

theorem toNat_toUInt16 {n : Nat} (h : n < 0x10000) : n.toUInt16.toNat = n := by
  rw [Nat.toUInt16_eq, UInt16.toNat_ofNat']
  exact Nat.mod_eq_of_lt h

theorem readUnits?_single {c : Char} (h : c.toNat < 0x10000) (us : List UInt16) :
    readUnits? (c.toNat.toUInt16 :: us) = (readUnits? us).map (c :: ·) := by
  have hunit := toNat_toUInt16 h
  cases us with
  | nil =>
    rw [readUnits?.eq_2, hunit, scalar?_toNat]
    rfl
  | cons low us =>
    -- A character is no surrogate, so it begins no pair.
    have hpair : ofSurrogates? c.toNat low.toNat = none := by
      rw [ofSurrogates?, if_neg]
      have := toNat_cases c
      omega
    rw [readUnits?, hunit, hpair, scalar?_toNat]
    rfl

theorem readUnits?_pair {c : Char} (h : 0x10000 ≤ c.toNat) (us : List UInt16) :
    readUnits? (unitsOf c ++ us) = (readUnits? us).map (c :: ·) := by
  have hlt : c.toNat < 0x110000 := by
    have := toNat_cases c
    omega
  have hpair : ofSurrogates? (0xD800 + (c.toNat - 0x10000) / 0x400)
      (0xDC00 + (c.toNat - 0x10000) % 0x400) = some c := by
    have hback : 0x10000 + (0xD800 + (c.toNat - 0x10000) / 0x400 - 0xD800) * 0x400 +
        (0xDC00 + (c.toNat - 0x10000) % 0x400 - 0xDC00) = c.toNat := by omega
    rw [ofSurrogates?, if_pos (by omega), hback, Char.ofNat_toNat]
  rw [unitsOf_of_le h, List.cons_append, List.singleton_append, readUnits?,
    toNat_toUInt16 (by omega), toNat_toUInt16 (by omega), hpair]

theorem readUnits?_unitsOf_append (c : Char) (us : List UInt16) :
    readUnits? (unitsOf c ++ us) = (readUnits? us).map (c :: ·) := by
  rcases Nat.lt_or_ge c.toNat 0x10000 with h | h
  · rw [unitsOf_of_lt h]
    exact readUnits?_single h us
  · exact readUnits?_pair h us

theorem readUnits?_units (s : String) : readUnits? (units s) = some s.toList := by
  rw [units]
  induction s.toList with
  | nil => rfl
  | cons c cs ih => rw [List.flatMap_cons, readUnits?_unitsOf_append, ih, Option.map_some]

theorem length_unitsOf (c : Char) : (unitsOf c).length = if 0xFFFF < c.toNat then 2 else 1 := by
  rcases Nat.lt_or_ge c.toNat 0x10000 with h | h
  · rw [unitsOf_of_lt h, if_neg (by omega)]
    rfl
  · rw [unitsOf_of_le h, if_pos (by omega)]
    rfl

theorem length_units (s : String) :
    (units s).length = s.length + s.toList.countP fun c => 0xFFFF < c.toNat := by
  rw [units, ← String.length_toList]
  induction s.toList with
  | nil => rfl
  | cons c cs ih =>
    rw [List.flatMap_cons, List.length_append, ih, length_unitsOf, List.length_cons,
      List.countP_cons]
    simp only [decide_eq_true_eq]
    split <;> omega

end AntRegister.Text
