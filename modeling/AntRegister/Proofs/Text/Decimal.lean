import AntRegister.Text.Decimal
/-! Reading a written number back. -/

namespace AntRegister.Text

theorem digit?_digitChar {n : Nat} (h : n < 10) : digit? n.digitChar = some n := by
  revert n
  decide

theorem valueOf_append (cs : List Char) (c : Char) :
    valueOf (cs ++ [c]) = 10 * valueOf cs + (digit? c).getD 0 := by
  rw [valueOf, List.foldl_append]
  rfl

theorem valueOf_toDigits (n : Nat) : valueOf (Nat.toDigits 10 n) = n := by
  induction n using Nat.strongRecOn with
  | ind n ih =>
    by_cases h : n < 10
    · rw [Nat.toDigits_of_lt_base h, ← List.nil_append [_], valueOf_append, digit?_digitChar h]
      exact Nat.zero_add n
    · have hdiv : n / 10 < n := Nat.div_lt_self (by omega) (by omega)
      rw [Nat.toDigits_of_base_le (by omega) (by omega), valueOf_append, ih _ hdiv,
        digit?_digitChar (Nat.mod_lt n (by omega))]
      exact Nat.div_add_mod n 10

theorem toList_decimal (n : Nat) : (decimal n).toList = Nat.toDigits 10 n := Nat.toList_repr

theorem valueOf_decimal (n : Nat) : valueOf (decimal n).toList = n := by
  rw [toList_decimal, valueOf_toDigits]

theorem decimal_injective : Function.Injective decimal := by
  intro m n h
  rw [← valueOf_decimal m, h, valueOf_decimal]

theorem isDigit_of_mem_decimal {n : Nat} {c : Char} (h : c ∈ (decimal n).toList) :
    c.isDigit = true := by
  rw [toList_decimal] at h
  exact Nat.isDigit_of_mem_toDigits (by omega) (by omega) h

theorem isDigit_eq (c : Char) : isDigit c = c.isDigit := by
  rw [isDigit, digit?]
  by_cases h : '0' ≤ c ∧ c ≤ '9'
  · rw [if_pos h]
    simp [Char.isDigit, Char.le_def] at *
    exact h
  · rw [if_neg h]
    simp [Char.isDigit, Char.le_def] at *
    exact h

/-- Only zero is written with a zero in front. -/
theorem exists_toDigits_eq_cons {n : Nat} (h : 0 < n) :
    ∃ d ds, Nat.toDigits 10 n = d :: ds ∧ d ≠ '0' := by
  induction n using Nat.strongRecOn with
  | ind n ih =>
    by_cases hlt : n < 10
    · refine ⟨n.digitChar, [], Nat.toDigits_of_lt_base hlt, fun hzero => ?_⟩
      have hvalue := digit?_digitChar hlt
      rw [hzero] at hvalue
      exact Nat.ne_of_gt h (Option.some.inj hvalue).symm
    · obtain ⟨d, ds, hds, hd⟩ := ih (n / 10) (by omega) (by omega)
      refine ⟨d, ds ++ [(n % 10).digitChar], ?_, hd⟩
      rw [Nat.toDigits_of_base_le (by omega) (by omega), hds, List.cons_append]

theorem toList_decimal_ne_nil (n : Nat) : (decimal n).toList ≠ [] :=
  toList_decimal n ▸ Nat.toDigits_ne_nil

theorem exists_decimalInt_eq_cons (i : Int) :
    ∃ c cs, (decimalInt i).toList = c :: cs ∧ (c = '-' ∨ c.isDigit = true) := by
  unfold decimalInt
  split
  · exact ⟨'-', _, String.toList_append, .inl rfl⟩
  · obtain ⟨c, cs, hcs⟩ := List.exists_cons_of_ne_nil (toList_decimal_ne_nil i.natAbs)
    exact ⟨c, cs, hcs, .inr (isDigit_of_mem_decimal (hcs ▸ List.mem_cons_self))⟩

theorem le_toNat_of_mem_decimalInt {i : Int} {c : Char} (h : c ∈ (decimalInt i).toList) :
    32 ≤ c.toNat := by
  have hdigits : ∀ d ∈ (decimal i.natAbs).toList, 32 ≤ d.toNat := by
    intro d hd
    have hdigit := isDigit_of_mem_decimal hd
    simp [Char.isDigit, UInt32.le_iff_toNat_le] at hdigit
    exact Nat.le_trans (by decide) hdigit.1
  unfold decimalInt at h
  split at h
  · rw [String.toList_append, List.mem_append] at h
    rcases h with h | h
    · rw [List.mem_singleton.mp h]
      decide
    · exact hdigits c h
  · exact hdigits c h

end AntRegister.Text
