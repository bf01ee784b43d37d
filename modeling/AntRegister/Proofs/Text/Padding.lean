import AntRegister.Proofs.Text.Decimal
import Mathlib.Data.String.Basic
import Mathlib.Data.List.Lex
/-! Numerals with zeros in front. They are different for different numbers, and those of one width
are in the order of the numbers. -/

namespace AntRegister.Text

theorem toList_padded (width n : Nat) : (padded width n).toList =
    List.replicate (width - (Nat.toDigits 10 n).length) '0' ++ Nat.toDigits 10 n := by
  rw [padded, String.toList_ofList, toList_decimal]

theorem valueOf_zeros_append (k : Nat) (ds : List Char) :
    valueOf (List.replicate k '0' ++ ds) = valueOf ds := by
  induction k with
  | zero => rfl
  | succ k ih => exact ih

theorem valueOf_padded (width n : Nat) : valueOf (padded width n).toList = n := by
  rw [toList_padded, valueOf_zeros_append, valueOf_toDigits]

theorem padded_injective (width : Nat) : Function.Injective (padded width) := by
  intro m n h
  rw [← valueOf_padded width m, h, valueOf_padded]

/-- What is no digit counts as zero, so in front it changes nothing. -/
theorem valueOf_append_padded {sign : String} (h : valueOf sign.toList = 0) (width n : Nat) :
    valueOf (sign ++ padded width n).toList = n := by
  rw [String.toList_append, valueOf, List.foldl_append]
  change List.foldl _ (valueOf sign.toList) _ = n
  rw [h]
  exact valueOf_padded width n

theorem isDigit_of_mem_padded {width n : Nat} {c : Char} (h : c ∈ (padded width n).toList) :
    c.isDigit = true := by
  rw [toList_padded, ← toList_decimal] at h
  rcases List.mem_append.mp h with h | h
  · obtain rfl := List.eq_of_mem_replicate h
    rfl
  · exact isDigit_of_mem_decimal h

/-- The last digit stands behind the padded numeral of the others. -/
theorem toList_padded_succ (width n : Nat) :
    (padded (width + 2) n).toList =
      (padded (width + 1) (n / 10)).toList ++ [(n % 10).digitChar] := by
  rw [toList_padded, toList_padded]
  rcases Nat.lt_or_ge n 10 with h | h
  · have hzeros : List.replicate (width + 1) '0' = List.replicate width '0' ++ ['0'] :=
      List.replicate_succ'
    rw [Nat.div_eq_of_lt h, Nat.mod_eq_of_lt h, Nat.toDigits_of_lt_base h, Nat.toDigits_zero]
    exact congrArg (· ++ [n.digitChar]) hzeros
  · have hzeros : width + 2 - ((Nat.toDigits 10 (n / 10)).length + 1) =
        width + 1 - (Nat.toDigits 10 (n / 10)).length := by omega
    rw [Nat.toDigits_of_base_le (by omega) h, List.length_append, List.length_singleton, hzeros,
      List.append_assoc]

theorem toList_padded_one {n : Nat} (h : n < 10) : (padded 1 n).toList = [n.digitChar] := by
  rw [toList_padded, Nat.toDigits_of_lt_base h]
  rfl

theorem length_padded {width n : Nat} (h : n < 10 ^ (width + 1)) :
    (padded (width + 1) n).toList.length = width + 1 := by
  induction width generalizing n with
  | zero => rw [toList_padded_one h, List.length_singleton]
  | succ width ih =>
    rw [toList_padded_succ, List.length_append, ih (by omega), List.length_singleton]

theorem append_lt_append_iff {a b c d : List Char} (h : a.length = c.length) :
    a ++ b < c ++ d ↔ a < c ∨ a = c ∧ b < d := by
  induction a generalizing c with
  | nil =>
    obtain rfl := List.length_eq_zero_iff.mp h.symm
    simp
  | cons x a ih =>
    cases c with
    | nil => exact absurd h (Nat.succ_ne_zero _)
    | cons y c =>
      rw [List.cons_append, List.cons_append, List.cons_lt_cons_iff, List.cons_lt_cons_iff,
        ih (Nat.succ.inj h), List.cons.injEq]
      tauto

theorem digit_lt_iff {m n : Nat} (hm : m < 10) (hn : n < 10) :
    [m.digitChar] < [n.digitChar] ↔ m < n := by
  have hchars : m.digitChar < n.digitChar ↔ m < n := by
    rw [Char.lt_def, UInt32.lt_iff_toNat_lt]
    change m.digitChar.toNat < n.digitChar.toNat ↔ m < n
    rw [Nat.toNat_digitChar_of_lt_ten hm, Nat.toNat_digitChar_of_lt_ten hn]
    exact Nat.add_lt_add_iff_left
  rw [List.cons_lt_cons_iff, hchars]
  simp

theorem padded_lt_iff {width m n : Nat} (hm : m < 10 ^ (width + 1)) (hn : n < 10 ^ (width + 1)) :
    (padded (width + 1) m).toList < (padded (width + 1) n).toList ↔ m < n := by
  -- Tens are compared first, and the last digits only if these are the same.
  induction width generalizing m n with
  | zero => rw [toList_padded_one hm, toList_padded_one hn, digit_lt_iff hm hn]
  | succ width ih =>
    have hm' : m / 10 < 10 ^ (width + 1) := by omega
    have hn' : n / 10 < 10 ^ (width + 1) := by omega
    rw [toList_padded_succ, toList_padded_succ,
      append_lt_append_iff ((length_padded hm').trans (length_padded hn').symm), ih hm' hn',
      digit_lt_iff (by omega) (by omega), String.toList_inj, (padded_injective _).eq_iff]
    omega

section

variable {width m n : Nat} {x y : List Char}

theorem padded_append_inj (hm : m < 10 ^ (width + 1)) (hn : n < 10 ^ (width + 1))
    (h : (padded (width + 1) m).toList ++ x = (padded (width + 1) n).toList ++ y) :
    m = n ∧ x = y := by
  obtain ⟨hpadded, hrest⟩ := List.append_inj h ((length_padded hm).trans (length_padded hn).symm)
  exact ⟨padded_injective _ (String.toList_inj.mp hpadded), hrest⟩

theorem padded_append_lt_iff (hm : m < 10 ^ (width + 1)) (hn : n < 10 ^ (width + 1)) :
    (padded (width + 1) m).toList ++ x < (padded (width + 1) n).toList ++ y ↔
      m < n ∨ m = n ∧ x < y := by
  rw [append_lt_append_iff ((length_padded hm).trans (length_padded hn).symm), padded_lt_iff hm hn,
    String.toList_inj, (padded_injective _).eq_iff]

end

end AntRegister.Text
