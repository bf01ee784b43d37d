import AntRegister.ContentHash
import AntRegister.Proofs.Text.Units
import Mathlib.Algebra.BigOperators.Fin
import Mathlib.Data.Nat.ModEq
import Mathlib.Tactic.Ring
/-! The content hash is a polynomial. Its words may be taken as signed ones too, since signed and
unsigned words shift, add and subtract alike. -/

namespace AntRegister

/-- One step of the hash on words with a sign. -/
def signedStep (h : Int32) (u : UInt16) : Int32 := (h <<< 5) - h + u.toUInt32.toInt32

def signedHash (content : String) : Int32 := (Text.units content).foldl signedStep 0

/-- The polynomial in 31 that has the units for coefficients, the first one as the leading one. -/
def unitPolynomial (us : List UInt16) : Nat :=
  ∑ k : Fin us.length, us[k].toNat * 31 ^ (us.length - 1 - k)

theorem toUInt32_signedStep (h : Int32) (u : UInt16) :
    (signedStep h u).toUInt32 = hashStep h.toUInt32 u := rfl

theorem toUInt32_foldl_signedStep (us : List UInt16) (h : Int32) :
    (us.foldl signedStep h).toUInt32 = us.foldl hashStep h.toUInt32 := by
  induction us generalizing h with
  | nil => rfl
  | cons u us ih => rw [List.foldl_cons, List.foldl_cons, ih, toUInt32_signedStep]

theorem toUInt32_signedHash (content : String) :
    (signedHash content).toUInt32 = hashWord content := toUInt32_foldl_signedStep _ 0

theorem unitPolynomial_cons (u : UInt16) (us : List UInt16) :
    unitPolynomial (u :: us) = u.toNat * 31 ^ us.length + unitPolynomial us := by
  have htail : ∀ k : Fin us.length,
      (u :: us).length - 1 - (k.succ : Nat) = us.length - 1 - (k : Nat) := by
    intro k
    rw [List.length_cons, Fin.val_succ]
    omega
  rw [unitPolynomial, unitPolynomial]
  refine (Fin.sum_univ_succ _).trans ?_
  simp only [htail]
  rfl

/-- Each unit that follows multiplies what was read before by 31. -/
theorem toNat_foldl_hashStep (h : UInt32) (us : List UInt16) :
    (us.foldl hashStep h).toNat = (h.toNat * 31 ^ us.length + unitPolynomial us) % 2 ^ 32 := by
  induction us generalizing h with
  | nil =>
    have hlt : h.toNat < 2 ^ 32 := h.toNat_lt
    rw [List.length_nil, pow_zero, Nat.mul_one]
    exact (Nat.mod_eq_of_lt hlt).symm
  | cons u us ih =>
    have hstep : (hashStep h u).toNat ≡ 31 * h.toNat + u.toNat [MOD 2 ^ 32] := by
      rw [toNat_hashStep]
      exact Nat.mod_modEq _ _
    have hsum : (31 * h.toNat + u.toNat) * 31 ^ us.length + unitPolynomial us =
        h.toNat * 31 ^ (u :: us).length + unitPolynomial (u :: us) := by
      rw [unitPolynomial_cons, List.length_cons, pow_succ]
      ring
    rw [List.foldl_cons, ih, ← hsum]
    exact (hstep.mul_right _).add_right _

/-- The hash of a text is the value of the polynomial of its UTF-16 units, first modulo `2 ^ 32`,
as signed words have it as well, then modulo `2 ^ 31 - 1`. -/
theorem contentHash_eq_polynomial (content : String) :
    let us := Text.units content
    let value := ∑ k : Fin us.length, us[k].toNat * 31 ^ (us.length - 1 - k)
    contentHash content = value % 2 ^ 32 % (2 ^ 31 - 1) ∧
      (signedHash content).toUInt32.toNat = value % 2 ^ 32 ∧
      contentHash content = (signedHash content).toUInt32.toNat % (2 ^ 31 - 1) ∧
      contentHash content ≤ 2 ^ 31 - 2 ∧
      Text.readUnits? us = some content.toList ∧
      us.length = content.length + content.toList.countP fun c => 0xFFFF < c.toNat := by
  intro us value
  have hword : (hashWord content).toNat = value % 2 ^ 32 := by
    rw [hashWord, toNat_foldl_hashStep, UInt32.toNat_zero, Nat.zero_mul, Nat.zero_add]
    rfl
  have hlt := contentHash_lt content
  have hmodulus : hashModulus = 2 ^ 31 - 1 := rfl
  have hsigned := toUInt32_signedHash content
  refine ⟨?_, ?_, ?_, by omega, Text.readUnits?_units content, Text.length_units content⟩
  · rw [← hword]
    rfl
  · rw [hsigned, hword]
  · rw [hsigned]
    rfl

end AntRegister
