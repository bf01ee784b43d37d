import AntRegister.Text.Blank
import Mathlib.Data.List.DropRight
/-! What is left of a text when it is trimmed: a part of it that has no blank at either end. -/

namespace AntRegister.Text

theorem trimEnd_eq_rdropWhile (cs : List Char) : trimEnd cs = cs.rdropWhile isBlank := rfl

theorem trimChars_infix (cs : List Char) : trimChars cs <:+: cs :=
  (List.rdropWhile_prefix isBlank (trimStart cs)).isInfix.trans
    (List.dropWhile_suffix isBlank).isInfix

theorem isBlank_of_trimStart_eq_cons {cs rest : List Char} {c : Char}
    (h : trimStart cs = c :: rest) : isBlank c = false := by
  have hfirst := List.head?_dropWhile_not isBlank cs
  rw [← trimStart, h] at hfirst
  exact hfirst

theorem trimChars_eq_nil_iff {cs : List Char} :
    trimChars cs = [] ↔ ∀ c ∈ cs, isBlank c = true := by
  rw [trimChars, trimEnd_eq_rdropWhile, List.rdropWhile_eq_nil_iff]
  constructor
  · intro h
    cases hstart : trimStart cs with
    | nil => exact List.dropWhile_eq_nil_iff.mp hstart
    | cons first rest =>
      have hfirst := h first (hstart ▸ List.mem_cons_self)
      rw [isBlank_of_trimStart_eq_cons hstart] at hfirst
      cases hfirst
  · intro h c hc
    exact h c ((List.dropWhile_suffix isBlank).subset hc)

theorem trimStart_trimEnd {cs : List Char} (h : trimStart cs = cs) :
    trimStart (trimEnd cs) = trimEnd cs := by
  obtain ⟨rest, hrest⟩ := List.rdropWhile_prefix isBlank cs
  rw [← trimEnd_eq_rdropWhile] at hrest
  cases hkept : trimEnd cs with
  | nil => rfl
  | cons c kept =>
    rw [hkept, List.cons_append] at hrest
    have hfirst := isBlank_of_trimStart_eq_cons (h.trans hrest.symm)
    exact List.dropWhile_cons_of_neg (ne_true_of_eq_false hfirst)

theorem trimChars_trimChars (cs : List Char) : trimChars (trimChars cs) = trimChars cs := by
  have hstart : trimStart (trimStart cs) = trimStart cs := List.dropWhile_idempotent isBlank cs
  rw [trimChars, trimChars, trimStart_trimEnd hstart, trimEnd_eq_rdropWhile, trimEnd_eq_rdropWhile,
    List.rdropWhile_idempotent]

end AntRegister.Text
