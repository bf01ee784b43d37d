import AntRegister.Calendar.Date
import Mathlib.Data.Finset.Card
/-! The calendar order is a linear one on finitely many dates. Both follow from the position of a
date in a calendar whose months all have 31 days. -/

namespace AntRegister.Calendar

theorem monthLength_le (year : Int) (month : Nat) : monthLength year month ≤ 31 := by
  unfold monthLength
  split
  · split <;> decide
  all_goals decide

namespace Date

/-- The number of days before a date if no month is shorter than 31 days. -/
def position (d : Date) : Nat := 372 * (d.year - firstYear).toNat + 31 * (d.month - 1) + (d.day - 1)

theorem bounds (d : Date) : (-262143 ≤ d.year ∧ d.year ≤ 262142) ∧
    (1 ≤ d.month ∧ d.month ≤ 12) ∧ 1 ≤ d.day ∧ d.day ≤ 31 :=
  ⟨d.year_ok, d.month_ok, d.day_ok.1, d.day_ok.2.trans (monthLength_le d.year d.month)⟩

theorem position_injective : Function.Injective position := by
  intro a b h
  have ha := a.bounds
  have hb := b.bounds
  unfold position firstYear at h
  have hparts : a.year = b.year ∧ a.month = b.month ∧ a.day = b.day := by omega
  cases a
  cases b
  simpa only [mk.injEq] using hparts

theorem le_iff_position (a b : Date) : a.le b = true ↔ a.position ≤ b.position := by
  have ha := a.bounds
  have hb := b.bounds
  unfold Date.le
  simp only [Bool.or_eq_true, Bool.and_eq_true, decide_eq_true_eq, beq_iff_eq]
  unfold position firstYear
  omega

instance : LinearOrder Date where
  le a b := a.le b = true
  le_refl a := (le_iff_position a a).mpr le_rfl
  le_trans a b c := by
    simp only [le_iff_position]
    exact Nat.le_trans
  le_antisymm a b := by
    simp only [le_iff_position]
    exact fun h h' => position_injective (Nat.le_antisymm h h')
  le_total a b := by
    simp only [le_iff_position]
    exact Nat.le_total _ _
  toDecidableLE a b := inferInstanceAs (Decidable (a.le b = true))
  toDecidableEq := instDecidableEqDate

theorem le_iff (a b : Date) : a.le b = true ↔ a ≤ b := Iff.rfl

theorem position_lt (d : Date) : d.position < 195034392 := by
  have hd := d.bounds
  unfold position firstYear
  omega

/-- There are far fewer dates than 32-bit numbers. -/
theorem card_le (days : Finset Date) : days.card ≤ 195034392 := by
  have hmaps : ∀ d ∈ days, d.position ∈ Finset.range 195034392 := fun d _ =>
    Finset.mem_range.mpr d.position_lt
  have hcard := Finset.card_le_card_of_injOn position hmaps (position_injective.injOn)
  rwa [Finset.card_range] at hcard

end Date

end AntRegister.Calendar
