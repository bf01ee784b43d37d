import AntRegister.Proofs.Calendar.Order
import Mathlib.Algebra.BigOperators.Intervals
import Mathlib.Algebra.Order.BigOperators.Group.Finset
import Mathlib.Data.Int.ConditionallyCompleteOrder
import Mathlib.Order.SuccPred.IntervalSucc
/-! Counting days from the beginning of the year 1. The count goes up by one from a date to the next
one, so it orders dates as the calendar does. -/

namespace AntRegister.Calendar

/-- The days of all years before a year, negative for the years before the first. -/
def daysBeforeYear (year : Int) : Int :=
  365 * (year - 1) + (year - 1) / 4 - (year - 1) / 100 + (year - 1) / 400

def daysBeforeMonth (year : Int) (month : Nat) : Nat :=
  ∑ m ∈ Finset.Ico 1 month, monthLength year m

def yearLength (year : Int) : Nat := if isLeap year then 366 else 365

def Date.dayCount (d : Date) : Int := daysBeforeYear d.year + daysBeforeMonth d.year d.month + d.day

theorem daysBeforeYear_succ (year : Int) :
    daysBeforeYear (year + 1) = daysBeforeYear year + yearLength year := by
  unfold daysBeforeYear yearLength isLeap
  simp only [Bool.and_eq_true, Bool.or_eq_true, beq_iff_eq, bne_iff_ne, ne_eq]
  split <;> omega

theorem daysBeforeYear_mono : Monotone daysBeforeYear := by
  refine monotone_int_of_le_succ fun year => ?_
  rw [daysBeforeYear_succ]
  omega

theorem daysBeforeMonth_succ (year : Int) {month : Nat} (h : 1 ≤ month) :
    daysBeforeMonth year (month + 1) = daysBeforeMonth year month + monthLength year month :=
  Finset.sum_Ico_succ_top h _

theorem daysBeforeMonth_mono (year : Int) : Monotone (daysBeforeMonth year) := fun _ _ h =>
  Finset.sum_le_sum_of_subset (Finset.Ico_subset_Ico_right h)

theorem daysBeforeMonth_thirteen (year : Int) : daysBeforeMonth year 13 = yearLength year := by
  unfold daysBeforeMonth yearLength monthLength
  cases isLeap year <;> rfl

namespace Date

theorem of?_eq_some {year : Int} {month day : Nat} {d : Date} (h : of? year month day = some d) :
    d.year = year ∧ d.month = month ∧ d.day = day := by
  unfold of? at h
  split_ifs at h
  obtain rfl := Option.some.inj h
  exact ⟨rfl, rfl, rfl⟩

theorem dayCount_of_next? {d e : Date} (h : d.next? = some e) : e.dayCount = d.dayCount + 1 := by
  have hd := d.bounds
  have hday := d.day_ok
  unfold next? at h
  split_ifs at h with hsame hmonth <;> obtain ⟨hy, hm, hd'⟩ := of?_eq_some h <;>
    rw [dayCount, dayCount, hy, hm, hd']
  · omega
  · rw [daysBeforeMonth_succ d.year hd.2.1.1]
    omega
  · -- the last day of December
    have hlast := daysBeforeMonth_succ d.year hd.2.1.1
    have htwelve : d.month + 1 = 13 := by omega
    rw [htwelve, daysBeforeMonth_thirteen] at hlast
    have hfirst : daysBeforeMonth (d.year + 1) 1 = 0 := rfl
    rw [daysBeforeYear_succ, hfirst]
    omega

theorem dayCount_of_previous? {d e : Date} (h : d.previous? = some e) :
    e.dayCount = d.dayCount - 1 := by
  have hd := d.bounds
  unfold previous? at h
  split_ifs at h with hsame hmonth <;> obtain ⟨hy, hm, hd'⟩ := of?_eq_some h <;>
    rw [dayCount, dayCount, hy, hm, hd']
  · omega
  · have hprevious := daysBeforeMonth_succ d.year (Nat.le_sub_one_of_lt hmonth)
    rw [Nat.sub_add_cancel hd.2.1.1] at hprevious
    omega
  · -- the first day of January
    have hone : d.month = 1 := by omega
    have hfirst : daysBeforeMonth d.year 1 = 0 := rfl
    have hlast := daysBeforeMonth_succ (d.year - 1) (Nat.le_of_ble_eq_true rfl : 1 ≤ 12)
    have hdecember : monthLength (d.year - 1) 12 = 31 := rfl
    have hyear := daysBeforeYear_succ (d.year - 1)
    rw [daysBeforeMonth_thirteen] at hlast
    rw [Int.sub_add_cancel] at hyear
    rw [hone, hfirst]
    omega

theorem dayCount_bounds (d : Date) :
    daysBeforeYear d.year < d.dayCount ∧ d.dayCount ≤ daysBeforeYear (d.year + 1) := by
  have hd := d.bounds
  have hday := d.day_ok
  have hmonth := daysBeforeMonth_succ d.year hd.2.1.1
  have hyear : daysBeforeMonth d.year (d.month + 1) ≤ daysBeforeMonth d.year 13 :=
    daysBeforeMonth_mono d.year (by omega)
  rw [daysBeforeMonth_thirteen] at hyear
  rw [dayCount, daysBeforeYear_succ]
  omega

theorem lt_iff_parts (a b : Date) : a < b ↔
    a.year < b.year ∨ a.year = b.year ∧
      (a.month < b.month ∨ a.month = b.month ∧ a.day < b.day) := by
  have ha := a.bounds
  have hb := b.bounds
  rw [← not_le, ← le_iff, le_iff_position]
  unfold position firstYear
  omega

theorem dayCount_strictMono : StrictMono dayCount := by
  intro a b h
  have ha := a.bounds
  have hday := a.day_ok
  rcases (lt_iff_parts a b).mp h with hyear | ⟨hyear, hmonth | ⟨hmonth, hdays⟩⟩
  · calc a.dayCount ≤ daysBeforeYear (a.year + 1) := a.dayCount_bounds.2
      _ ≤ daysBeforeYear b.year := daysBeforeYear_mono hyear
      _ < b.dayCount := b.dayCount_bounds.1
  · have hfull := daysBeforeMonth_succ a.year ha.2.1.1
    have hmono : daysBeforeMonth a.year (a.month + 1) ≤ daysBeforeMonth a.year b.month :=
      daysBeforeMonth_mono a.year hmonth
    have hb := b.bounds
    rw [dayCount, dayCount, ← hyear]
    omega
  · rw [dayCount, dayCount, ← hyear, ← hmonth]
    omega

end Date

end AntRegister.Calendar
