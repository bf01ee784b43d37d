import AntRegister.Calendar.Instant
import AntRegister.Proofs.Calendar.DayCount
import Mathlib.Data.Prod.Lex
/-! The order of instants in time. Minutes are counted without a gap; what comes after the minute
are the second in it, which is 60 for a leap second, and the fraction of the second. -/

namespace AntRegister.Calendar.Instant

/-- The minutes since the beginning of the day before the year 1. -/
def minutes (i : Instant) : Int := 1440 * i.date.dayCount + 60 * i.hour + i.minute

/-- The second of UTC that an instant is in. A leap second is one of its own, the last of its
minute. -/
def wholeSecond (i : Instant) : Int ×ₗ Nat := toLex (i.minutes, i.second)

def time (i : Instant) : (Int ×ₗ Nat) ×ₗ Nat := toLex (i.wholeSecond, i.nano)

theorem dayCount_of_shiftDate? {d e : Date} {days : Int} (h : shiftDate? d days = some e)
    (hdays : -1 ≤ days ∧ days ≤ 1) : e.dayCount = d.dayCount + days := by
  unfold shiftDate? at h
  split_ifs at h with hback hforth
  · rw [Date.dayCount_of_previous? h]
    omega
  · rw [Date.dayCount_of_next? h]
    omega
  · obtain rfl := Option.some.inj h
    omega

theorem of?_eq_some {date : Date} {hour minute second nano : Nat} {i : Instant}
    (h : of? date hour minute second nano = some i) : i.date = date ∧ i.hour = hour ∧
      i.minute = minute ∧ i.second = second ∧ i.nano = nano := by
  unfold of? at h
  split_ifs at h
  obtain rfl := Option.some.inj h
  exact ⟨rfl, rfl, rfl, rfl, rfl⟩

/-- A clock that is ahead of UTC is turned back, by whole minutes. -/
theorem minutes_of_atOffset? {shown i : Instant} {offset : Int}
    (h : shown.atOffset? offset = some i) :
    i.minutes = shown.minutes - offset ∧ i.second = shown.second ∧ i.nano = shown.nano := by
  have hhour := shown.hour_ok
  have hminute := shown.minute_ok
  unfold atOffset? at h
  simp only [Option.bind_eq_bind, Option.bind_eq_some_iff, Option.guard_eq_some'] at h
  obtain ⟨-, hoffset, date, hdate, hinstant⟩ := h
  obtain ⟨rfl, hh, hm, hs, hn⟩ := of?_eq_some hinstant
  have hcount := dayCount_of_shiftDate? hdate (by omega)
  refine ⟨?_, hs, hn⟩
  rw [minutes, minutes, hh, hm, hcount]
  omega

theorem minutes_lt_iff (a b : Instant) : a.minutes < b.minutes ↔
    a.date < b.date ∨ a.date = b.date ∧
      (a.hour < b.hour ∨ a.hour = b.hour ∧ a.minute < b.minute) := by
  have ha := a.hour_ok
  have ha' := a.minute_ok
  have hb := b.hour_ok
  have hb' := b.minute_ok
  rw [minutes, minutes, ← Date.dayCount_strictMono.lt_iff_lt,
    ← Date.dayCount_strictMono.injective.eq_iff]
  omega

theorem minutes_eq_iff (a b : Instant) : a.minutes = b.minutes ↔
    a.date = b.date ∧ a.hour = b.hour ∧ a.minute = b.minute := by
  have ha := a.hour_ok
  have ha' := a.minute_ok
  have hb := b.hour_ok
  have hb' := b.minute_ok
  rw [minutes, minutes, ← Date.dayCount_strictMono.injective.eq_iff]
  omega

theorem wholeSecond_eq_iff (a b : Instant) : a.wholeSecond = b.wholeSecond ↔
    a.minutes = b.minutes ∧ a.second = b.second := by
  rw [wholeSecond, wholeSecond, toLex_inj, Prod.mk.injEq]

theorem wholeSecond_lt_iff (a b : Instant) : a.wholeSecond < b.wholeSecond ↔
    a.minutes < b.minutes ∨ a.minutes = b.minutes ∧ a.second < b.second :=
  Prod.Lex.toLex_lt_toLex

theorem time_injective : Function.Injective time := by
  intro a b h
  obtain ⟨hsecond, hnano⟩ := Prod.mk.inj (toLex_inj.mp h)
  obtain ⟨hminutes, hseconds⟩ := (wholeSecond_eq_iff a b).mp hsecond
  obtain ⟨hdate, hhour, hminute⟩ := (minutes_eq_iff a b).mp hminutes
  cases a
  cases b
  exact (mk.injEq ..).mpr ⟨hdate, hhour, hminute, hseconds, hnano⟩

instance : LinearOrder Instant := LinearOrder.lift' time time_injective

theorem wholeSecond_mono : Monotone wholeSecond := fun _ _ h =>
  Prod.Lex.monotone_fst _ _ h

end AntRegister.Calendar.Instant
