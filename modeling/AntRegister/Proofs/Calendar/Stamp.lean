import AntRegister.Proofs.Calendar.Timeline
import AntRegister.Proofs.Release.Ranking
import AntRegister.Proofs.Text.Padding
/-! The text that scripts have for an instant. All of its parts but the year have two digits, so the
text can be taken apart from its end, and up to the year 9999 it is in the order of time. -/

namespace AntRegister.Calendar

open Text (padded)

/-- What stands in front of the digits of a year. -/
def yearSign (year : Int) : String :=
  if 0 ≤ year ∧ year ≤ 9999 then "" else if year < 0 then "-" else "+"

theorem yearText_eq (year : Int) : yearText year = yearSign year ++ padded 4 year.natAbs := by
  unfold yearText yearSign
  split
  · exact String.empty_append.symm
  · rfl

theorem yearText_of_range {year : Int} (h : 0 ≤ year ∧ year ≤ 9999) :
    yearText year = padded 4 year.natAbs := if_pos h

theorem valueOf_yearText (year : Int) : Text.valueOf (yearText year).toList = year.natAbs := by
  have hsign : Text.valueOf (yearSign year).toList = 0 := by
    unfold yearSign
    split_ifs <;> decide
  rw [yearText_eq]
  exact Text.valueOf_append_padded hsign 4 _

theorem notMem_padded {c : Char} (hc : c.isDigit = false) (width n : Nat) :
    c ∉ (padded width n).toList := fun h =>
  absurd (Text.isDigit_of_mem_padded h) (Bool.eq_false_iff.mp hc)

theorem mem_yearText_iff {c : Char} (hc : c.isDigit = false) (year : Int) :
    c ∈ (yearText year).toList ↔ c ∈ (yearSign year).toList := by
  rw [yearText_eq, String.toList_append, List.mem_append]
  exact or_iff_left (notMem_padded hc 4 _)

theorem hyphen_mem_yearText_iff (year : Int) : '-' ∈ (yearText year).toList ↔ year < 0 := by
  rw [mem_yearText_iff (by decide), yearSign]
  split_ifs with hrange hneg
  · exact iff_of_false (by decide) (by omega)
  · exact iff_of_true (by decide) hneg
  · exact iff_of_false (by decide) hneg

theorem blank_notMem_yearText (year : Int) : ' ' ∉ (yearText year).toList := by
  rw [mem_yearText_iff (by decide), yearSign]
  split_ifs <;> decide

theorem yearText_injective : Function.Injective yearText := by
  intro y z h
  have hvalue : y.natAbs = z.natAbs := by rw [← valueOf_yearText, h, valueOf_yearText]
  have hsign : y < 0 ↔ z < 0 := by
    rw [← hyphen_mem_yearText_iff, h, hyphen_mem_yearText_iff]
  omega

namespace Date

theorem toList_text (d : Date) : d.text.toList =
    (yearText d.year).toList ++ '-' :: ((padded 2 d.month).toList ++
      '-' :: (padded 2 d.day).toList) := by
  have hhyphen : "-".toList = ['-'] := rfl
  simp only [text, String.toList_append, hhyphen, List.append_assoc, List.cons_append,
    List.nil_append]

theorem two_digits (d : Date) : d.month < 10 ^ 2 ∧ d.day < 10 ^ 2 := by
  have hd := d.bounds
  omega

theorem eq_iff_parts (a b : Date) :
    a = b ↔ a.year = b.year ∧ a.month = b.month ∧ a.day = b.day := by
  cases a
  cases b
  exact (mk.injEq ..).to_iff

theorem text_injective : Function.Injective text := by
  intro a b h
  obtain ⟨ham, had⟩ := a.two_digits
  obtain ⟨hbm, hbd⟩ := b.two_digits
  have hchars := congrArg String.toList h
  rw [toList_text, toList_text] at hchars
  have hlength : ('-' :: ((padded 2 a.month).toList ++ '-' :: (padded 2 a.day).toList)).length =
      ('-' :: ((padded 2 b.month).toList ++ '-' :: (padded 2 b.day).toList)).length := by
    simp only [List.length_cons, List.length_append, Text.length_padded ham,
      Text.length_padded had, Text.length_padded hbm, Text.length_padded hbd]
  obtain ⟨hyear, hrest⟩ := List.append_inj' hchars hlength
  obtain ⟨hmonth, hrest⟩ := Text.padded_append_inj ham hbm (List.cons.inj hrest).2
  have hday := Text.padded_injective 2 (String.toList_inj.mp (List.cons.inj hrest).2)
  exact (eq_iff_parts a b).mpr ⟨yearText_injective (String.toList_inj.mp hyear), hmonth, hday⟩

theorem blank_notMem_text (d : Date) : ' ' ∉ d.text.toList := by
  have hmonth : ' ' ∉ (padded 2 d.month).toList := notMem_padded (by decide) _ _
  have hday : ' ' ∉ (padded 2 d.day).toList := notMem_padded (by decide) _ _
  rw [toList_text]
  simp [blank_notMem_yearText, hmonth, hday]

end Date

namespace Instant

/-- The text in front of the first blank of a stamp. -/
def dayText (stamp : String) : String := .ofList (stamp.toList.takeWhile (· ≠ ' '))

theorem toList_clockText (i : Instant) : i.clockText.toList =
    (padded 2 i.hour).toList ++ ':' :: ((padded 2 i.minute).toList ++
      ':' :: (padded 2 i.second).toList) := by
  have hcolon : ":".toList = [':'] := rfl
  simp only [clockText, String.toList_append, hcolon, List.append_assoc, List.cons_append,
    List.nil_append]

theorem toList_stamp (i : Instant) :
    i.stamp.toList = i.date.text.toList ++ ' ' :: i.clockText.toList := by
  have hblank : " ".toList = [' '] := rfl
  simp only [stamp, String.toList_append, hblank, List.append_assoc, List.cons_append,
    List.nil_append]

theorem dayText_stamp (i : Instant) : dayText i.stamp = i.date.text := by
  have hdate : ∀ c ∈ i.date.text.toList, decide (c ≠ ' ') = true := fun c hc =>
    decide_eq_true fun heq => i.date.blank_notMem_text (heq ▸ hc)
  rw [dayText, toList_stamp, List.takeWhile_append_of_pos hdate,
    List.takeWhile_cons_of_neg (by decide), List.append_nil, String.ofList_toList]

theorem two_digits (i : Instant) : i.hour < 10 ^ 2 ∧ i.minute < 10 ^ 2 ∧ i.second < 10 ^ 2 := by
  have hhour := i.hour_ok
  have hminute := i.minute_ok
  have hsecond := i.second_ok
  omega

theorem stamp_eq_iff (a b : Instant) : a.stamp = b.stamp ↔ a.wholeSecond = b.wholeSecond := by
  rw [wholeSecond_eq_iff, minutes_eq_iff]
  constructor
  · intro h
    obtain ⟨hah, ham, has⟩ := a.two_digits
    obtain ⟨hbh, hbm, hbs⟩ := b.two_digits
    have hdate : a.date = b.date := Date.text_injective (by
      rw [← dayText_stamp, h, dayText_stamp])
    have hchars := congrArg String.toList h
    rw [toList_stamp, toList_stamp, hdate, List.append_cancel_left_eq, List.cons.injEq,
      toList_clockText, toList_clockText] at hchars
    obtain ⟨hhour, hrest⟩ := Text.padded_append_inj hah hbh hchars.2
    obtain ⟨hminute, hrest⟩ := Text.padded_append_inj ham hbm (List.cons.inj hrest).2
    have hsecond := Text.padded_injective 2 (String.toList_inj.mp (List.cons.inj hrest).2)
    exact ⟨⟨hdate, hhour, hminute⟩, hsecond⟩
  · rintro ⟨⟨hdate, hhour, hminute⟩, hsecond⟩
    rw [stamp, stamp, clockText, clockText, hdate, hhour, hminute, hsecond]

theorem stamp_lt_iff {a b : Instant} (ha : 0 ≤ a.date.year ∧ a.date.year ≤ 9999)
    (hb : 0 ≤ b.date.year ∧ b.date.year ≤ 9999) :
    a.stamp < b.stamp ↔ a.wholeSecond < b.wholeSecond := by
  obtain ⟨hah, ham, has⟩ := a.two_digits
  obtain ⟨hbh, hbm, hbs⟩ := b.two_digits
  obtain ⟨hamonth, haday⟩ := a.date.two_digits
  obtain ⟨hbmonth, hbday⟩ := b.date.two_digits
  have hayear : a.date.year.natAbs < 10 ^ 4 := by omega
  have hbyear : b.date.year.natAbs < 10 ^ 4 := by omega
  rw [String.lt_iff_toList_lt, wholeSecond_lt_iff, minutes_lt_iff, minutes_eq_iff,
    Date.lt_iff_parts, Date.eq_iff_parts]
  simp only [toList_stamp, Date.toList_text, toList_clockText, yearText_of_range ha,
    yearText_of_range hb, List.append_assoc, List.cons_append]
  rw [Text.padded_append_lt_iff hayear hbyear, List.cons_lt_cons_self,
    Text.padded_append_lt_iff hamonth hbmonth, List.cons_lt_cons_self,
    Text.padded_append_lt_iff haday hbday, List.cons_lt_cons_self,
    Text.padded_append_lt_iff hah hbh, List.cons_lt_cons_self,
    Text.padded_append_lt_iff ham hbm, List.cons_lt_cons_self,
    Text.padded_lt_iff has hbs]
  omega

/-- The day of a stamp tells releases apart and the whole stamp tells seconds apart, leap seconds
among them. -/
theorem stamp_shows_day_and_second (accepted : List Accepted) (legacy : List Legacy) :
    let records := (assignReleases accepted legacy).records
    let fourDigits := fun i : Instant => 0 ≤ i.date.year ∧ i.date.year ≤ 9999
    (∀ d e : Date, d.next? = some e → e.dayCount = d.dayCount + 1) ∧
      (∀ (shown i : Instant) (offset : Int), shown.atOffset? offset = some i →
        i.minutes = shown.minutes - offset ∧ i.second = shown.second ∧ i.nano = shown.nano) ∧
      (∀ i : Instant, dayText i.stamp = i.date.text) ∧
      (∀ r ∈ records, ∀ s ∈ records, r.release = s.release ↔
        dayText r.ant.createdAt.stamp = dayText s.ant.createdAt.stamp) ∧
      (∀ a b : Instant, a.stamp = b.stamp ↔ a.wholeSecond = b.wholeSecond) ∧
      (∀ a b : Instant, fourDigits a → fourDigits b →
        (a.stamp < b.stamp ↔ a.wholeSecond < b.wholeSecond) ∧ (a ≤ b → a.stamp ≤ b.stamp)) := by
  intro records fourDigits
  refine ⟨fun _ _ => Date.dayCount_of_next?, fun _ _ _ => minutes_of_atOffset?, dayText_stamp,
    ?_, stamp_eq_iff, ?_⟩
  · intro r hr s hs
    rw [release_eq_iff hr hs, dayText_stamp, dayText_stamp, Date.text_injective.eq_iff]
  · intro a b ha hb
    refine ⟨stamp_lt_iff ha hb, fun h => ?_⟩
    rw [← String.not_lt, stamp_lt_iff hb ha]
    exact (wholeSecond_mono h).not_gt

/-- The leap second at the end of 2016, seen from one hour east, where the year 2017 has begun. -/
theorem stamp_shows_day_and_second_leap :
    let newYear : Date := ⟨2017, 1, 1, by decide, by decide, by decide⟩
    let shown : Instant := ⟨newYear, 0, 59, 60, 500000000, by decide, by decide, by decide,
      by decide⟩
    let leap : Instant := ⟨⟨2016, 12, 31, by decide, by decide, by decide⟩, 23, 59, 60, 500000000,
      by decide, by decide, by decide, by decide⟩
    let first : Accepted := ⟨⟨"ant", 0, false, none, "ant", leap⟩, midnight newYear⟩
    let second : Legacy := ⟨⟨"bee", 1, false, none, "bee", midnight newYear⟩⟩
    leap.date.next? = some newYear ∧ newYear.dayCount = leap.date.dayCount + 1 ∧
      shown.atOffset? 60 = some leap ∧ leap.minutes = shown.minutes - 60 ∧
      dayText leap.stamp = leap.date.text ∧
      releaseOn [first] [second] leap.date ≠ releaseOn [first] [second] newYear ∧
      leap.stamp < (midnight newYear).stamp := by
  intro newYear shown leap first second
  obtain ⟨hnext, hoffset, hday, hrelease, -, horder⟩ :=
    stamp_shows_day_and_second [first] [second]
  have hafter : leap.date.next? = some newYear := by decide
  have hshown : shown.atOffset? 60 = some leap := by decide
  have hfirst : ⟨first.toResident, releaseOn [first] [second] leap.date⟩ ∈
      (assignReleases [first] [second]).records :=
    mem_records_of_accepted (List.mem_singleton_self first)
  have hsecond : ⟨second.toResident, releaseOn [first] [second] newYear⟩ ∈
      (assignReleases [first] [second]).records :=
    mem_records_of_legacy (List.mem_singleton_self second)
  refine ⟨hafter, hnext _ _ hafter, hshown, (hoffset _ _ _ hshown).1, hday leap, fun h => ?_, ?_⟩
  · have htexts := (hrelease _ hfirst _ hsecond).mp h
    rw [hday, hday] at htexts
    exact absurd (Date.text_injective htexts) (by decide)
  · exact (horder leap (midnight newYear) (by decide) (by decide)).1.mpr (by decide)

end Instant

end AntRegister.Calendar
