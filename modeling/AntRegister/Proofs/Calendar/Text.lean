import AntRegister.Calendar.Reading
import AntRegister.Proofs.Calendar.Stamp
/-! The exact text of an instant is read as that instant. Each part of the text is read up to the
character behind it, which is none that the part could go on with. -/

namespace AntRegister

namespace Reader

variable {α β : Type}

theorem bind_of_reads {r : Reader α} {f : α → Reader β} {cs rest : List Char} {a : α}
    {out : Option (β × List Char)} (h : r cs = some (a, rest)) (hf : f a rest = out) :
    (r >>= f) cs = out := by
  change (r cs).bind (fun x => f x.1 x.2) = out
  rw [h]
  exact hf

theorem char_cons (c : Char) (rest : List Char) : char c (c :: rest) = some ((), rest) :=
  bind_of_reads (r := anyChar) rfl (congrFun (if_pos rfl) rest)

section

variable {rest ds : List Char} {least most : Nat}

/-- Digits are read up to a character that is none, if there are not too many. -/
theorem digits_append (hds : ∀ d ∈ ds, d.isDigit = true) (hrest : ∀ c ∈ rest.head?, c.isDigit = false)
    (hleast : least ≤ ds.length) (hmost : ds.length ≤ most) :
    digits least most (ds ++ rest) = some (ds, rest) := by
  have hdigits : ∀ d ∈ ds, Text.isDigit d = true := fun d hd => (Text.isDigit_eq d).trans (hds d hd)
  have hstop : (rest.take (most - ds.length)).takeWhile Text.isDigit = [] := by
    cases rest with
    | nil => rw [List.take_nil, List.takeWhile_nil]
    | cons c rest =>
      have hc : Text.isDigit c = false := (Text.isDigit_eq c).trans (hrest c rfl)
      cases most - ds.length with
      | zero => rfl
      | succ n => rw [List.take_succ_cons, List.takeWhile_cons_of_neg (Bool.eq_false_iff.mp hc)]
  have hread : ((ds ++ rest).take most).takeWhile Text.isDigit = ds := by
    rw [List.take_append, List.take_of_length_le hmost, List.takeWhile_append_of_pos hdigits, hstop,
      List.append_nil]
  rw [digits, hread, if_neg (Nat.not_lt.mpr hleast), List.drop_left]

theorem number_padded {width n : Nat} (hrest : ∀ c ∈ rest.head?, c.isDigit = false)
    (hleast : least ≤ (Text.padded width n).toList.length)
    (hmost : (Text.padded width n).toList.length ≤ most) :
    number least most ((Text.padded width n).toList ++ rest) = some (n, rest) := by
  refine bind_of_reads
    (digits_append (fun _ => Text.isDigit_of_mem_padded) hrest hleast hmost) ?_
  rw [Text.valueOf_padded]
  rfl

end

end Reader

namespace Calendar

open Text (padded)

namespace Reader

open AntRegister.Reader

variable {rest : List Char}

theorem isBlank_of_isDigit {c : Char} (h : c.isDigit = true) : Text.isBlank c = false := by
  have hrange : 48 ≤ c.toNat ∧ c.toNat ≤ 57 := by
    simpa [Char.isDigit, UInt32.le_iff_toNat_le] using h
  simp only [Text.isBlank, Bool.or_eq_false_iff, Bool.and_eq_false_iff, decide_eq_false_iff_not,
    beq_eq_false_iff_ne]
  omega

theorem skipBlanks_of_head? {cs : List Char} (h : ∀ c ∈ cs.head?, Text.isBlank c = false) :
    skipBlanks cs = some ((), cs) := by
  cases cs with
  | nil => rfl
  | cons c cs =>
    rw [skipBlanks, skipWhile, List.dropWhile_cons_of_neg (Bool.eq_false_iff.mp (h c rfl))]

theorem isDigit_head?_padded (width n : Nat) :
    ∀ c ∈ ((padded width n).toList ++ rest).head?, c.isDigit = true := by
  intro c hc
  rw [List.head?_append_of_ne_nil] at hc
  · exact Text.isDigit_of_mem_padded (List.mem_of_head? hc)
  · rw [Text.toList_padded]
    exact List.append_ne_nil_of_right_ne_nil _ Nat.toDigits_ne_nil

theorem looseChar_cons {c : Char} (hc : Text.isBlank c = false) :
    looseChar c (c :: rest) = some ((), rest) :=
  bind_of_reads (skipBlanks_of_head? fun _ h => Option.some.inj h ▸ hc) (char_cons c rest)

theorem looseNumber_padded {n : Nat} (hn : n < 10 ^ 2)
    (hrest : ∀ c ∈ rest.head?, c.isDigit = false) :
    looseNumber 2 ((padded 2 n).toList ++ rest) = some (n, rest) := by
  have hlength : (padded 2 n).toList.length = 2 := Text.length_padded hn
  refine bind_of_reads (skipBlanks_of_head? fun c hc =>
    isBlank_of_isDigit (isDigit_head?_padded 2 n c hc)) ?_
  exact number_padded hrest (by omega) (by omega)

theorem length_padded_pos (width n : Nat) : 1 ≤ (padded width n).toList.length := by
  rw [Text.toList_padded, List.length_append]
  exact Nat.le_add_left_of_le (List.length_pos_iff.mpr Nat.toDigits_ne_nil)

theorem longNumber_padded (width n : Nat) (hrest : ∀ c ∈ rest.head?, c.isDigit = false) :
    longNumber ((padded width n).toList ++ rest) = some (n, rest) :=
  number_padded hrest (length_padded_pos width n) (by rw [List.length_append]; omega)

/-- A year is read up to the hyphen behind it, with its sign if it has one. -/
theorem looseYear_yearText (year : Int) :
    looseYear ((yearText year).toList ++ '-' :: rest) = some (year, '-' :: rest) := by
  have hhyphen : ∀ c ∈ ('-' :: rest).head?, c.isDigit = false := by
    rintro c ⟨⟩
    decide
  have hlong := longNumber_padded 4 year.natAbs hhyphen
  rw [yearText_eq, yearSign]
  split_ifs with hrange hneg
  · have hdigit : ∀ c ∈ ((padded 4 year.natAbs).toList ++ '-' :: rest).head?, c.isDigit = true :=
      isDigit_head?_padded 4 year.natAbs
    have hlength : (padded 4 year.natAbs).toList.length = 4 := Text.length_padded (by omega)
    rw [String.empty_append]
    refine bind_of_reads (skipBlanks_of_head? fun c hc => isBlank_of_isDigit (hdigit c hc)) ?_
    split
    next hcs =>
      rw [hcs] at hdigit
      exact absurd (hdigit '-' rfl) (by decide)
    next hcs =>
      rw [hcs] at hdigit
      exact absurd (hdigit '+' rfl) (by decide)
    next =>
      refine bind_of_reads (number_padded hhyphen (by omega) (by omega)) ?_
      rw [Int.ofNat_eq_natCast, Int.natAbs_of_nonneg hrange.1]
      rfl
  · have hsign : "-".toList = ['-'] := rfl
    rw [String.toList_append, hsign, List.append_assoc, List.singleton_append]
    refine bind_of_reads (skipBlanks_of_head? (by rintro c ⟨⟩; decide)) ?_
    refine bind_of_reads hlong ?_
    rw [Int.ofNat_eq_natCast, Int.ofNat_natAbs_of_nonpos hneg.le, neg_neg]
    rfl
  · have hsign : "+".toList = ['+'] := rfl
    rw [String.toList_append, hsign, List.append_assoc, List.singleton_append]
    refine bind_of_reads (skipBlanks_of_head? (by rintro c ⟨⟩; decide)) ?_
    refine bind_of_reads hlong ?_
    rw [Int.ofNat_eq_natCast, Int.natAbs_of_nonneg (by omega)]
    rfl

theorem fraction_point {width n : Nat} (hlength : (padded width n).toList.length = width)
    (hleast : 1 ≤ width) (hmost : width ≤ 9) :
    fraction (("." ++ padded width n).toList ++ 'Z' :: rest) =
      some (n * 10 ^ (9 - width), 'Z' :: rest) := by
  have hpoint : ".".toList = ['.'] := rfl
  have hdigits : ∀ d ∈ (padded width n).toList, d.isDigit = true := fun _ =>
    Text.isDigit_of_mem_padded
  rw [String.toList_append, hpoint, List.append_assoc, List.singleton_append, fraction,
    digits_append hdigits (by rintro c ⟨⟩; decide) (by omega) (by omega)]
  dsimp only
  rw [Text.valueOf_padded, hlength]
  rfl

theorem fraction_fractionText {nano : Nat} (h : nano < 1000000000) :
    fraction ((Instant.fractionText nano).toList ++ 'Z' :: rest) = some (nano, 'Z' :: rest) := by
  unfold Instant.fractionText
  split_ifs with hzero hmilli hmicro
  · rw [hzero]
    rfl
  · rw [fraction_point (Text.length_padded (by omega)) (by decide) (by decide)]
    congr 2
    omega
  · rw [fraction_point (Text.length_padded (by omega)) (by decide) (by decide)]
    congr 2
    omega
  · rw [fraction_point (Text.length_padded (by omega)) (by decide) (by decide)]
    congr 2
    omega

end Reader

theorem Date.of?_parts (d : Date) : Date.of? d.year d.month d.day = some d := by
  rw [Date.of?, dif_pos d.year_ok, dif_pos d.month_ok, dif_pos d.day_ok]

namespace Instant

open AntRegister.Reader (bind_of_reads)

theorem of?_parts (i : Instant) : of? i.date i.hour i.minute i.second i.nano = some i := by
  rw [of?, dif_pos i.hour_ok, dif_pos i.minute_ok, dif_pos i.second_ok, dif_pos i.nano_ok]

theorem atOffset?_zero (i : Instant) : i.atOffset? 0 = some i := by
  have hhour := i.hour_ok
  have hminute := i.minute_ok
  have hdate : shiftDate? i.date ((60 * i.hour + i.minute - 0 : Int) / 1440) = some i.date := by
    have hday : (60 * i.hour + i.minute - 0 : Int) / 1440 = 0 := by omega
    rw [hday]
    rfl
  have htime : ((60 * i.hour + i.minute - 0 : Int) % 1440).toNat / 60 = i.hour ∧
      ((60 * i.hour + i.minute - 0 : Int) % 1440).toNat % 60 = i.minute := by omega
  simp only [atOffset?, hdate, htime.1, htime.2]
  exact i.of?_parts

theorem toList_exact (i : Instant) : i.text.toList =
    (yearText i.date.year).toList ++ '-' :: ((padded 2 i.date.month).toList ++
      '-' :: ((padded 2 i.date.day).toList ++ 'T' :: ((padded 2 i.hour).toList ++
        ':' :: ((padded 2 i.minute).toList ++ ':' :: ((padded 2 i.second).toList ++
          ((fractionText i.nano).toList ++ ['Z'])))))) := by
  have hmark : "T".toList = ['T'] := rfl
  have hzone : "Z".toList = ['Z'] := rfl
  simp only [text, String.toList_append, Date.toList_text, toList_clockText, hmark, hzone,
    List.append_assoc, List.cons_append, List.nil_append]

theorem isDigit_head?_fraction (nano : Nat) :
    ∀ c ∈ ((fractionText nano).toList ++ ['Z']).head?, c.isDigit = false := by
  have hpoint : ∀ s : String, ∀ c ∈ (("." ++ s).toList ++ ['Z']).head?, c.isDigit = false := by
    intro s c hc
    rw [String.toList_append] at hc
    obtain rfl := Option.some.inj hc
    decide
  unfold fractionText
  split_ifs
  · rintro c ⟨⟩
    decide
  iterate 3 exact hpoint _

theorem looseInstant_text (i : Instant) : Reader.looseInstant i.text.toList = some (i, []) := by
  obtain ⟨hmonth, hday⟩ := i.date.two_digits
  obtain ⟨hhour, hminute, hsecond⟩ := i.two_digits
  have hmark : ∀ c : Char, c.isDigit = false → ∀ rest : List Char,
      ∀ d ∈ (c :: rest).head?, d.isDigit = false := by
    rintro c hc rest d ⟨⟩
    exact hc
  rw [toList_exact]
  refine bind_of_reads (Reader.looseYear_yearText _) ?_
  refine bind_of_reads (Reader.looseChar_cons (by decide)) ?_
  refine bind_of_reads (Reader.looseNumber_padded hmonth (hmark '-' (by decide) _)) ?_
  refine bind_of_reads (Reader.looseChar_cons (by decide)) ?_
  refine bind_of_reads (Reader.looseNumber_padded hday (hmark 'T' (by decide) _)) ?_
  refine bind_of_reads (r := Reader.dayTimeMark) rfl ?_
  refine bind_of_reads (Reader.looseNumber_padded hhour (hmark ':' (by decide) _)) ?_
  refine bind_of_reads (Reader.looseChar_cons (by decide)) ?_
  refine bind_of_reads (Reader.looseNumber_padded hminute (hmark ':' (by decide) _)) ?_
  refine bind_of_reads (Reader.looseChar_cons (by decide)) ?_
  refine bind_of_reads (Reader.looseNumber_padded hsecond (isDigit_head?_fraction i.nano)) ?_
  refine bind_of_reads (Reader.fraction_fractionText i.nano_ok) ?_
  refine bind_of_reads (Reader.skipBlanks_of_head? (by rintro c ⟨⟩; decide)) ?_
  refine bind_of_reads (r := Reader.looseZone) rfl ?_
  rw [Reader.instant, i.date.of?_parts]
  simp [i.of?_parts, i.atOffset?_zero]

theorem read?_text (i : Instant) : read? i.text = some i := by
  rw [read?, looseInstant_text]
  rfl

end Instant

end Calendar

end AntRegister
