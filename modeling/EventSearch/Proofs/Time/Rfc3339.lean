import EventSearch.Proofs.Text.Digits
import EventSearch.Time.Rfc3339

/-!
# Reading back points in time

What is written for a point in time in a year of four digits, at an offset of whole minutes and
with leap seconds at the end of a minute only, is read as the same point in time at the same
offset. Each part of the text is read back by itself: the numbers of a fixed width, the fraction
with its three, six or nine digits, the second that stands for a leap second, and the offset with
its sign.
-/
namespace EventSearch

open Text

namespace Clock

/-- A leap second, if the clock shows one, comes after the fifty-ninth. -/
def LeapEndsMinute (c : Clock) : Prop := 1000000000 ≤ c.nanos → c.second = 59

theorem of?_self {c : Clock} (h : c.LeapEndsMinute) :
    of? c.hour c.minute c.second c.nanos = some c := dif_pos ⟨c.valid, h⟩

theorem leapEndsMinute_of_of? {hour minute second nanos : Nat} {c : Clock}
    (h : of? hour minute second nanos = some c) : c.LeapEndsMinute := by
  obtain ⟨⟨_, hleap⟩, hc⟩ := Option.dite_none_right_eq_some.1 h
  cases hc
  exact hleap

end Clock

namespace Rfc3339

/-- A part that can be read is followed by the reading of the rest. -/
theorem bind_of_eq_some {α β : Type} {x : Option α} {a : α} (h : x = some a)
    (f : α → Option β) : (x >>= f) = f a := by
  rw [h]
  rfl

theorem fixed?_padded {width n : Nat} (hwidth : 0 < width) (h : n < Nat.pow 10 width)
    (rest : List Char) : fixed? width ((padded width n).toList ++ rest) = some (n, rest) := by
  have hlen : (zeroPadded width (digitsIn 10 n)).length = width := length_zeroPadded hwidth h
  have htake : (zeroPadded width (digitsIn 10 n) ++ rest).take width =
      zeroPadded width (digitsIn 10 n) := by
    rw [List.take_append_of_le_length (Nat.le_of_eq hlen.symm),
      List.take_of_length_le (Nat.le_of_eq hlen)]
  have hdrop : (zeroPadded width (digitsIn 10 n) ++ rest).drop width = rest := by
    rw [List.drop_append_of_le_length (Nat.le_of_eq hlen.symm),
      List.drop_of_length_le (Nat.le_of_eq hlen),
      List.nil_append]
  rw [fixed?, toList_padded, htake, hdrop, if_pos ⟨hlen, all_isDigit_zeroPadded width n⟩,
    ofDigits_zeroPadded, ofDigits_digitsIn]

theorem fixed?_two {n : Nat} (h : n < 100) (rest : List Char) :
    fixed? 2 ((padded 2 n).toList ++ rest) = some (n, rest) := fixed?_padded (by decide) h rest

theorem fixed?_four {n : Nat} (h : n < 10000) (rest : List Char) :
    fixed? 4 ((padded 4 n).toList ++ rest) = some (n, rest) := fixed?_padded (by decide) h rest

theorem skip?_cons {p : Char → Bool} {c : Char} (h : p c = true) (rest : List Char) :
    skip? p (c :: rest) = some rest := if_pos h

/-- The fraction ends where something else than a digit follows. -/
theorem nanos?_padded {width n : Nat} (hwidth : 0 < width) (hle : width ≤ 9)
    (h : n < Nat.pow 10 width) {c : Char} (hc : isDigit c = false) (rest : List Char) :
    nanos? ('.' :: ((padded width n).toList ++ c :: rest)) =
      some (n * Nat.pow 10 (9 - width), c :: rest) := by
  have hlen : (zeroPadded width (digitsIn 10 n)).length = width := length_zeroPadded hwidth h
  have hall : ∀ d ∈ zeroPadded width (digitsIn 10 n), isDigit d = true :=
    List.all_eq_true.1 (all_isDigit_zeroPadded width n)
  have htake : (zeroPadded width (digitsIn 10 n) ++ c :: rest).takeWhile isDigit =
      zeroPadded width (digitsIn 10 n) := by
    rw [List.takeWhile_append_of_pos hall, List.takeWhile_cons_of_neg (by simp [hc]),
      List.append_nil]
  have hdrop : (zeroPadded width (digitsIn 10 n) ++ c :: rest).dropWhile isDigit = c :: rest := by
    rw [List.dropWhile_append_of_pos hall, List.dropWhile_cons_of_neg (by simp [hc])]
  have hne : (zeroPadded width (digitsIn 10 n)).isEmpty = false := by
    rw [List.isEmpty_eq_false_iff, ← List.length_pos_iff, hlen]
    exact hwidth
  have hkept : (zeroPadded width (digitsIn 10 n)).take 9 = zeroPadded width (digitsIn 10 n) :=
    List.take_of_length_le (Nat.le_trans (Nat.le_of_eq hlen) hle)
  rw [nanos?, toList_padded, htake, hdrop]
  simp only [hne, hkept, hlen, ofDigits_zeroPadded, ofDigits_digitsIn, Bool.false_eq_true, if_false]

theorem nanos?_fractionText {nanos : Nat} (h : nanos < 1000000000) {c : Char}
    (hc : isDigit c = false) (hdot : c ≠ '.') (rest : List Char) :
    nanos? ((Clock.fractionText nanos).toList ++ c :: rest) = some (nanos, c :: rest) := by
  have hpoint (width n : Nat) : ("." ++ padded width n).toList ++ c :: rest =
      '.' :: ((padded width n).toList ++ c :: rest) := by
    rw [String.toList_append]
    rfl
  unfold Clock.fractionText
  split
  · next hzero =>
      subst hzero
      change nanos? (c :: rest) = some (0, c :: rest)
      unfold nanos?
      split
      · next heq => exact absurd (List.cons.inj heq).1 hdot
      · rfl
  · split
    · next hmilli =>
        have hlt : nanos / 1000000 < Nat.pow 10 3 := by
          change nanos / 1000000 < 1000
          omega
        have heq : nanos / 1000000 * Nat.pow 10 (9 - 3) = nanos := by
          change nanos / 1000000 * 1000000 = nanos
          omega
        rw [hpoint, nanos?_padded (by decide) (by decide) hlt hc, heq]
    · split
      · next hmicro =>
          have hlt : nanos / 1000 < Nat.pow 10 6 := by
            change nanos / 1000 < 1000000
            omega
          have heq : nanos / 1000 * Nat.pow 10 (9 - 6) = nanos := by
            change nanos / 1000 * 1000 = nanos
            omega
          rw [hpoint, nanos?_padded (by decide) (by decide) hlt hc, heq]
      · have heq : nanos * Nat.pow 10 (9 - 9) = nanos := Nat.mul_one nanos
        rw [hpoint, nanos?_padded (by decide) (by decide) h hc, heq]

theorem offset?_signed {c : Char} (hc : c = '+' ∨ c = '-') {hours minutes : Nat}
    (hhours : hours < 24) (hminutes : minutes < 60) :
    offset? (c :: ((padded 2 hours).toList ++ ':' :: (padded 2 minutes).toList)) =
      some (if c = '+' then ((hours * 3600 + minutes * 60 : Nat) : Int)
        else -((hours * 3600 + minutes * 60 : Nat) : Int), []) := by
  have hzulu : ¬ (c = 'Z' ∨ c = 'z') := by rcases hc with rfl | rfl <;> decide
  have hsign : c = '+' ∨ c = '-' ∨ c = '\u2212' := by
    rcases hc with h | h
    · exact .inl h
    · exact .inr (.inl h)
  have hrest := fixed?_two (Nat.lt_of_lt_of_le hminutes (by decide)) []
  rw [List.append_nil] at hrest
  have hfirst :=
    fixed?_two (Nat.lt_of_lt_of_le hhours (by decide)) (':' :: (padded 2 minutes).toList)
  rw [offset?, if_neg hzulu, if_pos hsign]
  refine (bind_of_eq_some hfirst _).trans ?_
  refine (bind_of_eq_some (skip?_cons rfl _) _).trans ?_
  exact (bind_of_eq_some hrest _).trans (if_pos ⟨hhours, hminutes⟩)

/-- The sign of an offset, then its hours and minutes. -/
theorem toList_rounded (o : Offset) :
    o.rounded.toList = (if o.seconds < 0 then '-' else '+') ::
      ((padded 2 ((o.seconds.natAbs + 30) / 60 / 60)).toList ++
        ':' :: (padded 2 ((o.seconds.natAbs + 30) / 60 % 60)).toList) := by
  by_cases h : o.seconds < 0 <;> simp [Offset.rounded, Offset.hoursMinutes, Offset.sign, h]

theorem offset?_rounded {o : Offset} (h : o.seconds % 60 = 0) :
    offset? o.rounded.toList = some (o.seconds, []) := by
  have hday : o.seconds.natAbs < 86400 := o.lt_day
  have hhours : (o.seconds.natAbs + 30) / 60 / 60 < 24 := by omega
  have hminutes : (o.seconds.natAbs + 30) / 60 % 60 < 60 := Nat.mod_lt _ (by decide)
  -- Of whole minutes nothing is lost by rounding.
  have hseconds : (o.seconds.natAbs + 30) / 60 / 60 * 3600 +
      (o.seconds.natAbs + 30) / 60 % 60 * 60 = o.seconds.natAbs := by omega
  rw [toList_rounded]
  by_cases hnegative : o.seconds < 0
  · rw [if_pos hnegative, offset?_signed (.inr rfl) hhours hminutes, hseconds,
      if_neg (by decide), Int.ofNat_natAbs_of_nonpos (Int.le_of_lt hnegative), Int.neg_neg]
  · rw [if_neg hnegative, offset?_signed (.inl rfl) hhours hminutes, hseconds, if_pos rfl,
      Int.natAbs_of_nonneg (Int.not_lt.1 hnegative)]

/-- The second that is written. Nanoseconds beyond a full second are those of the next one, which
is the sixtieth for a leap second at the end of a minute. -/
def shownSecond (c : Clock) : Nat := if 1000000000 ≤ c.nanos then c.second + 1 else c.second

def shownNanos (c : Clock) : Nat := if 1000000000 ≤ c.nanos then c.nanos - 1000000000 else c.nanos

theorem toList_text (c : Clock) :
    c.text.toList = (padded 2 c.hour).toList ++ ':' :: ((padded 2 c.minute).toList ++
      ':' :: ((padded 2 (shownSecond c)).toList ++
        (Clock.fractionText (shownNanos c)).toList)) := by
  simp [Clock.text, shownSecond, shownNanos]

theorem toList_display {d : Date} (h : 0 ≤ d.year ∧ d.year ≤ 9999) :
    d.display.toList = (padded 4 d.year.natAbs).toList ++ '-' :: ((padded 2 d.month).toList ++
      '-' :: (padded 2 d.day).toList) := by
  simp [Date.display, Date.yearText, h]

/-- What the numbers of a clock are bounded by. -/
theorem onClock_bounds (c : Clock) :
    c.hour < 24 ∧ c.minute < 60 ∧ c.second < 60 ∧ c.nanos < 2000000000 := by
  have h := c.valid
  simpa [onClock, and_assoc] using h

theorem shownSecond_lt (c : Clock) : shownSecond c < 100 := by
  have hsecond := (onClock_bounds c).2.2.1
  unfold shownSecond
  split <;> omega

theorem shownNanos_lt (c : Clock) : shownNanos c < 1000000000 := by
  have hnanos := (onClock_bounds c).2.2.2
  unfold shownNanos
  split <;> omega

/-- A leap second is told from the second that it follows by what is written. -/
theorem of?_shown {c : Clock} (h : c.LeapEndsMinute) :
    (if shownSecond c = 60 then Clock.of? c.hour c.minute 59 (shownNanos c + 1000000000)
      else Clock.of? c.hour c.minute (shownSecond c) (shownNanos c)) = some c := by
  have hsecond := (onClock_bounds c).2.2.1
  by_cases hleap : 1000000000 ≤ c.nanos
  · have hlast : c.second = 59 := h hleap
    have hshown : shownSecond c = 60 := by rw [shownSecond, if_pos hleap, hlast]
    have hback : shownNanos c + 1000000000 = c.nanos := by
      rw [shownNanos, if_pos hleap]
      omega
    rw [if_pos hshown, hback, ← hlast, Clock.of?_self h]
  · have hshown : shownSecond c = c.second := if_neg hleap
    have hback : shownNanos c = c.nanos := if_neg hleap
    rw [hshown, hback, if_neg (by omega), Clock.of?_self h]

theorem inCalendar_bounds (d : Date) : d.month < 100 ∧ d.day < 100 := by
  have h := d.valid
  have hday : daysInMonth d.year d.month ≤ 31 := by
    unfold daysInMonth
    split
    · split <;> decide
    all_goals decide
  simp only [inCalendar, Bool.and_eq_true, decide_eq_true_eq] at h
  omega

theorem nanos?_rounded {nanos : Nat} (h : nanos < 1000000000) (o : Offset) :
    nanos? ((Clock.fractionText nanos).toList ++ o.rounded.toList) =
      some (nanos, o.rounded.toList) := by
  rw [toList_rounded]
  split <;> exact nanos?_fractionText h (by decide) (by decide) _

/-- A point in time in a year of four digits and at an offset of whole minutes is read back, when
a leap second ends its minute. -/
theorem parse?_iso {t : DateTime} (hyear : 0 ≤ t.date.year ∧ t.date.year ≤ 9999)
    (hoffset : t.offset.seconds % 60 = 0) (hleap : t.clock.LeapEndsMinute) :
    parse? t.iso = some t := by
  have htext : t.iso.toList = t.date.display.toList ++ 'T' :: (t.clock.text.toList ++
      t.offset.rounded.toList) := by
    simp [DateTime.iso]
  obtain ⟨hmonth, hday⟩ := inCalendar_bounds t.date
  obtain ⟨hhour, hminute, -⟩ := onClock_bounds t.clock
  have hnanos := nanos?_rounded (shownNanos_lt t.clock) t.offset
  have hdate : Date.of? t.date.year.natAbs t.date.month t.date.day = some t.date := by
    rw [Int.natAbs_of_nonneg hyear.1, Date.of?, dif_pos t.date.valid]
  have heast : Offset.of? t.offset.seconds = some t.offset := by
    rw [Offset.of?, dif_pos t.offset.lt_day]
  have hminutes : t.clock.minute < 100 := Nat.lt_trans hminute (by decide)
  have hhours : t.clock.hour < 100 := Nat.lt_trans hhour (by decide)
  rw [parse?, htext, toList_display hyear, toList_text]
  simp only [List.append_assoc, List.cons_append]
  -- The date, up to the letter that ends it.
  refine (bind_of_eq_some (fixed?_four (by omega) _) _).trans ?_
  refine (bind_of_eq_some (skip?_cons rfl _) _).trans ?_
  refine (bind_of_eq_some (fixed?_two hmonth _) _).trans ?_
  refine (bind_of_eq_some (skip?_cons rfl _) _).trans ?_
  refine (bind_of_eq_some (fixed?_two hday _) _).trans ?_
  refine (bind_of_eq_some (skip?_cons rfl _) _).trans ?_
  -- The clock with its fraction.
  refine (bind_of_eq_some (fixed?_two hhours _) _).trans ?_
  refine (bind_of_eq_some (skip?_cons rfl _) _).trans ?_
  refine (bind_of_eq_some (fixed?_two hminutes _) _).trans ?_
  refine (bind_of_eq_some (skip?_cons rfl _) _).trans ?_
  refine (bind_of_eq_some (fixed?_two (shownSecond_lt t.clock) _) _).trans ?_
  refine (bind_of_eq_some hnanos _).trans ?_
  -- The offset, and nothing after it.
  refine (bind_of_eq_some (offset?_rounded hoffset) _).trans ?_
  refine (bind_of_eq_some hdate _).trans ?_
  have hclock := of?_shown hleap
  by_cases hleapSecond : shownSecond t.clock = 60
  · rw [if_pos hleapSecond] at hclock
    refine (if_pos hleapSecond).trans ((bind_of_eq_some hclock _).trans ?_)
    exact bind_of_eq_some heast _
  · rw [if_neg hleapSecond] at hclock
    refine (if_neg hleapSecond).trans ((bind_of_eq_some hclock _).trans ?_)
    exact bind_of_eq_some heast _

/-! ## What can be read -/

theorem fixed?_lt {width n : Nat} {cs rest : List Char} (h : fixed? width cs = some (n, rest)) :
    n < Nat.pow 10 width := by
  obtain ⟨⟨hlen, hall⟩, hread⟩ := Option.ite_none_right_eq_some.1 h
  cases hread
  have hlt := ofDigits_lt hall
  rwa [hlen] at hlt

theorem offset?_mod {cs rest : List Char} {east : Int} (h : offset? cs = some (east, rest)) :
    east % 60 = 0 := by
  cases cs with
  | nil => cases h
  | cons c cs =>
      rw [offset?] at h
      split at h
      · cases h
        rfl
      · obtain ⟨-, h⟩ := Option.ite_none_right_eq_some.1 h
        simp only [Option.bind_eq_bind, Option.bind_eq_some_iff] at h
        obtain ⟨⟨hours, afterHours⟩, -, afterColon, -, ⟨minutes, afterMinutes⟩, -, h⟩ := h
        obtain ⟨-, h⟩ := Option.ite_none_right_eq_some.1 h
        cases h
        split <;> omega

theorem year_of_of? {year : Int} {month day : Nat} {d : Date}
    (h : Date.of? year month day = some d) : d.year = year := by
  obtain ⟨_, hd⟩ := Option.dite_none_right_eq_some.1 h
  cases hd
  rfl

theorem seconds_of_of? {east : Int} {o : Offset} (h : Offset.of? east = some o) :
    o.seconds = east := by
  obtain ⟨_, ho⟩ := Option.dite_none_right_eq_some.1 h
  cases ho
  rfl

/-- The date of a point in time that is read is of the year in front, its clock is stated by its
numbers, and its offset is read behind the clock. -/
theorem exists_of_read? {cs : List Char} {t : DateTime} (h : read? cs = some t) :
    ∃ (year month day : Nat) (east : Int) (afterYear inFront left : List Char),
      fixed? 4 cs = some (year, afterYear) ∧ Date.of? year month day = some t.date ∧
        (∃ hour minute second nanos, Clock.of? hour minute second nanos = some t.clock) ∧
        offset? inFront = some (east, left) ∧ Offset.of? east = some t.offset := by
  obtain ⟨⟨year, afterYear⟩, hyear, h⟩ := Option.bind_eq_some_iff.1 h
  obtain ⟨_, -, h⟩ := Option.bind_eq_some_iff.1 h
  obtain ⟨⟨month, _⟩, -, h⟩ := Option.bind_eq_some_iff.1 h
  obtain ⟨_, -, h⟩ := Option.bind_eq_some_iff.1 h
  obtain ⟨⟨day, _⟩, -, h⟩ := Option.bind_eq_some_iff.1 h
  obtain ⟨_, -, h⟩ := Option.bind_eq_some_iff.1 h
  obtain ⟨⟨hour, _⟩, -, h⟩ := Option.bind_eq_some_iff.1 h
  obtain ⟨_, -, h⟩ := Option.bind_eq_some_iff.1 h
  obtain ⟨⟨minute, _⟩, -, h⟩ := Option.bind_eq_some_iff.1 h
  obtain ⟨_, -, h⟩ := Option.bind_eq_some_iff.1 h
  obtain ⟨⟨second, _⟩, -, h⟩ := Option.bind_eq_some_iff.1 h
  obtain ⟨⟨nanos, inFront⟩, -, h⟩ := Option.bind_eq_some_iff.1 h
  obtain ⟨⟨east, left⟩, heast, h⟩ := Option.bind_eq_some_iff.1 h
  obtain ⟨-, h⟩ := Option.ite_none_left_eq_some.1 h
  obtain ⟨date, hdate, h⟩ := Option.bind_eq_some_iff.1 h
  -- a leap second is stated by other numbers, and makes no difference to the rest
  have hparts : ∃ clock offset, (∃ hour minute second nanos,
      Clock.of? hour minute second nanos = some clock) ∧ Offset.of? east = some offset ∧
        t = ⟨date, clock, offset⟩ := by
    split at h
    all_goals
      obtain ⟨clock, hclock, h⟩ := Option.bind_eq_some_iff.1 h
      obtain ⟨offset, hoffset, h⟩ := Option.bind_eq_some_iff.1 h
      exact ⟨clock, offset, ⟨_, _, _, _, hclock⟩, hoffset, (Option.some.inj h).symm⟩
  obtain ⟨clock, offset, hclock, hoffset, rfl⟩ := hparts
  exact ⟨year, month, day, east, afterYear, inFront, left, hyear, hdate, hclock, heast, hoffset⟩

/-- A point in time that is read is in a year of four digits and at an offset of whole minutes,
and a leap second ends its minute. -/
theorem bounds_of_parse? {text : String} {t : DateTime} (h : parse? text = some t) :
    (0 ≤ t.date.year ∧ t.date.year ≤ 9999) ∧ t.offset.seconds % 60 = 0 ∧
      t.clock.LeapEndsMinute := by
  obtain ⟨year, _, _, _, _, _, _, hyear, hdate, ⟨_, _, _, _, hclock⟩, heast, hoffset⟩ :=
    exists_of_read? h
  have hfour : year < 10000 := fixed?_lt hyear
  rw [year_of_of? hdate, seconds_of_of? hoffset]
  exact ⟨⟨by omega, by omega⟩, offset?_mod heast, Clock.leapEndsMinute_of_of? hclock⟩

end Rfc3339

end EventSearch
