import EventSearch.Proofs.Value.Literal
import EventSearch.Query.Basic

/-!
# Instants in documents

The text of a point in time keeps its date and, to the nanosecond, how far its clock is in the
minute, but not whether nanoseconds are those beyond a second or those of the next one. Of the
offset it keeps only the side of universal time and the nearest minute. Points in time that share
a text are less than a minute apart. Whole minutes are kept, and so is a leap second at the end
of a minute: different instants with no other offsets and leap seconds have different texts.
-/
namespace EventSearch

open Text

namespace Rfc3339

/-! ## Parts of a text that are told apart -/

/-- A number of a fixed width and what follows it are told apart. -/
theorem padded_append_inj {width n m : Nat} (hwidth : 0 < width) (hn : n < Nat.pow 10 width)
    (hm : m < Nat.pow 10 width) {rest rest' : List Char}
    (h : (padded width n).toList ++ rest = (padded width m).toList ++ rest') :
    n = m ∧ rest = rest' := by
  have hread := fixed?_padded hwidth hn rest
  rw [h, fixed?_padded hwidth hm rest'] at hread
  have hpair := Option.some.inj hread
  exact ⟨(Prod.mk.inj hpair).1.symm, (Prod.mk.inj hpair).2.symm⟩

theorem padded_two_append_inj {n m : Nat} (hn : n < 100) (hm : m < 100) {rest rest' : List Char}
    (h : (padded 2 n).toList ++ rest = (padded 2 m).toList ++ rest') : n = m ∧ rest = rest' :=
  padded_append_inj (by decide) hn hm h

/-- The fraction of a second is told from the offset behind it. -/
theorem fractionText_append_inj {n m : Nat} (hn : n < 1000000000) (hm : m < 1000000000)
    {o p : Offset} (h : (Clock.fractionText n).toList ++ o.rounded.toList =
      (Clock.fractionText m).toList ++ p.rounded.toList) :
    n = m ∧ o.rounded.toList = p.rounded.toList := by
  have hread := nanos?_rounded hn o
  rw [h, nanos?_rounded hm p] at hread
  have hpair := Option.some.inj hread
  exact ⟨(Prod.mk.inj hpair).1.symm, (Prod.mk.inj hpair).2.symm⟩

end Rfc3339

/-! ## Clocks -/

namespace Clock

/-- The same hour and minute and as many nanoseconds since then, whether or not they are counted
beyond a full second. -/
structure RunsLike (c d : Clock) : Prop where
  hour : c.hour = d.hour
  minute : c.minute = d.minute
  nanos : c.second * 1000000000 + c.nanos = d.second * 1000000000 + d.nanos

variable {c d : Clock}

/-- What is shown of the second and its fraction is how many nanoseconds the minute has run. -/
theorem shown_eq_iff :
    Rfc3339.shownSecond c = Rfc3339.shownSecond d ∧ Rfc3339.shownNanos c = Rfc3339.shownNanos d ↔
      c.second * 1000000000 + c.nanos = d.second * 1000000000 + d.nanos := by
  have hc := (Rfc3339.onClock_bounds c).2.2.2
  have hd := (Rfc3339.onClock_bounds d).2.2.2
  unfold Rfc3339.shownSecond Rfc3339.shownNanos
  split <;> split <;> omega

theorem RunsLike.text_eq (h : c.RunsLike d) : c.text = d.text := by
  obtain ⟨hsecond, hnanos⟩ := shown_eq_iff.2 h.nanos
  rw [← String.toList_inj, Rfc3339.toList_text, Rfc3339.toList_text, h.hour, h.minute, hsecond,
    hnanos]

/-- A second and a half after the thirtieth is written as half a second after the next one. -/
example : text ⟨12, 0, 30, 1500000000, by decide⟩ = text ⟨12, 0, 31, 500000000, by decide⟩ := rfl

theorem RunsLike.eq_of_nanos_eq (h : c.RunsLike d) (hnanos : c.nanos = d.nanos) : c = d := by
  obtain ⟨hhour, hminute, hrun⟩ := h
  have hsecond : c.second = d.second := by omega
  cases c
  cases d
  congr

/-- Leap seconds at the end of a minute are told from any other second. -/
theorem RunsLike.eq (h : c.RunsLike d) (hc : c.LeapEndsMinute) (hd : d.LeapEndsMinute) :
    c = d := by
  have hsecond := (Rfc3339.onClock_bounds c).2.2.1
  have hsecond' := (Rfc3339.onClock_bounds d).2.2.1
  have hrun := h.nanos
  refine h.eq_of_nanos_eq ?_
  unfold LeapEndsMinute at hc hd
  omega

end Clock

/-! ## Offsets -/

namespace Offset

/-- On the same side of universal time and the same number of minutes away from it, where half
a minute counts as one. -/
def RoundsLike (o p : Offset) : Prop :=
  (o.seconds < 0 ↔ p.seconds < 0) ∧ (o.seconds.natAbs + 30) / 60 = (p.seconds.natAbs + 30) / 60

theorem rounded_eq_iff {o p : Offset} : o.rounded = p.rounded ↔ o.RoundsLike p := by
  constructor
  · intro h
    have hlist := congrArg String.toList h
    rw [Rfc3339.toList_rounded, Rfc3339.toList_rounded] at hlist
    obtain ⟨hsign, hnumbers⟩ := List.cons.inj hlist
    have ho := o.lt_day
    have hp := p.lt_day
    obtain ⟨hhours, hrest⟩ := Rfc3339.padded_two_append_inj (by omega) (by omega) hnumbers
    have hminuteTexts := congrArg (· ++ []) (List.cons.inj hrest).2
    obtain ⟨hminutes, -⟩ := Rfc3339.padded_two_append_inj (by omega) (by omega) hminuteTexts
    refine ⟨?_, by omega⟩
    by_cases hneg : o.seconds < 0 <;> by_cases hneg' : p.seconds < 0 <;>
      simp [hneg, hneg'] at hsign ⊢
  · rintro ⟨hsign, hminutes⟩
    have htexts : o.sign = p.sign := by simp only [sign, hsign]
    rw [rounded, rounded, hoursMinutes, hoursMinutes, htexts, hminutes]

/-- Whole minutes are not rounded. -/
theorem RoundsLike.eq {o p : Offset} (h : o.RoundsLike p) (ho : o.seconds % 60 = 0)
    (hp : p.seconds % 60 = 0) : o = p := by
  obtain ⟨hsign, hminutes⟩ := h
  have hseconds : o.seconds = p.seconds := by omega
  cases o
  cases p
  congr

theorem RoundsLike.sub_lt {o p : Offset} (h : o.RoundsLike p) :
    (o.seconds - p.seconds).natAbs < 60 := by
  obtain ⟨hsign, hminutes⟩ := h
  omega

end Offset

/-! ## Points in time -/

/-- The nanoseconds since the fixed instant. Those beyond a full second are those of the next. -/
def Instant.elapsed (i : Instant) : Int := i.seconds * 1000000000 + i.nanos

namespace DateTime

/-- Clocks that run alike on the same date, at offsets that are rounded alike. -/
structure ReadsLike (a b : DateTime) : Prop where
  date : a.date = b.date
  clock : a.clock.RunsLike b.clock
  offset : a.offset.RoundsLike b.offset

theorem toList_iso {t : DateTime} (h : 0 ≤ t.date.year ∧ t.date.year ≤ 9999) :
    t.iso.toList = (padded 4 t.date.year.natAbs).toList ++
      '-' :: ((padded 2 t.date.month).toList ++ '-' :: ((padded 2 t.date.day).toList ++
        'T' :: ((padded 2 t.clock.hour).toList ++ ':' :: ((padded 2 t.clock.minute).toList ++
          ':' :: ((padded 2 (Rfc3339.shownSecond t.clock)).toList ++
            ((Clock.fractionText (Rfc3339.shownNanos t.clock)).toList ++
              t.offset.rounded.toList)))))) := by
  have htext : t.iso.toList =
      t.date.display.toList ++ 'T' :: (t.clock.text.toList ++ t.offset.rounded.toList) := by
    simp [iso]
  rw [htext, Rfc3339.toList_display h, Rfc3339.toList_text]
  simp only [List.append_assoc, List.cons_append]

variable {a b : DateTime}

theorem iso_eq_iff (ha : 0 ≤ a.date.year ∧ a.date.year ≤ 9999)
    (hb : 0 ≤ b.date.year ∧ b.date.year ≤ 9999) : a.iso = b.iso ↔ a.ReadsLike b := by
  constructor
  · intro h
    have htext := congrArg String.toList h
    rw [toList_iso ha, toList_iso hb] at htext
    obtain ⟨hmonthA, hdayA⟩ := Rfc3339.inCalendar_bounds a.date
    obtain ⟨hmonthB, hdayB⟩ := Rfc3339.inCalendar_bounds b.date
    obtain ⟨hhourA, hminuteA, -⟩ := Rfc3339.onClock_bounds a.clock
    obtain ⟨hhourB, hminuteB, -⟩ := Rfc3339.onClock_bounds b.clock
    have hyearA : a.date.year.natAbs < Nat.pow 10 4 := by
      change _ < 10000
      omega
    have hyearB : b.date.year.natAbs < Nat.pow 10 4 := by
      change _ < 10000
      omega
    obtain ⟨hyear, htext⟩ := Rfc3339.padded_append_inj (by decide) hyearA hyearB htext
    obtain ⟨hmonth, htext⟩ :=
      Rfc3339.padded_two_append_inj hmonthA hmonthB (List.cons.inj htext).2
    obtain ⟨hday, htext⟩ := Rfc3339.padded_two_append_inj hdayA hdayB (List.cons.inj htext).2
    obtain ⟨hhour, htext⟩ :=
      Rfc3339.padded_two_append_inj (by omega) (by omega) (List.cons.inj htext).2
    obtain ⟨hminute, htext⟩ :=
      Rfc3339.padded_two_append_inj (by omega) (by omega) (List.cons.inj htext).2
    obtain ⟨hsecond, htext⟩ := Rfc3339.padded_two_append_inj (Rfc3339.shownSecond_lt _)
      (Rfc3339.shownSecond_lt _) (List.cons.inj htext).2
    obtain ⟨hnanos, hoffset⟩ := Rfc3339.fractionText_append_inj (Rfc3339.shownNanos_lt _)
      (Rfc3339.shownNanos_lt _) htext
    have hdate : a.date = b.date := by
      cases hcase : a.date
      cases hcase' : b.date
      simp only [hcase, hcase'] at hyear hmonth hday ha hb
      congr
      omega
    exact ⟨hdate, ⟨hhour, hminute, Clock.shown_eq_iff.1 ⟨hsecond, hnanos⟩⟩,
      Offset.rounded_eq_iff.1 (String.toList_inj.1 hoffset)⟩
  · intro h
    rw [iso, iso, h.date, h.clock.text_eq, Offset.rounded_eq_iff.2 h.offset]

theorem ReadsLike.eq (h : a.ReadsLike b) (hclock : a.clock = b.clock)
    (hoffset : a.offset = b.offset) : a = b := by
  have hdate := h.date
  cases a
  cases b
  congr

/-- Different points in time that read like each other are different instants. -/
theorem ReadsLike.instant_eq_iff (h : a.ReadsLike b) : a.instant = b.instant ↔ a = b := by
  constructor
  · intro heq
    have hclock : a.clock = b.clock := h.clock.eq_of_nanos_eq (congrArg Instant.nanos heq)
    have hoffset : a.offset = b.offset := by
      have hseconds := congrArg Instant.seconds heq
      simp only [instant, h.date, hclock] at hseconds
      cases hcase : a.offset
      cases hcase' : b.offset
      simp only [hcase, hcase'] at hseconds
      congr
      omega
    exact h.eq hclock hoffset
  · exact congrArg instant

/-- What lies between them is the difference of their offsets. -/
theorem ReadsLike.elapsed_sub (h : a.ReadsLike b) : a.instant.elapsed - b.instant.elapsed =
    (b.offset.seconds - a.offset.seconds) * 1000000000 := by
  have hrun := h.clock.nanos
  simp only [Instant.elapsed, instant, Clock.secondOfDay, h.date, h.clock.hour, h.clock.minute]
  omega

theorem ReadsLike.elapsed_sub_lt (h : a.ReadsLike b) :
    (a.instant.elapsed - b.instant.elapsed).natAbs < 60000000000 := by
  have hoffset := h.offset.sub_lt
  rw [h.elapsed_sub]
  omega

/-- Points in time in years of four digits are written alike, as literals and as bounds of a
window, exactly when they read like each other. They are then less than a minute apart, and one
instant only if they are the same reading. Different instants at offsets of whole minutes, with
leap seconds at the end of a minute only, are written differently. -/
theorem texts_eq_iff (ha : 0 ≤ a.date.year ∧ a.date.year ≤ 9999)
    (hb : 0 ≤ b.date.year ∧ b.date.year ≤ 9999) :
    ((Value.dateTime a).content = (Value.dateTime b).content ↔ a.ReadsLike b) ∧
      (a.iso = b.iso ↔ a.ReadsLike b) ∧
      (a.ReadsLike b → (a.instant = b.instant ↔ a = b) ∧
        (a.instant.elapsed - b.instant.elapsed).natAbs < 60000000000) ∧
      (a.instant ≠ b.instant → a.offset.seconds % 60 = 0 → b.offset.seconds % 60 = 0 →
        a.clock.LeapEndsMinute → b.clock.LeapEndsMinute →
        (Value.dateTime a).content ≠ (Value.dateTime b).content ∧ a.iso ≠ b.iso) := by
  have hiso := iso_eq_iff ha hb
  have hcontent : (Value.dateTime a).content = (Value.dateTime b).content ↔ a.ReadsLike b := by
    rw [Value.content, Value.content, Json.str.injEq, hiso]
  refine ⟨hcontent, hiso, fun h => ⟨h.instant_eq_iff, h.elapsed_sub_lt⟩, ?_⟩
  intro hne hminutes hminutes' hleap hleap'
  have hnot : ¬a.ReadsLike b := by
    intro h
    have hsame : a = b := h.eq (h.clock.eq hleap hleap') (h.offset.eq hminutes hminutes')
    exact hne (congrArg instant hsame)
  exact ⟨fun h => hnot (hcontent.1 h), fun h => hnot (hiso.1 h)⟩

/-- The start of the year 2020 in universal time. -/
def newYear : DateTime := .midnight ⟨2020, 1, 1, by decide⟩

/-- The same reading of the clock at an offset of so many seconds. -/
def newYearAt (offset : Offset) : DateTime := { newYear with offset := offset }

/-- An hour ahead of universal time the new year starts at another instant and has another
text. -/
theorem texts_newYear_hourAhead : (newYearAt ⟨3600, by decide⟩).instant ≠ newYear.instant ∧
    (Value.dateTime (newYearAt ⟨3600, by decide⟩)).content ≠ (Value.dateTime newYear).content ∧
    (newYearAt ⟨3600, by decide⟩).iso ≠ newYear.iso := by
  have hyear : 0 ≤ newYear.date.year ∧ newYear.date.year ≤ 9999 := by decide
  have hne : (newYearAt ⟨3600, by decide⟩).instant ≠ newYear.instant := by decide
  have hleap : newYear.clock.LeapEndsMinute := fun h => absurd h (by decide)
  obtain ⟨-, -, -, hwhole⟩ := @texts_eq_iff (newYearAt ⟨3600, by decide⟩) newYear hyear hyear
  exact ⟨hne, hwhole hne (by decide) (by decide) hleap hleap⟩

/-- Twenty-nine seconds ahead of universal time the new year starts at another instant, but has
the text of the one in universal time. A window between the two is not empty and is written
with the same bound twice. -/
theorem texts_newYear_secondsAhead : (newYearAt ⟨29, by decide⟩).instant ≠ newYear.instant ∧
    (Value.dateTime (newYearAt ⟨29, by decide⟩)).content = (Value.dateTime newYear).content ∧
    (newYearAt ⟨29, by decide⟩).iso = newYear.iso ∧
    ({ after := some (newYearAt ⟨29, by decide⟩), before := some newYear } : Select).encode =
      .ok (.obj [("between", .arr [.str "2020-01-01T00:00:00+00:00",
        .str "2020-01-01T00:00:00+00:00"])]) := by
  have hyear : 0 ≤ newYear.date.year ∧ newYear.date.year ≤ 9999 := by decide
  have hreads : (newYearAt ⟨29, by decide⟩).ReadsLike newYear :=
    ⟨rfl, ⟨rfl, rfl, rfl⟩, by decide, by decide⟩
  have hiso : (newYearAt ⟨29, by decide⟩).iso = newYear.iso :=
    (@iso_eq_iff (newYearAt ⟨29, by decide⟩) newYear hyear hyear).2 hreads
  have htext : newYear.iso = "2020-01-01T00:00:00+00:00" := by decide +kernel
  have hencode :
      ({ after := some (newYearAt ⟨29, by decide⟩), before := some newYear } : Select).encode =
        .ok (.obj [("between", .arr [.str (newYearAt ⟨29, by decide⟩).iso, .str newYear.iso])]) :=
    rfl
  rw [hiso, htext] at hencode
  exact ⟨by decide, congrArg Json.str hiso, hiso, hencode⟩

end DateTime

end EventSearch
