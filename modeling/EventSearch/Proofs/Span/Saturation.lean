import EventSearch.Proofs.Span.Intersection

/-!
# Durations that are too long for a word

A length stops at the largest word in each of its products and sums, and a sum of durations stops
in each of its counts. In the end there is one stop only: a length is the exact number of seconds
if a word can hold it, and two durations are as long together as their lengths are. So a third
duration added to both of them does not change which one is the longer.
-/
namespace EventSearch

theorem toNat_saturated (n : Nat) : (saturated n).toNat = min n maxWord := by
  have hfits : min n maxWord < UInt64.size := by
    have hword : maxWord < UInt64.size := by decide
    omega
  rw [saturated, UInt64.toNat_ofNat_of_lt' hfits]

theorem toNat_le_maxWord (a : UInt64) : a.toNat ≤ maxWord := by
  have hword : UInt64.size = maxWord + 1 := rfl
  have hlt := a.toNat_lt_size
  omega

/-! ## One stop for many -/

theorem min_add_min (a b bound : Nat) :
    min (min a bound + min b bound) bound = min (a + b) bound := by
  omega

/-- Where a number is cut off before it is multiplied, the product is beyond the bound. -/
theorem min_min_mul {factor : Nat} (h : 0 < factor) (n bound : Nat) :
    min (min n bound * factor) bound = min (n * factor) bound := by
  rcases Nat.le_total n bound with hle | hle
  · rw [Nat.min_eq_left hle]
  · have hcut : bound ≤ bound * factor := Nat.le_mul_of_pos_right bound h
    have hfull : bound ≤ n * factor := Nat.le_trans hle (Nat.le_mul_of_pos_right n h)
    rw [Nat.min_eq_right hle, Nat.min_eq_right hcut, Nat.min_eq_right hfull]

theorem TimeUnit.seconds_pos (unit : TimeUnit) : 0 < unit.seconds.toNat := by
  cases unit <;> decide

namespace Duration

/-- The seconds in counts of some units. -/
def secondsOf (count : TimeUnit → Nat) : List TimeUnit → Nat
  | [] => 0
  | unit :: rest => count unit * unit.seconds.toNat + secondsOf count rest

theorem secondsOf_add (f g : TimeUnit → Nat) (units : List TimeUnit) :
    secondsOf (fun unit => f unit + g unit) units = secondsOf f units + secondsOf g units := by
  induction units with
  | nil => rfl
  | cons unit rest ih =>
      simp only [secondsOf, ih, Nat.add_mul]
      omega

/-- Counts that are cut off have as many seconds, up to the bound. -/
theorem min_secondsOf_min (f : TimeUnit → Nat) (bound : Nat) (units : List TimeUnit) :
    min (secondsOf (fun unit => min (f unit) bound) units) bound =
      min (secondsOf f units) bound := by
  induction units with
  | nil => rfl
  | cons unit rest ih =>
      rw [secondsOf, secondsOf, ← min_add_min, ih, min_min_mul unit.seconds_pos, min_add_min]

/-- The stops of a sum from the left are one stop of the whole. -/
theorem toNat_foldl_saturatingAdd (count : TimeUnit → UInt64) (units : List TimeUnit)
    (start : UInt64) :
    (units.foldl (fun sum unit => saturatingAdd sum (saturatingMul (count unit) unit.seconds))
      start).toNat =
      min (start.toNat + secondsOf (fun unit => (count unit).toNat) units) maxWord := by
  induction units generalizing start with
  | nil =>
      have hstart := toNat_le_maxWord start
      exact (Nat.min_eq_left hstart).symm
  | cons unit rest ih =>
      rw [List.foldl_cons, ih, saturatingAdd, saturatingMul, toNat_saturated, toNat_saturated,
        secondsOf]
      omega

/-- The seconds of a duration, which need not fit into a word. -/
def exactSeconds (d : Duration) : Nat :=
  d.seconds.toNat + d.minutes.toNat * 60 + d.hours.toNat * 3600 + d.days.toNat * 86400 +
    d.weeks.toNat * 604800 + d.months.toNat * 2592000 + d.years.toNat * 31536000

theorem exactSeconds_eq (d : Duration) :
    d.exactSeconds = secondsOf (fun unit => (d.count unit).toNat) TimeUnit.all := by
  have hseconds : secondsOf (fun unit => (d.count unit).toNat) TimeUnit.all =
      d.seconds.toNat * 1 + (d.minutes.toNat * 60 + (d.hours.toNat * 3600 +
        (d.days.toNat * 86400 + (d.weeks.toNat * 604800 + (d.months.toNat * 2592000 +
          (d.years.toNat * 31536000 + 0)))))) := rfl
  rw [hseconds, exactSeconds]
  omega

theorem toNat_length (d : Duration) : d.length.toNat = min d.exactSeconds maxWord := by
  rw [length, toNat_foldl_saturatingAdd, ← exactSeconds_eq]
  exact congrArg (min · maxWord) (Nat.zero_add _)

theorem count_add (a b : Duration) (unit : TimeUnit) :
    (a.add b).count unit = saturatingAdd (a.count unit) (b.count unit) := by
  cases unit <;> rfl

theorem toNat_length_add (a b : Duration) :
    (a.add b).length.toNat = min (a.length.toNat + b.length.toNat) maxWord := by
  have hcounts : (fun unit => ((a.add b).count unit).toNat) =
      fun unit => min ((a.count unit).toNat + (b.count unit).toNat) maxWord := by
    funext unit
    rw [count_add, saturatingAdd, toNat_saturated]
  rw [toNat_length, toNat_length, toNat_length, min_add_min, exactSeconds_eq, hcounts,
    min_secondsOf_min, secondsOf_add, ← exactSeconds_eq, ← exactSeconds_eq]

/-- A length is the exact number of seconds up to the largest word, and two durations are as long
as their lengths together, again up to the largest word. So the one of two durations that is
not longer than the other one is not longer with the same duration added to both. -/
theorem length_saturates_once :
    (∀ d : Duration, d.length.toNat = min d.exactSeconds maxWord) ∧
    (∀ a b : Duration,
      (a.add b).length.toNat = min (a.length.toNat + b.length.toNat) maxWord) ∧
    ∀ a b c : Duration, a.compareLength b ≠ .gt → (a.add c).compareLength (b.add c) ≠ .gt := by
  refine ⟨toNat_length, toNat_length_add, fun a b c h => ?_⟩
  rw [compareLength_ne_gt, UInt64.le_iff_toNat_le] at h ⊢
  rw [toNat_length_add, toNat_length_add]
  omega

/-- As many seconds as a word can hold are not longer than as many minutes, also with one more
second, at which the count of seconds stops. -/
theorem compareLength_add_second :
    let seconds : Duration := { seconds := 18446744073709551615 }
    let minutes : Duration := { minutes := 18446744073709551615 }
    seconds.compareLength minutes ≠ .gt ∧
      (seconds.add { seconds := 1 }).compareLength (minutes.add { seconds := 1 }) ≠ .gt := by
  intro seconds minutes
  have h : seconds.compareLength minutes ≠ .gt := by
    rw [compareLength_ne_gt, UInt64.le_iff_toNat_le, toNat_length, toNat_length]
    decide
  exact ⟨h, length_saturates_once.2.2 seconds minutes { seconds := 1 } h⟩

end Duration

end EventSearch
