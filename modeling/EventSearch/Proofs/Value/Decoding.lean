import EventSearch.Proofs.Double.Rounding
import EventSearch.Proofs.Outcome
import EventSearch.Proofs.Value.Date
import Mathlib.Data.List.TakeWhile

/-!
# Literals that are read

A literal can be spelled in many ways. Whatever is read from it has a literal of its own: its
doubles are finite, its date is not before the year 0, and its point in time is in a year of
four digits and at an offset of whole minutes. That literal is read as the same value, so that
the spelling is settled once what was read is written again.
-/
namespace EventSearch

theorem Json.isFinite_of_number {j : Json} {d : Double} (h : j.number = some d) :
    d.isFinite = true := by
  cases j with
  | int n fits =>
      cases h
      exact Double.isFinite_ofInt fits
  | double d finite =>
      cases h
      exact finite
  | _ => cases h

theorem Point.isFinite_of_decode? {j : Json} {p : Point} (h : decode? j = some p) :
    ∀ d ∈ p.coordinates, d.isFinite = true := by
  unfold decode? at h
  split at h
  · simp only [Option.bind_eq_bind, Option.bind_eq_some_iff] at h
    obtain ⟨lat, hlat, lon, hlon, h⟩ := h
    cases h
    exact List.forall_mem_cons.2 ⟨Json.isFinite_of_number hlat,
      List.forall_mem_singleton.2 (Json.isFinite_of_number hlon)⟩
  · cases h

namespace Region

theorem exists_of_decodeCircle? {content : Json} {r : Region} (h : decodeCircle? content = some r) :
    ∃ center radius, r = circle center radius ∧ ∀ d ∈ r.coordinates, d.isFinite = true := by
  simp only [decodeCircle?, Option.bind_eq_bind, Option.bind_eq_some_iff] at h
  obtain ⟨_, -, center, hcenter, _, -, radius, hradius, h⟩ := h
  cases h
  exact ⟨center, radius, rfl, List.forall_mem_append.2
    ⟨Point.isFinite_of_decode? hcenter,
      List.forall_mem_singleton.2 (Json.isFinite_of_number hradius)⟩⟩

theorem exists_of_decodePolygon? {content : Json} {r : Region}
    (h : decodePolygon? content = some r) :
    ∃ points, r = polygon points ∧ ∀ d ∈ r.coordinates, d.isFinite = true := by
  simp only [decodePolygon?, Option.bind_eq_bind, Option.bind_eq_some_iff] at h
  obtain ⟨items, -, points, hpoints, h⟩ := h
  cases h
  have hfinite : ∀ p ∈ points, ∀ d ∈ p.coordinates, d.isFinite = true :=
    forall_of_mapM_eq_some hpoints fun _ _ => Point.isFinite_of_decode?
  refine ⟨points, rfl, fun d hd => ?_⟩
  obtain ⟨p, hp, hd⟩ := List.mem_flatMap.1 hd
  exact hfinite p hp d hd

end Region

theorem Text.integer?_nonneg {cs : List Char} {n : Int} (hsign : '-' ∉ cs)
    (h : integer? cs = some n) : 0 ≤ n := by
  unfold integer? at h
  split at h
  · cases h
  · exact absurd List.mem_cons_self hsign
  · obtain ⟨_, hmagnitude, rfl⟩ := Option.map_eq_some_iff.1 h
    obtain ⟨magnitude, -, hm⟩ := Option.bind_eq_some_iff.1 hmagnitude
    cases hm
    exact Int.natCast_nonneg magnitude

namespace Date

/-- The year ends at the first dash. -/
theorem not_mem_of_parts? {cs year month day : List Char}
    (h : parts? cs = some (year, month, day)) : '-' ∉ year := by
  simp only [parts?, List.span_eq_takeWhile_dropWhile] at h
  split at h
  · next heq =>
      obtain ⟨hyear, -⟩ := Prod.mk.inj heq
      split at h
      · cases h
        intro hmem
        rw [← hyear] at hmem
        have hdash := List.mem_takeWhile_imp hmem
        cases hdash
      · cases h
  · cases h

theorem year_nonneg_of_parse? {text : String} {d : Date} (h : parse? text = some d) :
    0 ≤ d.year := by
  simp only [parse?, Option.bind_eq_bind, Option.bind_eq_some_iff] at h
  obtain ⟨⟨year, month, day⟩, hparts, n, hn, _, -, _, -, h⟩ := h
  rw [Rfc3339.year_of_of? h]
  exact Text.integer?_nonneg (not_mem_of_parts? hparts) hn

end Date

namespace Value

/-- The value has a literal, and from that the value is read. -/
def IsSettled (v : Value) : Prop := v.requireFinite = .ok () ∧ decode v.encode = .ok v

theorem scalar_eq_ok {α : Type} {read : Option α} {a : α} (make : α → Value) (e : QueryError)
    (h : read = some a) :
    (match read.map make with
      | some v => Except.ok v
      | none => Except.error e) = .ok (make a) := by
  rw [h]
  rfl

theorem region_eq_ok {read : Option Region} {r : Region} (e : QueryError) (h : read = some r) :
    (match read with
      | some r => Except.ok (region r)
      | none => Except.error e) = .ok (region r) := by
  rw [h]

theorem isSettled_int (n : Int64) : (int n).IsSettled := by
  have hread : int? (Json.ofInt64 n) = some n := int64?_toInt n
  exact ⟨rfl, scalar_eq_ok int _ hread⟩

theorem isSettled_double {d : Double} (h : d.isFinite = true) : (double d).IsSettled := by
  refine ⟨requireFinite_of_isFinite (by simp [isFinite, doubles, h]), ?_⟩
  rw [encode, content, Json.ofDouble_eq h]
  rfl

theorem isSettled_date {d : Date} (h : 0 ≤ d.year) : (date d).IsSettled := by
  refine ⟨rfl, ?_⟩
  rw [decode_date_eq, Date.parse?_document h]

theorem isSettled_dateTime {t : DateTime} (hyear : 0 ≤ t.date.year ∧ t.date.year ≤ 9999)
    (hoffset : t.offset.seconds % 60 = 0) (hleap : t.clock.LeapEndsMinute) :
    (dateTime t).IsSettled := by
  have hparse : Rfc3339.parse? t.iso = some t := Rfc3339.parse?_iso hyear hoffset hleap
  refine ⟨rfl, ?_⟩
  rw [encode, decode_literal]
  simp only [decodeContent, tag, content, Json.str?, Option.bind_some, hparse]
  rfl

theorem isSettled_circle {center : Point} {radius : Double}
    (h : ∀ d ∈ (Region.circle center radius).coordinates, d.isFinite = true) :
    (region (.circle center radius)).IsSettled := by
  exact ⟨requireFinite_of_isFinite (List.all_eq_true.2 h),
    region_eq_ok _ (Region.decodeCircle?_content h)⟩

theorem isSettled_polygon {points : List Point}
    (h : ∀ d ∈ (Region.polygon points).coordinates, d.isFinite = true) :
    (region (.polygon points)).IsSettled := by
  exact ⟨requireFinite_of_isFinite (List.all_eq_true.2 h),
    region_eq_ok _ (Region.decodePolygon?_content h)⟩

theorem exists_of_scalar_eq_ok {α : Type} {read : Option α} {make : α → Value} {e : QueryError}
    {v : Value}
    (h : (match read.map make with
      | some v => Except.ok v
      | none => Except.error e) = .ok v) : ∃ a, read = some a ∧ v = make a := by
  cases read with
  | none => cases h
  | some a =>
      cases h
      exact ⟨a, rfl, rfl⟩

theorem exists_of_region_eq_ok {read : Option Region} {e : QueryError} {v : Value}
    (h : (match read with
      | some r => Except.ok (region r)
      | none => Except.error e) = .ok v) : ∃ r, read = some r ∧ v = region r := by
  cases read with
  | none => cases h
  | some r =>
      cases h
      exact ⟨r, rfl, rfl⟩

theorem isSettled_of_decodeContent {object content : Json} {tag : String} {v : Value}
    (h : decodeContent object tag content = .ok v) : v.IsSettled := by
  unfold decodeContent at h
  simp only at h
  split at h
  · obtain ⟨b, -, rfl⟩ := exists_of_scalar_eq_ok h
    exact ⟨rfl, rfl⟩
  · obtain ⟨n, -, rfl⟩ := exists_of_scalar_eq_ok h
    exact isSettled_int n
  · obtain ⟨d, hd, rfl⟩ := exists_of_scalar_eq_ok h
    exact isSettled_double (Json.isFinite_of_number hd)
  · obtain ⟨s, -, rfl⟩ := exists_of_scalar_eq_ok h
    exact ⟨rfl, rfl⟩
  · obtain ⟨d, hd, rfl⟩ := exists_of_scalar_eq_ok h
    obtain ⟨text, -, hparse⟩ := Option.bind_eq_some_iff.1 hd
    exact isSettled_date (Date.year_nonneg_of_parse? hparse)
  · obtain ⟨t, ht, rfl⟩ := exists_of_scalar_eq_ok h
    obtain ⟨text, -, hparse⟩ := Option.bind_eq_some_iff.1 ht
    obtain ⟨hyear, hoffset, hleap⟩ := Rfc3339.bounds_of_parse? hparse
    exact isSettled_dateTime hyear hoffset hleap
  · obtain ⟨r, hr, rfl⟩ := exists_of_region_eq_ok h
    obtain ⟨center, radius, rfl, hfinite⟩ := Region.exists_of_decodeCircle? hr
    exact isSettled_circle hfinite
  · obtain ⟨r, hr, rfl⟩ := exists_of_region_eq_ok h
    obtain ⟨points, rfl, hfinite⟩ := Region.exists_of_decodePolygon? hr
    exact isSettled_polygon hfinite
  · cases h

theorem isSettled_of_decode {j : Json} {v : Value} (h : decode j = .ok v) : v.IsSettled := by
  unfold decode at h
  split at h
  · cases h
  · cases h
  · exact isSettled_of_decodeContent h

/-- What is written for the value of a literal. -/
def rewritten (j : Json) : Except QueryError Json := do .ok (← decode j).encode

/-- What is written after so many rounds of reading a literal and writing it again. -/
def rewrittenTimes : Nat → Json → Except QueryError Json
  | 0, j => .ok j
  | n + 1, j => do rewrittenTimes n (← rewritten j)

theorem rewritten_of_decode {j : Json} {v : Value} (h : decode j = .ok v) :
    rewritten j = .ok v.encode := by
  rw [rewritten, h]
  rfl

theorem rewrittenTimes_succ {j j' : Json} (h : rewritten j = .ok j') (n : Nat) :
    rewrittenTimes (n + 1) j = rewrittenTimes n j' := by
  rw [rewrittenTimes, h]
  rfl

/-- A literal that gives back its own document stays as it is. -/
theorem rewrittenTimes_of_rewritten {j : Json} (h : rewritten j = .ok j) (n : Nat) :
    rewrittenTimes n j = .ok j := by
  induction n with
  | zero => rfl
  | succ n ih => rw [rewrittenTimes_succ h, ih]

/-- Whatever is read from a literal, in any spelling, has a literal from which the same value is
read. Reading and writing once more, or any number of times, gives that literal again. -/
theorem decode_encode_of_decode {j : Json} {v : Value} (h : decode j = .ok v) :
    v.requireFinite = .ok () ∧ decode v.encode = .ok v ∧
      ∀ n, rewrittenTimes (n + 1) j = .ok v.encode := by
  obtain ⟨hfinite, hdecode⟩ := isSettled_of_decode h
  refine ⟨hfinite, hdecode, fun n => ?_⟩
  rw [rewrittenTimes_succ (rewritten_of_decode h)]
  exact rewrittenTimes_of_rewritten (rewritten_of_decode hdecode) n

/-- A leap second in lower case, with ten places and at minus zero hours, among other members. -/
def looseLeapSecond : Json :=
  .obj [("note", .null), ("type", .str "datetime"),
    ("val", .str "2016-12-31t23:59:60.5000000009-00:00")]

/-- It is settled as the literal in universal time with three places. -/
theorem decode_encode_looseLeapSecond : ∃ t, decode looseLeapSecond = .ok (dateTime t) ∧
    t.iso = "2016-12-31T23:59:60.500+00:00" ∧ (dateTime t).requireFinite = .ok () ∧
    decode (dateTime t).encode = .ok (dateTime t) ∧
    ∀ n, rewrittenTimes (n + 1) looseLeapSecond = .ok (dateTime t).encode := by
  have hparse : Rfc3339.parse? "2016-12-31t23:59:60.5000000009-00:00" =
      some ⟨⟨2016, 12, 31, by decide⟩, ⟨23, 59, 59, 1500000000, by decide⟩, .utc⟩ := by
    decide +kernel
  have hread : decode looseLeapSecond = .ok (dateTime
      ⟨⟨2016, 12, 31, by decide⟩, ⟨23, 59, 59, 1500000000, by decide⟩, .utc⟩) := by
    have htag : looseLeapSecond.get? "type" = some (.str "datetime") := rfl
    have hval : looseLeapSecond.get? "val" =
        some (.str "2016-12-31t23:59:60.5000000009-00:00") := rfl
    rw [decode, htag, hval]
    simp only [decodeContent, Json.str?, Option.bind_some, hparse]
    rfl
  exact ⟨_, hread, by decide +kernel, decode_encode_of_decode hread⟩

end Value

end EventSearch
