import EventSearch.Proofs.Condition.Document
import EventSearch.Proofs.Time.Rfc3339

/-!
# Reading back literals

A literal is read as the value that it was written for: the same bits of each number, the same
points of a polygon in their order, the same reading of the clock at the same offset. Values
with a double that has no JSON form are left out, and so are dates.
-/
namespace EventSearch

namespace Point

theorem decode?_encode {p : Point} (h : ∀ d ∈ p.coordinates, d.isFinite = true) :
    decode? p.encode = some p := by
  have hlat : p.lat.isFinite = true := h p.lat (by simp [coordinates])
  have hlon : p.lon.isFinite = true := h p.lon (by simp [coordinates])
  rw [encode, Json.ofDouble_eq hlat, Json.ofDouble_eq hlon]
  rfl

end Point

namespace Region

theorem mapM_decode?_encode {points : List Point}
    (h : ∀ p ∈ points, ∀ d ∈ p.coordinates, d.isFinite = true) :
    (points.map Point.encode).mapM Point.decode? = some points := by
  induction points with
  | nil => rfl
  | cons p rest ih =>
      have hp := Point.decode?_encode (h p List.mem_cons_self)
      have hrest := ih fun q hq => h q (List.mem_cons_of_mem p hq)
      rw [List.map_cons, List.mapM_cons, hp, hrest]
      rfl

theorem decodeCircle?_content {center : Point} {radius : Double}
    (h : ∀ d ∈ (circle center radius).coordinates, d.isFinite = true) :
    decodeCircle? (circle center radius).content = some (circle center radius) := by
  have hradius : radius.isFinite = true := h radius (by simp [coordinates])
  have hcenter : Point.decode? center.encode = some center :=
    Point.decode?_encode fun d hd => h d (by simp [coordinates, hd])
  rw [content, Json.ofDouble_eq hradius, decodeCircle?]
  change ((Point.decode? center.encode).bind fun c => some (circle c radius)) = _
  rw [hcenter, Option.bind_some]

theorem decodePolygon?_content {points : List Point}
    (h : ∀ d ∈ (polygon points).coordinates, d.isFinite = true) :
    decodePolygon? (polygon points).content = some (polygon points) := by
  have hpoints : (points.map Point.encode).mapM Point.decode? = some points :=
    mapM_decode?_encode fun p hp d hd => h d (List.mem_flatMap.2 ⟨p, hp, hd⟩)
  change (((points.map Point.encode).mapM Point.decode?).bind fun ps => some (polygon ps)) = _
  rw [hpoints, Option.bind_some]

end Region

namespace Value

theorem isFinite_of_requireFinite {v : Value} (h : v.requireFinite = .ok ()) :
    v.isFinite = true := by
  unfold requireFinite at h
  split at h
  · cases h
  · next hnone => exact v.finiteFault?_eq_none_iff.1 hnone

theorem requireFinite_of_isFinite {v : Value} (h : v.isFinite = true) :
    v.requireFinite = .ok () := by
  rw [requireFinite, v.finiteFault?_eq_none_iff.2 h]

theorem int64?_toInt (n : Int64) : int64? n.toInt = some n := by
  have hlow : -0x8000000000000000 ≤ n.toInt := Int64.le_toInt n
  have hhigh : n.toInt < 0x8000000000000000 := Int64.toInt_lt n
  rw [int64?, if_pos ⟨hlow, hhigh⟩, Int64.ofInt_toInt]

theorem decode_literal (tag : String) (content : Json) :
    decode (literal tag content) = decodeContent (literal tag content) tag content := rfl

/-- A value is read back from its literal when each of its doubles has a JSON form, unless it is
a date, or a point in time whose year has not four digits, whose offset is not whole minutes or
whose clock shows a leap second elsewhere than at the end of a minute. -/
theorem decode_encode {v : Value} (hfinite : v.requireFinite = .ok ()) (hdate : ∀ d, v ≠ .date d)
    (htime : ∀ t, v = .dateTime t →
      0 ≤ t.date.year ∧ t.date.year ≤ 9999 ∧ t.offset.seconds % 60 = 0 ∧
        t.clock.LeapEndsMinute) :
    decode v.encode = .ok v := by
  have hdoubles : ∀ d ∈ v.doubles, d.isFinite = true :=
    List.all_eq_true.1 (isFinite_of_requireFinite hfinite)
  rw [encode, decode_literal]
  cases v with
  | bool b => rfl
  | int n =>
      simp only [decodeContent, tag, content, Json.ofInt64, int?, int64?_toInt]
      rfl
  | double d =>
      have hd : d.isFinite = true := hdoubles d (by simp [doubles])
      rw [content, Json.ofDouble_eq hd]
      rfl
  | string s => rfl
  | date d => exact absurd rfl (hdate d)
  | dateTime t =>
      obtain ⟨hlow, hhigh, hoffset, hleap⟩ := htime t rfl
      have hparse : Rfc3339.parse? t.iso = some t :=
        Rfc3339.parse?_iso ⟨hlow, hhigh⟩ hoffset hleap
      simp only [decodeContent, tag, content, Json.str?, Option.bind_some, hparse]
      rfl
  | region r =>
      cases r with
      | circle center radius =>
          have hcircle := Region.decodeCircle?_content hdoubles
          simp only [decodeContent, tag, Region.tag, content, hcircle]
      | polygon points =>
          have hpolygon := Region.decodePolygon?_content hdoubles
          simp only [decodeContent, tag, Region.tag, content, hpolygon]

/-- The middle of the leap second that ended the year 2016, on a clock five hours behind. -/
def leapSecond : DateTime :=
  ⟨⟨2016, 12, 31, by decide⟩, ⟨18, 59, 59, 1500000000, by decide⟩, ⟨-18000, by decide⟩⟩

/-- A leap second is written as second sixty and read back as it was. -/
theorem decode_encode_leapSecond : (dateTime leapSecond).requireFinite = .ok () ∧
    leapSecond.iso = "2016-12-31T18:59:60.500-05:00" ∧
    decode (dateTime leapSecond).encode = .ok (dateTime leapSecond) := by
  have hyear : 0 ≤ leapSecond.date.year ∧ leapSecond.date.year ≤ 9999 := by decide
  have hoffset : leapSecond.offset.seconds % 60 = 0 := by decide
  have hleap : leapSecond.clock.LeapEndsMinute := fun _ => rfl
  refine ⟨rfl, by decide +kernel, decode_encode rfl (fun d hd => nomatch hd) fun t ht => ?_⟩
  cases ht
  exact ⟨hyear.1, hyear.2, hoffset, hleap⟩

end Value

end EventSearch
