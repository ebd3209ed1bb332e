import EventSearch.Stream

/-!
# Equality of streams

Values are compared by what they denote: doubles as numbers, of which the two zeros are one and
what is not a number equals nothing, and points in time as instants. The doubles of a filter
are finite, so filters are equal exactly when they ask for the same by these denotations. With
the name this makes up the identity of a stream, and streams are the same exactly when their
identities are.
-/
namespace EventSearch

namespace Double

/-- A representative of the number, with one zero for both. -/
def denoted (d : Double) : Double := if d.isZero then zero false else d

theorem isNaN_of_isFinite {d : Double} (h : d.isFinite = true) : d.isNaN = false := by
  rw [isFinite, decide_eq_true_eq] at h
  rw [isNaN, decide_eq_false_iff_not]
  omega

theorem numEq_iff {a b : Double} (ha : a.isFinite = true) :
    a.numEq b = true ↔ a.denoted = b.denoted := by
  have hnumber : (!a.isNaN) = true := by rw [isNaN_of_isFinite ha, Bool.not_false]
  rw [numEq, hnumber, Bool.true_and, Bool.or_eq_true, Bool.and_eq_true, beq_iff_eq, denoted,
    denoted]
  by_cases hzero : a.isZero = true <;> by_cases hzero' : b.isZero = true
  · simp [hzero, hzero']
  · -- Only a zero is represented by the zero that stands for both.
    have hne : zero false ≠ b := by
      rintro rfl
      exact hzero' (by decide)
    have hne' : a ≠ b := by
      rintro rfl
      exact hzero' hzero
    simp [hzero, hzero', hne, hne']
  · have hne : a ≠ zero false := by
      rintro rfl
      exact hzero (by decide)
    have hne' : a ≠ b := by
      rintro rfl
      exact hzero hzero'
    simp [hzero, hzero', hne, hne']
  · simp [hzero, hzero']

end Double

namespace Point

def denoted (p : Point) : Point := ⟨p.lat.denoted, p.lon.denoted⟩

theorem numEq_iff {p q : Point} (hp : ∀ d ∈ p.coordinates, d.isFinite = true) :
    p.numEq q = true ↔ p.denoted = q.denoted := by
  have hlat : p.lat.isFinite = true := hp _ (by simp [coordinates])
  have hlon : p.lon.isFinite = true := hp _ (by simp [coordinates])
  rw [numEq, Bool.and_eq_true, Double.numEq_iff hlat, Double.numEq_iff hlon, denoted, denoted,
    Point.mk.injEq]

end Point

namespace Region

def denoted : Region → Region
  | .circle center radius => .circle center.denoted radius.denoted
  | .polygon points => .polygon (points.map Point.denoted)

theorem pointsEq_iff {ps qs : List Point}
    (hps : ∀ p ∈ ps, ∀ d ∈ p.coordinates, d.isFinite = true) :
    pointsEq ps qs = true ↔ ps.map Point.denoted = qs.map Point.denoted := by
  induction ps generalizing qs with
  | nil => cases qs <;> simp [pointsEq]
  | cons p rest ih =>
      cases qs with
      | nil => simp [pointsEq]
      | cons q more =>
          have hp : p.numEq q = true ↔ p.denoted = q.denoted :=
            Point.numEq_iff (hps p List.mem_cons_self)
          have hrest : pointsEq rest more = true ↔
              rest.map Point.denoted = more.map Point.denoted :=
            ih fun r hr => hps r (List.mem_cons_of_mem p hr)
          rw [pointsEq, Bool.and_eq_true, hp, hrest, List.map_cons, List.map_cons,
            List.cons.injEq]

theorem numEq_iff {a b : Region} (ha : ∀ d ∈ a.coordinates, d.isFinite = true) :
    a.numEq b = true ↔ a.denoted = b.denoted := by
  cases a with
  | circle center radius =>
      have hradius : radius.isFinite = true := ha _ (by simp [coordinates])
      have hcenter : ∀ d ∈ center.coordinates, d.isFinite = true := by
        intro d hd
        exact ha d (by simp [coordinates, hd])
      cases b with
      | circle center' radius' =>
          rw [numEq, Bool.and_eq_true, Point.numEq_iff hcenter, Double.numEq_iff hradius, denoted,
            denoted, circle.injEq]
      | polygon points => simp [numEq, denoted]
  | polygon points =>
      have hpoints : ∀ p ∈ points, ∀ d ∈ p.coordinates, d.isFinite = true := by
        intro p hp d hd
        exact ha d (List.mem_flatMap.2 ⟨p, hp, hd⟩)
      cases b with
      | circle center radius => simp [numEq, denoted]
      | polygon points' =>
          rw [numEq, pointsEq_iff hpoints, denoted, denoted, polygon.injEq]

end Region

namespace Value

/-- The value with its numbers replaced by their representatives, or the instant of a point in
time. -/
def denoted : Value → Value ⊕ Instant
  | .double d => .inl (.double d.denoted)
  | .region r => .inl (.region r.denoted)
  | .dateTime t => .inr t.instant
  | v => .inl v

theorem same_iff {a b : Value} (ha : a.isFinite = true) :
    a.same b = true ↔ a.denoted = b.denoted := by
  have hdoubles : ∀ d ∈ a.doubles, d.isFinite = true := List.all_eq_true.1 ha
  cases a with
  | double d =>
      have hd : d.isFinite = true := hdoubles d (by simp [doubles])
      cases b with
      | double d' => simp only [same, Double.numEq_iff hd, denoted, Sum.inl.injEq, double.injEq]
      | _ => simp [same, denoted]
  | region r =>
      cases b with
      | region r' =>
          simp only [same, Region.numEq_iff hdoubles, denoted, Sum.inl.injEq, region.injEq]
      | _ => simp [same, denoted]
  | _ => cases b <;> simp [same, denoted]

end Value

namespace Argument

theorem valuesSame_iff {as bs : List Value} (has : ∀ v ∈ as, v.isFinite = true) :
    valuesSame as bs = true ↔ as.map Value.denoted = bs.map Value.denoted := by
  induction as generalizing bs with
  | nil => cases bs <;> simp [valuesSame]
  | cons a rest ih =>
      cases bs with
      | nil => simp [valuesSame]
      | cons b more =>
          have ha : a.same b = true ↔ a.denoted = b.denoted :=
            Value.same_iff (has a List.mem_cons_self)
          have hrest : valuesSame rest more = true ↔
              rest.map Value.denoted = more.map Value.denoted :=
            ih fun v hv => has v (List.mem_cons_of_mem a hv)
          rw [valuesSame, Bool.and_eq_true, ha, hrest, List.map_cons, List.map_cons,
            List.cons.injEq]

theorem same_iff {a b : Argument} (ha : ∀ v ∈ a.values, v.isFinite = true) :
    a.same b = true ↔
      a.isSet = b.isSet ∧ a.values.map Value.denoted = b.values.map Value.denoted := by
  cases a with
  | value v =>
      have hv : v.isFinite = true := ha v (by simp [values])
      cases b <;> simp [same, isSet, values, Value.same_iff hv]
  | set vs =>
      have hvs : ∀ v ∈ vs, v.isFinite = true := ha
      cases b <;> simp [same, isSet, values, valuesSame_iff hvs]

end Argument

namespace EventCondition

/-- The path and the operator, and what the argument denotes. -/
def denoted (c : EventCondition) : EventPath × Operator × Bool × List (Value ⊕ Instant) :=
  (c.path, c.test.op, c.test.arg.isSet, c.test.arg.values.map Value.denoted)

theorem same_iff (c d : EventCondition) : c.same d = true ↔ c.denoted = d.denoted := by
  rw [same, Test.same, Bool.and_eq_true, Bool.and_eq_true,
    Argument.same_iff c.test.admissible.finite, beq_iff_eq, beq_iff_eq]
  simp only [denoted, Prod.mk.injEq]

end EventCondition

namespace Stream

/-- What tells a stream from others: its name, and what its filter asks for. -/
def identity (s : Stream) :
    String × Option (EventPath × Operator × Bool × List (Value ⊕ Instant)) :=
  (s.name, s.filter.map EventCondition.denoted)

theorem same_iff (s t : Stream) : s.same t = true ↔ s.identity = t.identity := by
  rw [same, Bool.and_eq_true, beq_iff_eq, identity, identity, Prod.mk.injEq]
  cases s.filter <;> cases t.filter <;> simp [EventCondition.same_iff]

/-- Being the same stream is an equivalence, as no filter compares with what is not a number. -/
theorem equivalence_same : Equivalence fun s t : Stream => s.same t = true where
  refl s := (same_iff s s).2 rfl
  symm h := (same_iff _ _).2 ((same_iff _ _).1 h).symm
  trans h h' := (same_iff _ _).2 (((same_iff _ _).1 h).trans ((same_iff _ _).1 h'))

theorem same_comm (s t : Stream) : s.same t = t.same s := by
  rw [Bool.eq_iff_iff]
  exact ⟨equivalence_same.symm, equivalence_same.symm⟩

theorem same_congr {s t : Stream} (h : s.same t = true) (u : Stream) : u.same s = u.same t := by
  rw [Bool.eq_iff_iff, same_iff, same_iff, (same_iff s t).1 h]

end Stream

end EventSearch
