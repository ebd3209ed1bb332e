import EventSearch.Proofs.Outcome
import EventSearch.Span.Merge

/-!
# Merging is intersection

A set of constraints admits some gaps and some lengths, and durations count by their lengths
only. Two sets are merged into the one that admits what both of them admit. Merging fails
exactly when there is no length that both admit, and it makes up no bounds of its own: each
duration of the result stands at the same place in one of the two sets.
-/
namespace EventSearch

namespace Duration

theorem compareLength_ne_lt (a b : Duration) : a.compareLength b ≠ .lt ↔ b.length ≤ a.length := by
  rw [compareLength, ← UInt64.not_lt, ne_eq, Std.compare_eq_lt]

theorem compareLength_ne_gt (a b : Duration) : a.compareLength b ≠ .gt ↔ a.length ≤ b.length := by
  rw [compareLength, ← UInt64.not_lt, ne_eq, Std.compare_eq_gt]

/-- Not shorter than the bound, if there is one. -/
def AtLeast (low : Option Duration) (d : Duration) : Prop :=
  ∀ bound ∈ low, d.compareLength bound ≠ .lt

/-- Not longer than the bound, if there is one. -/
def AtMost (high : Option Duration) (d : Duration) : Prop :=
  ∀ bound ∈ high, d.compareLength bound ≠ .gt

@[simp] theorem atLeast_none (d : Duration) : AtLeast none d := by simp [AtLeast]

@[simp] theorem atMost_none (d : Duration) : AtMost none d := by simp [AtMost]

@[simp] theorem atLeast_some (bound d : Duration) :
    AtLeast (some bound) d ↔ bound.length ≤ d.length := by
  rw [← compareLength_ne_lt]
  simp [AtLeast]

@[simp] theorem atMost_some (bound d : Duration) :
    AtMost (some bound) d ↔ d.length ≤ bound.length := by
  rw [← compareLength_ne_gt]
  simp [AtMost]

theorem shortest_eq_or (a b : Duration) : a.shortest b = a ∨ a.shortest b = b := by
  unfold shortest
  split <;> simp

theorem longest_eq_or (a b : Duration) : a.longest b = a ∨ a.longest b = b := by
  unfold longest
  split <;> simp

theorem le_length_shortest (a b d : Duration) :
    d.length ≤ (a.shortest b).length ↔ d.length ≤ a.length ∧ d.length ≤ b.length := by
  unfold shortest
  split
  · next h =>
      have hba : b.length ≤ a.length := UInt64.le_of_lt h
      constructor
      · intro hd
        exact ⟨UInt64.le_trans hd hba, hd⟩
      · exact And.right
  · next h =>
      have hab : a.length ≤ b.length := UInt64.not_lt.1 h
      constructor
      · intro hd
        exact ⟨hd, UInt64.le_trans hd hab⟩
      · exact And.left

theorem length_longest_le (a b d : Duration) :
    (a.longest b).length ≤ d.length ↔ a.length ≤ d.length ∧ b.length ≤ d.length := by
  unfold longest
  split
  · next h =>
      have hab : a.length ≤ b.length := UInt64.le_of_lt h
      constructor
      · intro hd
        exact ⟨UInt64.le_trans hab hd, hd⟩
      · exact And.right
  · next h =>
      have hba : b.length ≤ a.length := UInt64.not_lt.1 h
      constructor
      · intro hd
        exact ⟨hd, UInt64.le_trans hba hd⟩
      · exact And.left

end Duration

namespace Length

open Duration

theorem atMost_combine (high high' : Option Duration) (d : Duration) :
    AtMost (combine shortest high high') d ↔ AtMost high d ∧ AtMost high' d := by
  cases high <;> cases high' <;> simp [combine, le_length_shortest]

theorem atLeast_combine (low low' : Option Duration) (d : Duration) :
    AtLeast (combine longest low low') d ↔ AtLeast low d ∧ AtLeast low' d := by
  cases low <;> cases low' <;> simp [combine, length_longest_le]

/-- A choice between two durations brings in no third one. -/
theorem combine_eq_some {choose : Duration → Duration → Duration}
    (h : ∀ a b, choose a b = a ∨ choose a b = b) {left right : Option Duration} {d : Duration}
    (hd : combine choose left right = some d) : left = some d ∨ right = some d := by
  cases left with
  | none => exact .inr hd
  | some a =>
      cases right with
      | none => exact .inl hd
      | some b =>
          have he : choose a b = d := Option.some.inj hd
          rcases h a b with h | h
          · exact .inl (by rw [← he, h])
          · exact .inr (by rw [← he, h])

/-- Admitted by the constraint, if there is one. -/
def Admitted (l : Option Length) (d : Duration) : Prop := ∀ r ∈ l, r.admits d = true

@[simp] theorem admitted_none (d : Duration) : Admitted none d := by simp [Admitted]

theorem admitted_some (l : Length) (d : Duration) : Admitted (some l) d ↔ l.admits d = true := by
  simp [Admitted]

@[simp] theorem admitted_exactly (exact d : Duration) :
    Admitted (some (.exactly exact)) d ↔ exact.length = d.length := by
  rw [admitted_some, admits, beq_iff_eq]

theorem all_le_length (low : Option Duration) (d : Duration) :
    low.all (fun min => min.length ≤ d.length) = true ↔ AtLeast low d := by
  cases low with
  | none => simp
  | some min => rw [Option.all_some, decide_eq_true_iff, atLeast_some]

theorem all_length_le (high : Option Duration) (d : Duration) :
    high.all (fun max => d.length ≤ max.length) = true ↔ AtMost high d := by
  cases high with
  | none => simp
  | some max => rw [Option.all_some, decide_eq_true_iff, atMost_some]

@[simp] theorem admitted_range (low high : Option Duration) (d : Duration) :
    Admitted (some (.range low high)) d ↔ AtLeast low d ∧ AtMost high d := by
  rw [admitted_some, admits, Bool.and_eq_true, all_le_length, all_length_le]

/-- A range has a bound, and its bounds are in order. -/
def IsProper : Length → Prop
  | .exactly _ => True
  | .range low high =>
      (low.isSome ∨ high.isSome) ∧ ∀ min ∈ low, ∀ max ∈ high, min.length ≤ max.length

/-- A bound of a proper range is admitted by it. -/
theorem IsProper.admitted {l : Length} (h : l.IsProper) : ∃ d, Admitted (some l) d := by
  match l with
  | .exactly d => exact ⟨d, by simp⟩
  | .range (some low) (some high) => exact ⟨low, by simpa using h.2⟩
  | .range (some low) none => exact ⟨low, by simp⟩
  | .range none (some high) => exact ⟨high, by simp⟩
  | .range none none => simp [IsProper] at h

/-- Some length is admitted by what is proper or missing. -/
theorem exists_admitted {l : Option Length} (h : ∀ r ∈ l, r.IsProper) : ∃ d, Admitted l d := by
  cases l with
  | none => exact ⟨.zero, admitted_none _⟩
  | some r => exact (h r rfl).admitted

end Length

/-- Where constraints hold a duration. -/
inductive Place where
  | within | after | exactly | atLeast | atMost
deriving DecidableEq, Repr

namespace Length

open Duration

def durationAt : Length → Place → Option Duration
  | .exactly d, .exactly => some d
  | .range low _, .atLeast => low
  | .range _ high, .atMost => high
  | _, _ => none

/-- What a constraint that may be missing holds at a place. -/
def heldAt (l : Option Length) (place : Place) : Option Duration := l.bind (·.durationAt place)

/-- The last constraint is what the first two amount to together. An exact length stays exact,
and every duration comes from the same place of one of the two. -/
structure IsIntersection (left right both : Option Length) : Prop where
  proper : ∀ l ∈ both, l.IsProper
  admitted : ∀ d, Admitted both d ↔ Admitted left d ∧ Admitted right d
  exact : (heldAt left .exactly).isSome ∨ (heldAt right .exactly).isSome →
    (heldAt both .exactly).isSome
  drawn : ∀ place d, heldAt both place = some d →
    heldAt left place = some d ∨ heldAt right place = some d

/-- The error is that of two constraints in conflict, and no length is admitted by both sides. -/
structure IsConflict (left right : Option Length) (e : QueryError) : Prop where
  conflicting : ∃ l r, e = .conflictingLengths l r
  disjoint : ∀ d, ¬(Admitted left d ∧ Admitted right d)

/-- A result is the intersection of the two sides, and an error says that there is none. -/
def Intersects (left right : Option Length) : Except QueryError (Option Length) → Prop
  | .ok both => IsIntersection left right both
  | .error e => IsConflict left right e

/-- A constraint that is proper already is its own intersection with none. -/
theorem isIntersection_self {l : Option Length} (h : ∀ r ∈ l, r.IsProper) :
    IsIntersection l none l :=
  { proper := h
    admitted := fun d => by simp
    exact := by simp [heldAt]
    drawn := fun place d hd => .inl hd }

theorem IsIntersection.symm {left right both : Option Length}
    (h : IsIntersection left right both) : IsIntersection right left both :=
  { proper := h.proper
    admitted := fun d => (h.admitted d).trans and_comm
    exact := fun he => h.exact he.symm
    drawn := fun place d hd => (h.drawn place d hd).symm }

/-- Intersections of intersections with none are intersections. -/
theorem IsIntersection.trans {left left' right right' both : Option Length}
    (hl : IsIntersection left none left') (hr : IsIntersection right none right')
    (h : IsIntersection left' right' both) : IsIntersection left right both where
  proper := h.proper
  admitted d := by
    have hleft := hl.admitted d
    have hright := hr.admitted d
    simp only [admitted_none, and_true] at hleft hright
    rw [h.admitted, hleft, hright]
  exact he := h.exact (he.imp (fun hx => hl.exact (.inl hx)) fun hx => hr.exact (.inl hx))
  drawn place d hd := by
    have hnone : heldAt none place = none := rfl
    rcases h.drawn place d hd with hd | hd
    · exact .inl ((hl.drawn place d hd).resolve_right (by simp [hnone]))
    · exact .inr ((hr.drawn place d hd).resolve_right (by simp [hnone]))

/-- What is not admitted by a normal form is not admitted before it either. -/
theorem IsConflict.trans {left left' right right' : Option Length} {e : QueryError}
    (hl : IsIntersection left none left') (hr : IsIntersection right none right')
    (h : IsConflict left' right' e) : IsConflict left right e where
  conflicting := h.conflicting
  disjoint d hd := h.disjoint d
    ⟨(hl.admitted d).2 ⟨hd.1, admitted_none d⟩, (hr.admitted d).2 ⟨hd.2, admitted_none d⟩⟩

theorem normalize_intersects (l : Option Length) : Intersects l none (normalize l) := by
  match l with
  | none => exact isIntersection_self (by simp)
  | some (.exactly d) => exact isIntersection_self (by simp [IsProper])
  | some (.range none none) =>
      exact
        { proper := by simp
          admitted := fun d => by simp
          exact := by simp [heldAt, durationAt]
          drawn := fun place d hd => .inr hd }
  | some (.range (some low) none) => exact isIntersection_self (by simp [IsProper])
  | some (.range none (some high)) => exact isIntersection_self (by simp [IsProper])
  | some (.range (some low) (some high)) =>
      rw [normalize]
      split
      · next h =>
          refine ⟨⟨_, _, rfl⟩, fun d hd => ?_⟩
          have hb := (admitted_range _ _ d).1 hd.1
          simp only [atLeast_some, atMost_some] at hb
          have hle : low.length ≤ high.length := UInt64.le_trans hb.1 hb.2
          exact UInt64.not_lt.2 hle h
      · next h =>
          have hle : low.length ≤ high.length := UInt64.not_lt.1 h
          exact isIntersection_self (by simpa [IsProper, between] using hle)

/-- Durations of equal length are admitted alike. -/
theorem Admitted.congr {l : Option Length} {d d' : Duration} (h : Admitted l d)
    (hd : d.length = d'.length) : Admitted l d' := by
  match l with
  | none => simp
  | some (.exactly _) => simpa [hd] using h
  | some (.range low high) => cases low <;> cases high <;> simp_all

theorem keepExact_intersects (exact : Duration) (low high : Option Duration) :
    Intersects (some (.exactly exact)) (some (.range low high))
      (keepExact exact (.range low high)) := by
  rw [keepExact]
  split
  · next h =>
      have hr : Admitted (some (.range low high)) exact := (admitted_some _ _).2 h
      -- Durations as long as the exact one lie within the same bounds.
      exact
        { proper := by simp [IsProper]
          admitted := fun d => by
            simp only [admitted_exactly]
            exact ⟨fun hd => ⟨hd, hr.congr hd⟩, And.left⟩
          exact := by simp [heldAt, durationAt]
          drawn := fun place d hd => .inl hd }
  · next h =>
      refine ⟨⟨_, _, rfl⟩, fun d hd => h ?_⟩
      have hlen : exact.length = d.length := (admitted_exactly _ _).1 hd.1
      have hr : Admitted (some (.range low high)) exact := hd.2.congr hlen.symm
      exact (admitted_some _ _).1 hr

theorem heldAt_range (low high : Option Duration) (place : Place) :
    heldAt (some (.range low high)) place =
      match place with
      | .atLeast => low
      | .atMost => high
      | _ => none := by
  cases place <;> rfl

theorem combine_isSome {choose : Duration → Duration → Duration} {left : Option Duration}
    (h : left.isSome) (right : Option Duration) : (combine choose left right).isSome := by
  cases left <;> cases right <;> simp_all [combine]

/-- The tighter bounds of two ranges, when they are in order. -/
theorem isIntersection_range {low high low' high' : Option Duration}
    (h : IsProper (.range low high))
    (ordered : ∀ min ∈ combine longest low low', ∀ max ∈ combine shortest high high',
      min.length ≤ max.length) :
    IsIntersection (some (.range low high)) (some (.range low' high'))
      (some (.range (combine longest low low') (combine shortest high high'))) where
  proper l hl := by
    cases hl
    exact ⟨h.1.imp (combine_isSome · low') (combine_isSome · high'), ordered⟩
  admitted d := by
    simp only [admitted_range, atLeast_combine, atMost_combine]
    exact and_and_and_comm
  exact := by simp [heldAt, durationAt]
  drawn place d hd := by
    simp only [heldAt_range] at hd ⊢
    cases place with
    | atLeast => exact combine_eq_some longest_eq_or hd
    | atMost => exact combine_eq_some shortest_eq_or hd
    | _ => cases hd

theorem intersect_intersects {low high low' high' : Option Duration}
    (h : IsProper (.range low high)) :
    Intersects (some (.range low high)) (some (.range low' high'))
      (intersect (.range low high) (.range low' high') (combine longest low low')
        (combine shortest high high')) := by
  have hboth := @isIntersection_range low high low' high' h
  have hadmitted : ∀ d, Admitted (some (.range low high)) d ∧
      Admitted (some (.range low' high')) d →
      AtLeast (combine longest low low') d ∧ AtMost (combine shortest high high') d := by
    intro d hd
    simp only [admitted_range] at hd
    rw [atLeast_combine, atMost_combine]
    exact ⟨⟨hd.1.1, hd.2.1⟩, hd.1.2, hd.2.2⟩
  generalize combine longest low low' = min at *
  generalize combine shortest high high' = max at *
  unfold intersect
  split
  · next min max =>
      split
      · next hlt =>
          refine ⟨⟨_, _, rfl⟩, fun d hd => ?_⟩
          have hb := hadmitted d hd
          simp only [atLeast_some, atMost_some] at hb
          have hle : min.length ≤ max.length := UInt64.le_trans hb.1 hb.2
          exact UInt64.not_lt.2 hle hlt
      · next hle => exact hboth (by simpa using UInt64.not_lt.1 hle)
  · next hne =>
      refine hboth fun low hlow high hhigh => ?_
      exact absurd hhigh (hne low high hlow)

theorem meet_intersects {left right : Option Length} (hl : ∀ l ∈ left, l.IsProper)
    (hr : ∀ r ∈ right, r.IsProper) : Intersects left right (meet left right) := by
  match left, right with
  | none, _ => exact (isIntersection_self hr).symm
  | some _, none => exact isIntersection_self hl
  | some (.exactly a), some (.exactly b) =>
      rw [meet]
      split
      · next h =>
          exact
            { proper := hl
              admitted := fun d => by simp [← h]
              exact := by simp [heldAt, durationAt]
              drawn := fun place d hd => .inl hd }
      · next h =>
          refine ⟨⟨_, _, rfl⟩, fun d hd => h ?_⟩
          simp only [admitted_exactly] at hd
          exact hd.1.trans hd.2.symm
  | some (.exactly a), some (.range low high) => exact keepExact_intersects a low high
  | some (.range low high), some (.exactly b) =>
      have h := keepExact_intersects b low high
      rw [meet]
      revert h
      cases keepExact b (.range low high) with
      | ok both => exact IsIntersection.symm
      | error e => exact fun h => ⟨h.conflicting, fun d hd => h.disjoint d hd.symm⟩
  | some (.range low high), some (.range low' high') => exact intersect_intersects (hl _ rfl)

theorem merge_intersects (left right : Option Length) :
    Intersects left right (merge left right) := by
  have hl := normalize_intersects left
  have hr := normalize_intersects right
  rw [merge]
  cases hleft : normalize left with
  | error e =>
      rw [hleft] at hl
      exact ⟨hl.conflicting, fun d hd => hl.disjoint d ⟨hd.1, admitted_none d⟩⟩
  | ok left' =>
      cases hright : normalize right with
      | error e =>
          rw [hright] at hr
          exact ⟨hr.conflicting, fun d hd => hr.disjoint d ⟨hd.2, admitted_none d⟩⟩
      | ok right' =>
          rw [hleft] at hl
          rw [hright] at hr
          have h := meet_intersects hl.proper hr.proper
          change Intersects left right (meet left' right')
          revert h
          cases meet left' right' with
          | ok both => exact fun h => IsIntersection.trans hl hr h
          | error e => exact fun h => IsConflict.trans hl hr h

end Length

namespace Constraints

open Duration Length

/-- Whether the constraints are met by a span of a length that starts with a gap. -/
structure Satisfied (k : Constraints) (gap length : Duration) : Prop where
  within : AtMost k.within gap
  after : AtLeast k.after gap
  admitted : Admitted k.length length

/-- The duration that the constraints hold at a place. -/
def durationAt (k : Constraints) : Place → Option Duration
  | .within => k.within
  | .after => k.after
  | place => heldAt k.length place

/-- What a set of constraints has in common with two others that it is merged from. -/
structure IsMerge (a b m : Constraints) : Prop where
  within : m.within = combine shortest a.within b.within
  after : m.after = combine longest a.after b.after
  length : IsIntersection a.length b.length m.length

theorem IsMerge.satisfied {a b m : Constraints} (h : IsMerge a b m) (gap d : Duration) :
    m.Satisfied gap d ↔ a.Satisfied gap d ∧ b.Satisfied gap d := by
  have hw := atMost_combine a.within b.within gap
  have ha := atLeast_combine a.after b.after gap
  have hl := h.length.admitted d
  rw [← h.within] at hw
  rw [← h.after] at ha
  constructor
  · intro hm
    obtain ⟨hwa, hwb⟩ := hw.1 hm.within
    obtain ⟨haa, hab⟩ := ha.1 hm.after
    obtain ⟨hla, hlb⟩ := hl.1 hm.admitted
    exact ⟨⟨hwa, haa, hla⟩, hwb, hab, hlb⟩
  · rintro ⟨hma, hmb⟩
    exact ⟨hw.2 ⟨hma.within, hmb.within⟩, ha.2 ⟨hma.after, hmb.after⟩,
      hl.2 ⟨hma.admitted, hmb.admitted⟩⟩

theorem IsMerge.drawn {a b m : Constraints} (h : IsMerge a b m) {place : Place} {d : Duration}
    (hd : m.durationAt place = some d) :
    a.durationAt place = some d ∨ b.durationAt place = some d := by
  cases place with
  | within => exact combine_eq_some shortest_eq_or (h.within ▸ hd)
  | after => exact combine_eq_some longest_eq_or (h.after ▸ hd)
  | exactly => exact h.length.drawn _ d hd
  | atLeast => exact h.length.drawn _ d hd
  | atMost => exact h.length.drawn _ d hd

theorem merge_eq_ok {a b m : Constraints} (h : a.merge b = .ok m) : IsMerge a b m := by
  obtain ⟨both, hboth, hm⟩ := bind_eq_ok.1 h
  have hi := merge_intersects a.length b.length
  rw [hboth] at hi
  cases hm
  exact ⟨rfl, rfl, hi⟩

theorem merge_eq_error {a b : Constraints} {e : QueryError} (h : a.merge b = .error e) :
    IsConflict a.length b.length e := by
  have hi := merge_intersects a.length b.length
  rcases bind_eq_error.1 h with he | ⟨both, -, hm⟩
  · rwa [he] at hi
  · cases hm

/-- Merged constraints have a length that some span can have. -/
theorem IsMerge.exists_admitted {a b m : Constraints} (h : IsMerge a b m) :
    ∃ d, Admitted a.length d ∧ Admitted b.length d := by
  obtain ⟨d, hd⟩ := Length.exists_admitted h.length.proper
  exact ⟨d, (h.length.admitted d).1 hd⟩

/-- Merging is intersection: it fails exactly when no length is admitted by both sides, and else
admits the gaps and lengths that both admit, keeps an exact length exact and adds no duration. -/
theorem merge_eq_intersection (a b : Constraints) :
    ((∃ left right, a.merge b = .error (.conflictingLengths left right)) ↔
      ¬∃ d, Admitted a.length d ∧ Admitted b.length d) ∧
    ((∃ d, Admitted a.length d ∧ Admitted b.length d) →
      ∃ m, a.merge b = .ok m ∧
        (∀ gap d, m.Satisfied gap d ↔ a.Satisfied gap d ∧ b.Satisfied gap d) ∧
        ((a.durationAt .exactly).isSome ∨ (b.durationAt .exactly).isSome →
          (m.durationAt .exactly).isSome) ∧
        ∀ place d, m.durationAt place = some d →
          a.durationAt place = some d ∨ b.durationAt place = some d) := by
  cases h : a.merge b with
  | ok m =>
      have hm := merge_eq_ok h
      refine ⟨⟨?_, fun hno => absurd hm.exists_admitted hno⟩, fun _ => ?_⟩
      · rintro ⟨left, right, he⟩
        cases he
      · exact ⟨m, rfl, hm.satisfied, hm.length.exact, fun place d => hm.drawn⟩
  | error e =>
      have he := merge_eq_error h
      have hno : ¬∃ d, Admitted a.length d ∧ Admitted b.length d :=
        fun ⟨d, hd⟩ => he.disjoint d hd
      obtain ⟨left, right, rfl⟩ := he.conflicting
      exact ⟨⟨fun _ => hno, fun _ => ⟨left, right, rfl⟩⟩, fun hd => absurd hd hno⟩

end Constraints

end EventSearch
