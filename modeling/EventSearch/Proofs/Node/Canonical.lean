import EventSearch.Proofs.Node.Reachable
import EventSearch.Proofs.Span.Intersection

/-!
# The form of patterns that can be built

At every depth of a pattern that can be built, constraints ask for a length that is possible,
and they stand around what cannot be taken in any further. No disjunction is a member of
a disjunction and no sequence a step of one. A switch describes two events or more, each by
conditions on the event alone.
-/
namespace EventSearch

/-- The length, if any, is no range without bounds and none with its bounds the wrong way round. -/
def Constraints.IsProper (k : Constraints) : Prop := ∀ l ∈ k.length, l.IsProper

theorem Constraints.isProper_empty : Constraints.empty.IsProper := by
  intro l hl
  cases hl

theorem Constraints.IsProper.ordered {k : Constraints} (hk : k.IsProper) {l : Length}
    (hl : l ∈ k.length) : l.isUnbounded = false ∧
      ∀ min max, l = .range (some min) (some max) → min.compareLength max ≠ .gt := by
  have hproper := hk l hl
  constructor
  · cases l with
    | exactly d => rfl
    | range low high =>
        cases low <;> cases high <;> simp_all [Length.IsProper, Length.isUnbounded]
  · rintro min max rfl
    exact (Duration.compareLength_ne_gt min max).2 (hproper.2 min rfl max rfl)

theorem Condition.exists_event_of_isBound {c : Condition} (h : c.isBound = false) :
    ∃ path, c.path = .event path := by
  unfold Condition.isBound Condition.stream? PathRef.stream? at h
  split at h
  · next path hpath => exact ⟨path, hpath⟩
  · cases h

/-- The structure that a switch is checked for. -/
def Switch.IsProper (s : Switch) : Prop :=
  2 ≤ s.groups.length ∧ ∀ g ∈ s.groups, g ≠ [] ∧ ∀ c ∈ g, c.isBound = false

namespace Switch

variable {groups : List (List Condition)} {s bound : Switch} {stream : Stream}

theorem groupFault?_eq_none_iff {index : Nat} {group : List Condition} :
    groupFault? index group = none ↔ group ≠ [] ∧ ∀ c ∈ group, c.isBound = false := by
  cases group with
  | nil => simp [groupFault?]
  | cons c rest => simp [groupFault?]

theorem fault?_eq_none_iff {index : Nat} :
    fault? index groups = none ↔ ∀ g ∈ groups, g ≠ [] ∧ ∀ c ∈ g, c.isBound = false := by
  induction groups generalizing index with
  | nil => simp [fault?]
  | cons group rest ih =>
      rw [fault?, Option.or_eq_none_iff, groupFault?_eq_none_iff, ih, List.forall_mem_cons]

/-- A switch is made of what has its structure, and has no stream at first. -/
theorem make_eq_ok_iff : make groups = .ok s ↔ s = ⟨none, groups⟩ ∧ s.IsProper := by
  unfold make
  split
  · next hlen =>
      refine ⟨nofun, ?_⟩
      rintro ⟨rfl, hproper⟩
      exact absurd hlen (Nat.not_lt_of_le hproper.1)
  · next hlen =>
      have hproper : IsProper ⟨none, groups⟩ ↔ fault? 0 groups = none := by
        rw [fault?_eq_none_iff, IsProper]
        exact and_iff_right (Nat.le_of_not_lt hlen)
      split
      · next e hfault =>
          refine ⟨nofun, ?_⟩
          rintro ⟨rfl, h⟩
          rw [hproper.1 h] at hfault
          cases hfault
      · next hfault =>
          constructor
          · intro h
            cases h
            exact ⟨rfl, hproper.2 hfault⟩
          · rintro ⟨rfl, -⟩
            rfl

theorem bind_eq_ok_iff :
    s.bind stream = .ok bound ↔ s.stream = none ∧ bound = { s with stream := some stream } := by
  unfold bind
  split
  · next hs => simp [hs]
  · next hs => simp [hs, eq_comm]

end Switch

namespace Node

/-- Neither a conjunction nor something that is written as its only child. -/
def StandsAlone : Node → Prop
  | .and _ _ => False
  | .or children => children.length ≠ 1
  | .serial steps => steps.length ≠ 1
  | .condition _ => True
  | .group _ _ => True
  | .switch _ => True

/-- The form of a pattern, without regard to that of its parts. -/
def Canonical : Node → Prop
  | .and children k =>
      k.IsProper ∧ (k.isEmpty = false → ∀ only, children = [only] → only.StandsAlone)
  | .or children => ∀ n ∈ children, ∀ inner, n ≠ .or inner
  | .serial steps => ∀ n ∈ steps, ∀ inner, n ≠ .serial inner
  | .switch s => s.IsProper
  | .condition _ => True
  | .group _ _ => True

theorem standsAlone_of_ne {n : Node} (hand : ∀ children k, n ≠ .and children k)
    (hor : ∀ c, n ≠ .or [c]) (hserial : ∀ c, n ≠ .serial [c]) : n.StandsAlone := by
  cases n with
  | and children k => exact hand children k rfl
  | or children =>
      intro hlen
      obtain ⟨c, rfl⟩ := List.length_eq_one_iff.1 hlen
      exact hor c rfl
  | serial steps =>
      intro hlen
      obtain ⟨c, rfl⟩ := List.length_eq_one_iff.1 hlen
      exact hserial c rfl
  | _ => trivial

/-- What is taken in until it is a single pattern stands alone. -/
theorem standsAlone_of_absorb {n only : Node} {k base : Constraints}
    (h : absorb n k = .ok ([only], base)) : only.StandsAlone := by
  fun_induction absorb n k with
  | case1 k n ih => exact ih h
  | case2 k n ih => exact ih h
  | case3 k n own ih =>
      obtain ⟨merged, -, h⟩ := bind_eq_ok.1 h
      exact ih merged h
  | case4 k children own hne =>
      -- What comes out are the children of a conjunction that has no sole child.
      obtain ⟨merged, -, h⟩ := bind_eq_ok.1 h
      cases h
      exact absurd rfl (hne only)
  | case5 k n hor hserial _ hand =>
      cases h
      exact standsAlone_of_ne hand hor hserial

theorem standsAlone_of_collapse {children : List Node} {own base : Constraints} {only : Node}
    (h : collapse children own = .ok ([only], base)) : only.StandsAlone := by
  unfold collapse at h
  split at h
  · exact standsAlone_of_absorb h
  · next hne =>
      cases h
      exact absurd rfl (hne only)

theorem canonical_of_constrain {children : List Node} {own extra : Constraints} {m : Node}
    (h : constrain children own extra = .ok m) : m.Canonical := by
  obtain ⟨kept, base, k, hkept, hk, rfl⟩ := constrain_eq_ok h
  refine ⟨(Constraints.merge_eq_ok hk).length.proper, fun _ only ho => ?_⟩
  subst ho
  exact standsAlone_of_collapse hkept

theorem canonical_unconstrained (children : List Node) :
    (Node.and children .empty).Canonical :=
  ⟨Constraints.isProper_empty, fun h => absurd h (by decide)⟩

theorem canonical_of_conjunction {members : List Node}
    (h : ∀ n ∈ members, Throughout Canonical n) : (conjunction members).Canonical := by
  rcases conjunction_cases members with ⟨n, hn, hc⟩ | ⟨children, he, -⟩
  · exact h n hn _ hc
  · exact he ▸ canonical_unconstrained children

/-- What a pattern contributes to a disjunction is no disjunction itself. -/
theorem ne_or_of_mem_disjuncts {n c : Node} (h : n.Canonical) (hc : c ∈ n.disjuncts)
    (inner : List Node) : c ≠ .or inner := by
  unfold disjuncts at hc
  split at hc
  · exact h c hc inner
  · next hne =>
      cases List.mem_singleton.1 hc
      exact hne inner

theorem ne_serial_of_mem_steps {n c : Node} (h : n.Canonical) (hc : c ∈ n.steps)
    (inner : List Node) : c ≠ .serial inner := by
  unfold steps at hc
  split at hc
  · exact h c hc inner
  · next hne =>
      cases List.mem_singleton.1 hc
      exact hne inner

theorem canonical_of_thenWithGap {first next m : Node} {gap : Constraints}
    (hfirst : first.Canonical) (hnext : next.Canonical)
    (h : first.thenWithGap gap next = .ok m) : m.Canonical := by
  obtain ⟨step, rest, joined, hsteps, hjoined, rfl⟩ := thenWithGap_eq_ok h
  intro c hc inner
  rcases List.mem_append.1 hc with hc | hc
  · exact ne_serial_of_mem_steps hfirst hc inner
  · rcases List.mem_cons.1 hc with rfl | hc
    · obtain ⟨kept, base, k, -, -, rfl⟩ := constrain_eq_ok hjoined
      exact Node.noConfusion
    · exact ne_serial_of_mem_steps hnext (by simp [hsteps, hc]) inner

theorem preserved_canonical : Preserved Canonical where
  condition _ := trivial
  conjunction _ h := canonical_of_conjunction h
  wrap _ := canonical_unconstrained _
  constrain _ hm := canonical_of_constrain hm
  disjunction members h c hc inner := by
    obtain ⟨n, hn, hc⟩ := List.mem_flatMap.1 hc
    exact ne_or_of_mem_disjuncts (h n hn).self hc inner
  group _ _ _ := trivial
  sequence members h c hc inner := by
    obtain ⟨n, hn, hc⟩ := List.mem_flatMap.1 hc
    exact ne_serial_of_mem_steps (h n hn).self hc inner
  thenWithGap hfirst hnext hm := canonical_of_thenWithGap hfirst.self hnext.self hm
  switch hs := (Switch.make_eq_ok_iff.1 hs).2
  bind h hs := by
    obtain ⟨-, rfl⟩ := Switch.bind_eq_ok_iff.1 hs
    exact h

/-- At every depth of a pattern that can be built, lengths are possible, constraints stand around
what stands alone, disjunctions and sequences are flat, and switches are complete. -/
theorem Reachable.form_of_occurs {n m : Node} (hn : Reachable n) (hm : Occurs m n) :
    (∀ children k, m = .and children k →
      (∀ l ∈ k.length, l.isUnbounded = false ∧
        ∀ min max, l = .range (some min) (some max) → min.compareLength max ≠ .gt) ∧
      (k.isEmpty = false →
        children.length ≠ 1 ∨ ∃ only, children = [only] ∧ only.StandsAlone)) ∧
    (∀ children, m = .or children → ∀ c ∈ children, ∀ inner, c ≠ .or inner) ∧
    (∀ steps, m = .serial steps → ∀ c ∈ steps, ∀ inner, c ≠ .serial inner) ∧
    (∀ s, m = .switch s →
      2 ≤ s.groups.length ∧
        ∀ g ∈ s.groups, g ≠ [] ∧ ∀ c ∈ g, ∃ path, c.path = .event path) := by
  have hcanonical := hn.throughout preserved_canonical m hm
  refine ⟨?_, ?_, ?_, ?_⟩
  · rintro children k rfl
    refine ⟨fun l hl => hcanonical.1.ordered hl, fun hk => ?_⟩
    by_cases hlen : children.length = 1
    · obtain ⟨only, rfl⟩ := List.length_eq_one_iff.1 hlen
      exact .inr ⟨only, rfl, hcanonical.2 hk only rfl⟩
    · exact .inl hlen
  · rintro children rfl
    exact hcanonical
  · rintro steps rfl
    exact hcanonical
  · rintro s rfl
    refine ⟨hcanonical.1, fun g hg => ⟨(hcanonical.2 g hg).1, fun c hc => ?_⟩⟩
    exact Condition.exists_event_of_isBound ((hcanonical.2 g hg).2 c hc)

/-- The constraints on the last step of the start stand around a disjunction of two members. -/
theorem form_of_cruise : Occurs cruise start ∧ upperGear.StandsAlone ∧
    (Length.atLeast { minutes := 5 }).isUnbounded = false := by
  have hcruise : Occurs cruise start := .of_mem_parts (by simp [start, parts])
  obtain ⟨hand, -⟩ := Reachable.form_of_occurs reachable_start hcruise
  obtain ⟨hlength, hchildren⟩ := hand [upperGear] _ rfl
  refine ⟨hcruise, ?_, (hlength _ rfl).1⟩
  rcases hchildren rfl with hlen | ⟨only, honly, halone⟩
  · exact absurd rfl hlen
  · cases honly
    exact halone

end Node

end EventSearch
