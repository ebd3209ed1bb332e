import EventSearch.Node.Build
import EventSearch.Proofs.Node.Occurrence
import EventSearch.Proofs.Outcome

/-!
# Patterns that can be built

A pattern can be built when it comes from conditions and switches by the operations on
patterns, in any order and to any depth. A property that each of these operations hands on
holds at every depth of every pattern that can be built. In particular, what occurs in a
pattern that can be built can be built itself.
-/
namespace EventSearch.Node

inductive Reachable : Node → Prop
  | condition (c : Condition) : Reachable (.condition c)
  | conjunction (members : List Node) :
      (∀ n ∈ members, Reachable n) → Reachable (conjunction members)
  | wrap {n : Node} : Reachable n → Reachable n.wrap
  | constrain {children : List Node} {own extra : Constraints} {m : Node} :
      Reachable (.and children own) → constrain children own extra = .ok m → Reachable m
  | disjunction (members : List Node) :
      (∀ n ∈ members, Reachable n) → Reachable (disjunction members)
  | group (mode : GroupMode) (members : List Node) :
      (∀ n ∈ members, Reachable n) → Reachable (.group mode members)
  | sequence (members : List Node) :
      (∀ n ∈ members, Reachable n) → Reachable (sequence members)
  | thenWithGap {first next m : Node} {gap : Constraints} :
      Reachable first → Reachable next → first.thenWithGap gap next = .ok m → Reachable m
  | switch {groups : List (List Condition)} {s : Switch} :
      Switch.make groups = .ok s → Reachable (.switch s)
  | bind {s bound : Switch} {stream : Stream} :
      Reachable (.switch s) → s.bind stream = .ok bound → Reachable (.switch bound)

namespace Reachable

variable {n next m : Node}

theorem constrained {extra : Constraints} (h : Reachable n) (hm : n.constrained extra = .ok m) :
    Reachable m := .constrain h.wrap hm

theorem within {gap : Duration} (h : Reachable n) (hm : n.within gap = .ok m) : Reachable m :=
  h.constrained hm

theorem after {gap : Duration} (h : Reachable n) (hm : n.after gap = .ok m) : Reachable m :=
  h.constrained hm

theorem lasting {length : Length} (h : Reachable n) (hm : n.lasting length = .ok m) :
    Reachable m := h.constrained hm

theorem andThen (h : Reachable n) (hnext : Reachable next) : Reachable (n.andThen next) :=
  .sequence _ (by simp [h, hnext])

theorem thenWithin {gap : Duration} (h : Reachable n) (hnext : Reachable next)
    (hm : n.thenWithin gap next = .ok m) : Reachable m := h.thenWithGap hnext hm

theorem thenAfter {gap : Duration} (h : Reachable n) (hnext : Reachable next)
    (hm : n.thenAfter gap next = .ok m) : Reachable m := h.thenWithGap hnext hm

theorem between {path : PathRef} {inclusive : Bool} {low high : Value}
    (hm : Node.between path inclusive low high = .ok m) : Reachable m := by
  obtain ⟨lower, -, hm⟩ := bind_eq_ok.1 hm
  obtain ⟨upper, -, hm⟩ := bind_eq_ok.1 hm
  cases hm
  exact .conjunction _ (by simp [Reachable.condition])

theorem makeBound {stream : Stream} {groups : List (List Condition)} {s : Switch}
    (hs : Switch.makeBound stream groups = .ok s) : Reachable (.switch s) := by
  obtain ⟨unbound, hunbound, hs⟩ := bind_eq_ok.1 hs
  exact .bind (.switch hunbound) hs

end Reachable

/-! ## What the operations take in -/

theorem occurs_of_mem_conjuncts {c n : Node} (h : c ∈ n.conjuncts) : Occurs c n := by
  unfold conjuncts at h
  split at h
  · split at h
    · exact .of_mem_parts h
    · cases List.mem_singleton.1 h
      exact .here
  · cases List.mem_singleton.1 h
    exact .here

theorem occurs_of_mem_disjuncts {c n : Node} (h : c ∈ n.disjuncts) : Occurs c n := by
  unfold disjuncts at h
  split at h
  · exact .of_mem_parts h
  · cases List.mem_singleton.1 h
    exact .here

theorem occurs_of_mem_steps {c n : Node} (h : c ∈ n.steps) : Occurs c n := by
  unfold steps at h
  split at h
  · exact .of_mem_parts h
  · cases List.mem_singleton.1 h
    exact .here

/-- A conjunction is one that was taken in, or one without constraints and of at most what its
members contribute. -/
theorem conjunction_cases (members : List Node) :
    (∃ n ∈ members, Occurs (conjunction members) n) ∨
      ∃ children, conjunction members = .and children .empty ∧
        ∀ c ∈ children, ∃ n ∈ members, Occurs c n := by
  have hmem : ∀ c ∈ members.flatMap conjuncts, ∃ n ∈ members, Occurs c n := by
    intro c hc
    obtain ⟨n, hn, hc⟩ := List.mem_flatMap.1 hc
    exact ⟨n, hn, occurs_of_mem_conjuncts hc⟩
  unfold conjunction
  split
  · next h => exact .inl (hmem _ (by simp [h]))
  · exact .inr ⟨[], rfl, by simp⟩
  · exact .inr ⟨_, rfl, hmem⟩

theorem occurs_of_absorb {n c : Node} {k base : Constraints} {children : List Node}
    (h : absorb n k = .ok (children, base)) (hc : c ∈ children) : Occurs c n := by
  fun_induction absorb n k with
  | case1 k n ih => exact .deeper (by simp [parts]) (ih h)
  | case2 k n ih => exact .deeper (by simp [parts]) (ih h)
  | case3 k n own ih =>
      obtain ⟨merged, -, h⟩ := bind_eq_ok.1 h
      exact .deeper (by simp [parts]) (ih merged h)
  | case4 k cs own =>
      obtain ⟨merged, -, h⟩ := bind_eq_ok.1 h
      cases h
      exact .of_mem_parts hc
  | case5 k n =>
      cases h
      cases List.mem_singleton.1 hc
      exact .here

theorem constrain_eq_ok {children : List Node} {own extra : Constraints} {m : Node}
    (h : constrain children own extra = .ok m) :
    ∃ kept base k, collapse children own = .ok (kept, base) ∧ base.merge extra = .ok k ∧
      m = .and kept k := by
  obtain ⟨⟨kept, base⟩, hkept, h⟩ := bind_eq_ok.1 h
  obtain ⟨k, hk, h⟩ := bind_eq_ok.1 h
  cases h
  exact ⟨kept, base, k, hkept, hk, rfl⟩

theorem occurs_of_collapse {children kept : List Node} {own base : Constraints} {c : Node}
    (h : collapse children own = .ok (kept, base)) (hc : c ∈ kept) :
    ∃ n ∈ children, Occurs c n := by
  unfold collapse at h
  split at h
  · next n => exact ⟨n, by simp, occurs_of_absorb h hc⟩
  · cases h
    exact ⟨c, hc, .here⟩

theorem thenWithGap_eq_ok {first next m : Node} {gap : Constraints}
    (h : first.thenWithGap gap next = .ok m) :
    ∃ step rest joined, next.steps = step :: rest ∧ step.constrained gap = .ok joined ∧
      m = .serial (first.steps ++ joined :: rest) := by
  unfold thenWithGap at h
  split at h
  · cases h
  · next step rest hsteps =>
      obtain ⟨joined, hjoined, h⟩ := bind_eq_ok.1 h
      cases h
      exact ⟨step, rest, joined, hsteps, hjoined, rfl⟩

/-! ## Properties at every depth -/

/-- Each operation hands the property on, from patterns that have it at every depth. -/
structure Preserved (P : Node → Prop) : Prop where
  condition : ∀ c, P (.condition c)
  conjunction : ∀ members, (∀ n ∈ members, Throughout P n) → P (conjunction members)
  wrap : ∀ {n}, Throughout P n → P n.wrap
  constrain : ∀ {children own extra m}, Throughout P (.and children own) →
    constrain children own extra = .ok m → P m
  disjunction : ∀ members, (∀ n ∈ members, Throughout P n) → P (disjunction members)
  group : ∀ mode members, (∀ n ∈ members, Throughout P n) → P (.group mode members)
  sequence : ∀ members, (∀ n ∈ members, Throughout P n) → P (sequence members)
  thenWithGap : ∀ {first gap next m}, Throughout P first → Throughout P next →
    first.thenWithGap gap next = .ok m → P m
  switch : ∀ {groups s}, Switch.make groups = .ok s → P (.switch s)
  bind : ∀ {s stream bound}, P (.switch s) → s.bind stream = .ok bound → P (.switch bound)

variable {P : Node → Prop}

/-- The pattern has the property when it does itself and its parts come from others that do. -/
theorem throughout_of_parts {n : Node} (members : List Node) (hn : P n)
    (hmembers : ∀ m ∈ members, Throughout P m)
    (h : ∀ c ∈ n.parts, ∃ m ∈ members, Occurs c m) : Throughout P n := by
  refine throughout_iff.2 ⟨hn, fun c hc => ?_⟩
  obtain ⟨m, hm, hc⟩ := h c hc
  exact (hmembers m hm).of_occurs hc

theorem Preserved.constrain_throughout (hP : Preserved P) {children : List Node}
    {own extra : Constraints} {m : Node} (h : Throughout P (.and children own))
    (hm : Node.constrain children own extra = .ok m) : Throughout P m := by
  have hself := hP.constrain h hm
  obtain ⟨kept, base, k, hkept, -, rfl⟩ := constrain_eq_ok hm
  have hchildren : ∀ c ∈ children, Throughout P c := by
    intro c hc
    exact h.of_mem_parts hc
  exact throughout_of_parts children hself hchildren fun c hc => occurs_of_collapse hkept hc

theorem Preserved.constrained_throughout (hP : Preserved P) {n m : Node} {extra : Constraints}
    (h : Throughout P n) (hm : n.constrained extra = .ok m) : Throughout P m := by
  have hwrap : Throughout P n.wrap :=
    throughout_of_parts [n] (hP.wrap h) (by simpa using h)
      fun c hc => ⟨c, hc, .here⟩
  exact hP.constrain_throughout hwrap hm

theorem Reachable.throughout (hP : Preserved P) {n : Node} (h : Reachable n) :
    Throughout P n := by
  induction h with
  | condition c => exact throughout_iff.2 ⟨hP.condition c, by simp [parts]⟩
  | conjunction members _ ih =>
      rcases conjunction_cases members with ⟨n, hn, hc⟩ | ⟨children, he, hc⟩
      · exact (ih n hn).of_occurs hc
      · exact throughout_of_parts members (hP.conjunction members ih) ih (by rwa [he])
  | wrap _ ih =>
      exact throughout_of_parts [_] (hP.wrap ih) (by simpa using ih)
        fun c hc => ⟨c, hc, .here⟩
  | constrain _ hm ih => exact hP.constrain_throughout ih hm
  | disjunction members _ ih =>
      refine throughout_of_parts members (hP.disjunction members ih) ih fun c hc => ?_
      obtain ⟨n, hn, hc⟩ := List.mem_flatMap.1 hc
      exact ⟨n, hn, occurs_of_mem_disjuncts hc⟩
  | group mode members _ ih =>
      exact throughout_of_parts members (hP.group mode members ih) ih fun c hc => ⟨c, hc, .here⟩
  | sequence members _ ih =>
      refine throughout_of_parts members (hP.sequence members ih) ih fun c hc => ?_
      obtain ⟨n, hn, hc⟩ := List.mem_flatMap.1 hc
      exact ⟨n, hn, occurs_of_mem_steps hc⟩
  | thenWithGap _ _ hm ihfirst ihnext =>
      have hself := hP.thenWithGap ihfirst ihnext hm
      obtain ⟨step, rest, joined, hsteps, hjoined, rfl⟩ := thenWithGap_eq_ok hm
      have hnext : ∀ c ∈ step :: rest, Throughout P c := by
        intro c hc
        have hstep : c ∈ _ := hsteps ▸ hc
        exact ihnext.of_occurs (occurs_of_mem_steps hstep)
      refine throughout_iff.2 ⟨hself, fun c hc => ?_⟩
      rcases List.mem_append.1 hc with hc | hc
      · exact ihfirst.of_occurs (occurs_of_mem_steps hc)
      · -- The step that carries the gap is built anew, and the steps after it are as before.
        rcases List.mem_cons.1 hc with rfl | hc
        · exact hP.constrained_throughout (hnext step (by simp)) hjoined
        · exact hnext c (by simp [hc])
  | switch hs => exact throughout_iff.2 ⟨hP.switch hs, by simp [parts]⟩
  | bind _ hs ih => exact throughout_iff.2 ⟨hP.bind ih.self hs, by simp [parts]⟩

theorem preserved_reachable : Preserved Reachable where
  condition := .condition
  conjunction members h := .conjunction members fun n hn => (h n hn).self
  wrap h := .wrap h.self
  constrain h hm := .constrain h.self hm
  disjunction members h := .disjunction members fun n hn => (h n hn).self
  group mode members h := .group mode members fun n hn => (h n hn).self
  sequence members h := .sequence members fun n hn => (h n hn).self
  thenWithGap hfirst hnext hm := .thenWithGap hfirst.self hnext.self hm
  switch hs := .switch hs
  bind h hs := .bind h hs

/-- What occurs in a pattern that can be built can be built. -/
theorem Reachable.of_occurs {m n : Node} (h : Reachable n) (hm : Occurs m n) : Reachable m :=
  h.throughout preserved_reachable m hm

/-! ## A car that starts -/

/-- The condition that a car is in a gear. -/
def gear (n : Int64) : Condition where
  path := .event ⟨["gear"]⟩
  test :=
    { op := .eq
      arg := .value (.int n)
      admissible := ⟨rfl, by simp [Argument.values, Value.isFinite, Value.doubles], by simp⟩ }
  grounded := rfl

def upperGear : Node := disjunction [.condition (gear 2), .condition (gear 3)]

/-- Five minutes in an upper gear, which begin after an hour. -/
def cruise : Node :=
  .and [upperGear]
    { after := some { hours := 1 }
      length := some (.atLeast { minutes := 5 }) }

/-- First gear, and upper gears an hour later. -/
def start : Node := .serial [.condition (gear 1), cruise]

theorem reachable_cruise : Reachable cruise := by
  have hgear : Reachable upperGear := .disjunction _ (by simp [Reachable.condition])
  have hlong : Reachable (.and [upperGear] { length := some (.atLeast { minutes := 5 }) }) :=
    hgear.lasting (show upperGear.lasting (.atLeast { minutes := 5 }) = .ok _ from rfl)
  exact hlong.after (show Node.after _ { hours := 1 } = .ok cruise from rfl)

theorem reachable_start : Reachable start :=
  (Reachable.condition (gear 1)).andThen reachable_cruise

end EventSearch.Node
