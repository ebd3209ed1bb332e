import EventSearch.Proofs.Node.Reachable
import Mathlib.Data.List.Basic

/-!
# Sequences with parentheses

Patterns can be put one after the other in any grouping, with or without gaps between them. A
gap is a constraint on the first step of what follows it, so the grouping cannot be seen in the
sequence: each pattern contributes its steps, the first of them under the gap before it.
Building fails when one of these constraints does.
-/
namespace EventSearch

/-- Patterns joined one after the other, with a gap between two groups if one is given. -/
inductive Arrangement where
  | single (n : Node)
  | join (left : Arrangement) (gap : Option Constraints) (right : Arrangement)

namespace Node

/-- Steps of which the first one has a further constraint. -/
def underGap (gap : Constraints) : List Node → Except QueryError (List Node)
  | [] => .error (.emptyCombinator .serial)
  | step :: rest => do .ok ((← step.constrained gap) :: rest)

/-- What a pattern becomes in a sequence: its steps, the first of them under the gap before it. -/
def contribution : Option Constraints → Node → Except QueryError (List Node)
  | none, n => .ok n.steps
  | some gap, n => underGap gap n.steps

/-- What several patterns become, each with the gap before it. -/
def laidOut : List (Option Constraints × Node) → Except QueryError (List Node)
  | [] => .ok []
  | (gap, n) :: rest => do .ok ((← contribution gap n) ++ (← laidOut rest))

theorem steps_serial (steps : List Node) : (Node.serial steps).steps = steps := rfl

theorem steps_ne_nil {n : Node} (h : n ≠ .serial []) : n.steps ≠ [] := by
  unfold steps
  split
  · rintro rfl
    exact h rfl
  · exact List.cons_ne_nil _ _

theorem underGap_cons_eq_ok {gap : Constraints} {step : Node} {rest steps : List Node} :
    underGap gap (step :: rest) = .ok steps ↔
      ∃ joined, step.constrained gap = .ok joined ∧ steps = joined :: rest := by
  rw [underGap, bind_eq_ok]
  simp only [Except.ok.injEq, eq_comm]

theorem underGap_cons_eq_error {gap : Constraints} {step : Node} {rest : List Node}
    {e : QueryError} :
    underGap gap (step :: rest) = .error e ↔ step.constrained gap = .error e := by
  rw [underGap, bind_eq_error]
  simp

/-- A gap does not reach past the first step. -/
theorem contribution_append {gap : Option Constraints} {m : Node} (hm : m.steps ≠ [])
    (more steps : List Node) :
    contribution gap (.serial (m.steps ++ more)) = .ok steps ↔
      ∃ own, contribution gap m = .ok own ∧ steps = own ++ more := by
  cases gap with
  | none =>
      simp only [contribution, steps_serial, Except.ok.injEq, exists_eq_left']
      exact eq_comm
  | some k =>
      obtain ⟨step, rest, hsteps⟩ := List.exists_cons_of_ne_nil hm
      rw [contribution, contribution, steps_serial, hsteps, List.cons_append, underGap_cons_eq_ok]
      constructor
      · rintro ⟨joined, hjoined, rfl⟩
        exact ⟨joined :: rest, underGap_cons_eq_ok.2 ⟨joined, hjoined, rfl⟩, rfl⟩
      · rintro ⟨own, hown, rfl⟩
        obtain ⟨joined, hjoined, rfl⟩ := underGap_cons_eq_ok.1 hown
        exact ⟨joined, hjoined, rfl⟩

theorem thenWithGap_eq (first : Node) (gap : Constraints) (next : Node) :
    first.thenWithGap gap next =
      (contribution (some gap) next).map fun own => .serial (first.steps ++ own) := by
  rw [thenWithGap, contribution]
  cases next.steps with
  | nil => rfl
  | cons step rest =>
      change (do .ok (Node.serial (first.steps ++ (← step.constrained gap) :: rest))) = _
      rw [underGap]
      cases step.constrained gap <;> rfl

theorem andThen_eq (first next : Node) :
    first.andThen next = .serial (first.steps ++ next.steps) := by
  simp [andThen, sequence]

theorem laidOut_append_eq_ok {left right : List (Option Constraints × Node)} {steps : List Node} :
    laidOut (left ++ right) = .ok steps ↔
      ∃ a b, laidOut left = .ok a ∧ laidOut right = .ok b ∧ steps = a ++ b := by
  induction left generalizing steps with
  | nil => simp [laidOut]
  | cons first rest ih =>
      obtain ⟨gap, n⟩ := first
      rw [List.cons_append, laidOut, laidOut]
      simp only [bind_eq_ok, ih, Except.ok.injEq]
      constructor
      · rintro ⟨own, hown, _, ⟨a, b, ha, hb, rfl⟩, rfl⟩
        exact ⟨own ++ a, b, ⟨own, hown, a, ha, rfl⟩, hb, (List.append_assoc own a b).symm⟩
      · rintro ⟨_, b, ⟨own, hown, a, ha, rfl⟩, hb, rfl⟩
        exact ⟨own, hown, a ++ b, ⟨a, b, ha, hb, rfl⟩, (List.append_assoc own a b).symm⟩

/-- Laying out fails when one of the patterns cannot take the gap before it. -/
theorem laidOut_eq_error {ls : List (Option Constraints × Node)} :
    (∃ e, laidOut ls = .error e) ↔ ∃ l ∈ ls, ∃ e, contribution l.1 l.2 = .error e := by
  induction ls with
  | nil => simp [laidOut]
  | cons first rest ih =>
      obtain ⟨gap, n⟩ := first
      rw [laidOut, List.exists_mem_cons_iff, ← ih]
      cases contribution gap n <;> cases laidOut rest <;> simp [bind, Except.bind]

/-- A pattern with steps fails to take a gap when its first step does. -/
theorem contribution_eq_error {gap : Option Constraints} {n : Node} (hn : n.steps ≠ []) :
    (∃ e, contribution gap n = .error e) ↔ ∃ k, gap = some k ∧ ∃ step rest e,
      n.steps = step :: rest ∧ step.constrained k = .error e := by
  cases gap with
  | none => simp [contribution]
  | some k =>
      obtain ⟨step, rest, hsteps⟩ := List.exists_cons_of_ne_nil hn
      simp [contribution, hsteps, underGap_cons_eq_error]

end Node

namespace Arrangement

open Node

/-- The sequence that is built group by group. -/
def build : Arrangement → Except QueryError Node
  | .single n => .ok n
  | .join left none right => do .ok ((← left.build).andThen (← right.build))
  | .join left (some gap) right => do (← left.build).thenWithGap gap (← right.build)

/-- The patterns from left to right, each with the gap before it. The first gap is the one before
all of them. -/
def operands (gap : Option Constraints) : Arrangement → List (Option Constraints × Node)
  | .single n => [(gap, n)]
  | .join left inner right => left.operands gap ++ right.operands inner

/-- A group consists of the steps on its left and of what the right becomes after the gap. -/
theorem build_join_eq_ok {left right : Arrangement} {gap : Option Constraints} {m : Node} :
    (join left gap right).build = .ok m ↔ ∃ first next own, left.build = .ok first ∧
      right.build = .ok next ∧ contribution gap next = .ok own ∧
      m = .serial (first.steps ++ own) := by
  cases gap with
  | none =>
      simp only [build, bind_eq_ok, andThen_eq, Except.ok.injEq]
      constructor
      · rintro ⟨first, hfirst, next, hnext, rfl⟩
        exact ⟨first, next, next.steps, hfirst, hnext, rfl, rfl⟩
      · rintro ⟨first, next, own, hfirst, hnext, hown, rfl⟩
        cases hown
        exact ⟨first, hfirst, next, hnext, rfl⟩
  | some k =>
      simp only [build, bind_eq_ok, thenWithGap_eq]
      constructor
      · rintro ⟨first, hfirst, next, hnext, hm⟩
        cases hown : contribution (some k) next with
        | error e =>
            rw [hown] at hm
            cases hm
        | ok own =>
            rw [hown] at hm
            cases hm
            exact ⟨first, next, own, hfirst, hnext, hown, rfl⟩
      · rintro ⟨first, next, own, hfirst, hnext, hown, rfl⟩
        refine ⟨first, hfirst, next, hnext, ?_⟩
        rw [hown]
        rfl

theorem steps_ne_nil_of_build {t : Arrangement} {gap : Option Constraints} {m : Node}
    (hne : ∀ o ∈ t.operands gap, o.2 ≠ .serial []) (h : t.build = .ok m) : m.steps ≠ [] := by
  induction t generalizing gap m with
  | single n =>
      cases h
      exact steps_ne_nil (hne _ List.mem_cons_self)
  | join left inner right ihleft _ =>
      obtain ⟨first, next, own, hfirst, -, -, rfl⟩ := build_join_eq_ok.1 h
      have hleft : ∀ o ∈ left.operands gap, o.2 ≠ .serial [] := by
        intro o ho
        exact hne o (List.mem_append_left _ ho)
      rw [steps_serial]
      exact List.append_ne_nil_of_left_ne_nil (ihleft hleft hfirst) own

/-- However the patterns are grouped, what they become after a gap is laid out from left to
right. -/
theorem laidOut_operands_eq_ok {t : Arrangement} {gap : Option Constraints} {steps : List Node}
    (hne : ∀ o ∈ t.operands gap, o.2 ≠ .serial []) :
    laidOut (t.operands gap) = .ok steps ↔
      ∃ m, t.build = .ok m ∧ contribution gap m = .ok steps := by
  -- The gap has to be any one: the right part of a group stands under the gap inside of it.
  induction t generalizing gap steps with
  | single n =>
      simp only [operands, laidOut, bind_eq_ok, build, Except.ok.injEq, List.append_nil,
        exists_eq_left', exists_eq_right]
  | join left inner right ihleft ihright =>
      have hleft : ∀ o ∈ left.operands gap, o.2 ≠ .serial [] := by
        intro o ho
        exact hne o (List.mem_append_left _ ho)
      have hright : ∀ o ∈ right.operands inner, o.2 ≠ .serial [] := by
        intro o ho
        exact hne o (List.mem_append_right _ ho)
      rw [operands, laidOut_append_eq_ok]
      constructor
      · rintro ⟨a, b, ha, hb, rfl⟩
        obtain ⟨first, hfirst, hown⟩ := (ihleft hleft).1 ha
        obtain ⟨next, hnext, hmore⟩ := (ihright hright).1 hb
        refine ⟨_, build_join_eq_ok.2 ⟨first, next, b, hfirst, hnext, hmore, rfl⟩, ?_⟩
        exact (contribution_append (steps_ne_nil_of_build hleft hfirst) b _).2 ⟨a, hown, rfl⟩
      · rintro ⟨m, hm, hsteps⟩
        obtain ⟨first, next, b, hfirst, hnext, hmore, rfl⟩ := build_join_eq_ok.1 hm
        have hfirststeps := steps_ne_nil_of_build hleft hfirst
        obtain ⟨a, hown, rfl⟩ := (contribution_append hfirststeps b steps).1 hsteps
        exact ⟨a, b, (ihleft hleft).2 ⟨first, hfirst, hown⟩,
          (ihright hright).2 ⟨next, hnext, hmore⟩, rfl⟩

/-- Two patterns or more are built into the sequence of all the steps laid out. -/
theorem build_eq_ok_iff {t : Arrangement} {m : Node} (hlen : 2 ≤ (t.operands none).length)
    (hne : ∀ o ∈ t.operands none, o.2 ≠ .serial []) :
    t.build = .ok m ↔ ∃ steps, laidOut (t.operands none) = .ok steps ∧ m = .serial steps := by
  have hlaid := @laidOut_operands_eq_ok t none
  cases t with
  | single n => exact absurd hlen (by simp [operands])
  | join left inner right =>
      constructor
      · intro hm
        obtain ⟨first, next, own, -, -, -, rfl⟩ := build_join_eq_ok.1 hm
        exact ⟨_, (hlaid hne).2 ⟨_, hm, rfl⟩, rfl⟩
      · rintro ⟨steps, hsteps, rfl⟩
        obtain ⟨m, hm, hcontribution⟩ := (hlaid hne).1 hsteps
        obtain ⟨first, next, own, -, -, -, rfl⟩ := build_join_eq_ok.1 hm
        cases hcontribution
        exact hm

theorem build_eq_error_iff {t : Arrangement} (hlen : 2 ≤ (t.operands none).length)
    (hne : ∀ o ∈ t.operands none, o.2 ≠ .serial []) :
    (∃ e, t.build = .error e) ↔ ∃ o ∈ t.operands none, ∃ e, contribution o.1 o.2 = .error e := by
  rw [← laidOut_eq_error, exists_eq_error_iff, exists_eq_error_iff]
  constructor
  · intro hbuild steps hsteps
    exact hbuild (.serial steps) ((build_eq_ok_iff hlen hne).2 ⟨steps, hsteps, rfl⟩)
  · intro hlaid m hm
    obtain ⟨steps, hsteps, -⟩ := (build_eq_ok_iff hlen hne).1 hm
    exact hlaid steps hsteps

/-- Two groupings of the same patterns with the same gaps are both the sequence of all the steps,
the first one of each pattern under the gap before it, or neither can be built. The latter is
the case exactly when one of these steps cannot be constrained by the gap before it. -/
theorem build_eq_of_operands_eq {t t' : Arrangement} (hsame : t.operands none = t'.operands none)
    (hlen : 2 ≤ (t.operands none).length) (hne : ∀ o ∈ t.operands none, o.2 ≠ .serial []) :
    ((∃ e e', t.build = .error e ∧ t'.build = .error e') ∨
      ∃ steps, laidOut (t.operands none) = .ok steps ∧ t.build = .ok (.serial steps) ∧
        t'.build = .ok (.serial steps)) ∧
    ((∃ e, t.build = .error e) ↔ ∃ k n, (some k, n) ∈ t.operands none ∧
      ∃ step rest e, n.steps = step :: rest ∧ step.constrained k = .error e) := by
  have hlen' : 2 ≤ (t'.operands none).length := hsame ▸ hlen
  have hne' : ∀ o ∈ t'.operands none, o.2 ≠ .serial [] := hsame ▸ hne
  constructor
  · cases hbuild : t.build with
    | error e =>
        have hfails := (build_eq_error_iff hlen hne).1 ⟨e, hbuild⟩
        rw [hsame] at hfails
        obtain ⟨e', he'⟩ := (build_eq_error_iff hlen' hne').2 hfails
        exact .inl ⟨e, e', rfl, he'⟩
    | ok m =>
        obtain ⟨steps, hsteps, rfl⟩ := (build_eq_ok_iff hlen hne).1 hbuild
        have hbuild' := (build_eq_ok_iff hlen' hne').2 ⟨steps, hsame ▸ hsteps, rfl⟩
        exact .inr ⟨steps, hsteps, rfl, hbuild'⟩
  · rw [build_eq_error_iff hlen hne]
    constructor
    · rintro ⟨⟨gap, n⟩, ho, hfails⟩
      obtain ⟨k, rfl, hstep⟩ := (contribution_eq_error (steps_ne_nil (hne _ ho))).1 hfails
      exact ⟨k, n, ho, hstep⟩
    · rintro ⟨k, n, ho, hstep⟩
      exact ⟨_, ho, (contribution_eq_error (steps_ne_nil (hne _ ho))).2 ⟨k, rfl, hstep⟩⟩

/-- A cruise, then within a day the start, and first gear again right after it. -/
def trip (regrouped : Bool) : Arrangement :=
  let gap : Option Constraints := some { within := some { days := 1 } }
  let again : Arrangement := .single (.condition (gear 1))
  if regrouped then .join (.single cruise) gap (.join (.single start) none again)
  else .join (.join (.single cruise) gap (.single start)) none again

/-- The start keeps its second step, and the gap goes to the first one, in both groupings. -/
theorem build_trip : ∃ joined, (Node.condition (gear 1)).constrained
      { within := some { days := 1 } } = .ok joined ∧
    (trip false).build = .ok (.serial [cruise, joined, cruise, .condition (gear 1)]) ∧
    (trip true).build = .ok (.serial [cruise, joined, cruise, .condition (gear 1)]) := by
  obtain ⟨joined, hjoined⟩ : ∃ joined, (Node.condition (gear 1)).constrained
      { within := some { days := 1 } } = .ok joined := ⟨_, rfl⟩
  have hlaid : laidOut ((trip false).operands none) =
      .ok [cruise, joined, cruise, .condition (gear 1)] := by
    cases hjoined
    rfl
  have hne : ∀ o ∈ (trip false).operands none, o.2 ≠ .serial [] := by
    simp [trip, operands, cruise, start]
  have hsame : (trip false).operands none = (trip true).operands none := rfl
  obtain ⟨hbuild, -⟩ := build_eq_of_operands_eq hsame (by simp [trip, operands]) hne
  rcases hbuild with ⟨e, -, he, -⟩ | ⟨steps, hsteps, hbuild, hbuild'⟩
  · cases hjoined
    cases he
  · rw [hlaid] at hsteps
    cases hsteps
    exact ⟨joined, hjoined, hbuild, hbuild'⟩

end Arrangement

end EventSearch
