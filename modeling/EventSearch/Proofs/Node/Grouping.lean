import EventSearch.Proofs.Node.Formula

/-!
# Conjunctions and disjunctions with parentheses

Patterns are combined by one connective two at a time, in any grouping. A group contributes the
members that were combined in it and is not seen afterwards, so all groupings build the same node
of what the patterns contribute. A conjunction contributes its own members only when it has no
constraints. Conjunctions of nothing are left out here: with one of them, a combination can
come down to a single member, which is not kept.
-/
namespace EventSearch

/-- Patterns combined two at a time. -/
inductive Grouping where
  | single (n : Node)
  | pair (left right : Grouping)

namespace Grouping

open Node

/-- The patterns from left to right. -/
def operands : Grouping → List Node
  | .single n => [n]
  | .pair left right => left.operands ++ right.operands

/-- What is built group by group. -/
def build (c : Connective) : Grouping → Node
  | .single n => n
  | .pair left right => c.combine (left.build c) (right.build c)

/-- Any pattern goes into a disjunction, and any but a conjunction of nothing into a conjunction. -/
def IsOperand (c : Connective) (n : Node) : Prop := c = .conjunction → n ≠ .and [] .empty

variable {c : Connective} {left right t t' : Grouping}

theorem operands_ne_nil (t : Grouping) : t.operands ≠ [] := by
  induction t with
  | single n => exact List.cons_ne_nil n []
  | pair left right ihleft _ => exact List.append_ne_nil_of_left_ne_nil ihleft _

theorem forall_operands_pair {P : Node → Prop} :
    (∀ n ∈ (pair left right).operands, P n) ↔
      (∀ n ∈ left.operands, P n) ∧ ∀ n ∈ right.operands, P n :=
  List.forall_mem_append

theorem members_operands_ne_nil (h : ∀ n ∈ t.operands, IsOperand c n) (hc : c = .conjunction) :
    t.operands.flatMap c.members ≠ [] := by
  subst hc
  exact flatMap_conjuncts_ne_nil t.operands_ne_nil fun n hn => h n hn rfl

/-- Two groups that contribute what their patterns do are combined into a node of all of that. -/
theorem build_pair_eq (h : ∀ n ∈ (pair left right).operands, IsOperand c n)
    (hleft : c.members (left.build c) = left.operands.flatMap c.members)
    (hright : c.members (right.build c) = right.operands.flatMap c.members) :
    (pair left right).build c = c.node ((pair left right).operands.flatMap c.members) := by
  obtain ⟨hleft', hright'⟩ := forall_operands_pair.1 h
  have hmembers : c = .conjunction →
      c.members (left.build c) ≠ [] ∧ c.members (right.build c) ≠ [] := by
    intro hc
    rw [hleft, hright]
    exact ⟨members_operands_ne_nil hleft' hc, members_operands_ne_nil hright' hc⟩
  rw [build, c.combine_eq hmembers, hleft, hright, operands, List.flatMap_append]

/-- A group contributes what its patterns contribute. -/
theorem members_build (h : ∀ n ∈ t.operands, IsOperand c n) :
    c.members (t.build c) = t.operands.flatMap c.members := by
  -- A single pattern is no node of its members, so the induction is on what groups contribute.
  induction t with
  | single n => simp [build, operands]
  | pair left right ihleft ihright =>
      obtain ⟨hleft, hright⟩ := forall_operands_pair.1 h
      rw [build_pair_eq h (ihleft hleft) (ihright hright), c.members_node]

theorem build_eq (h : ∀ n ∈ t.operands, IsOperand c n) (hlen : 2 ≤ t.operands.length) :
    t.build c = c.node (t.operands.flatMap c.members) := by
  cases t with
  | single n => exact absurd hlen (by simp [operands])
  | pair left right =>
      obtain ⟨hleft, hright⟩ := forall_operands_pair.1 h
      exact build_pair_eq h (members_build hleft) (members_build hright)

/-- A conjunction with constraints is kept with them where it stands. -/
theorem flatMap_conjuncts_constrained {children : List Node} {k : Constraints}
    (hk : k.isEmpty = false) (before after : List Node) :
    (before ++ .and children k :: after).flatMap conjuncts =
      before.flatMap conjuncts ++ .and children k :: after.flatMap conjuncts := by
  have hself : (Node.and children k).conjuncts = [.and children k] := by
    rw [conjuncts, hk]
    rfl
  rw [List.flatMap_append, List.flatMap_cons, hself, List.singleton_append]

/-- In any grouping of two patterns or more, a disjunction is built of their disjuncts and, unless
one of them is a conjunction of nothing, a conjunction without constraints is built of their
conjuncts. Among the latter is every pattern that is a conjunction with constraints. -/
theorem build_regroup (hsame : t.operands = t'.operands) (hlen : 2 ≤ t.operands.length) :
    (t.build .disjunction = .or (t.operands.flatMap disjuncts) ∧
      t'.build .disjunction = t.build .disjunction) ∧
    ((∀ n ∈ t.operands, n ≠ .and [] .empty) →
      t.build .conjunction = .and (t.operands.flatMap conjuncts) .empty ∧
      t'.build .conjunction = t.build .conjunction ∧
      ∀ before children k after, t.operands = before ++ .and children k :: after →
        k.isEmpty = false → t.build .conjunction =
          .and (before.flatMap conjuncts ++ .and children k :: after.flatMap conjuncts) .empty) := by
  have hlen' : 2 ≤ t'.operands.length := hsame ▸ hlen
  have hregroup : ∀ c, (∀ n ∈ t.operands, IsOperand c n) →
      t.build c = c.node (t.operands.flatMap c.members) ∧ t'.build c = t.build c := by
    intro c h
    have h' : ∀ n ∈ t'.operands, IsOperand c n := hsame ▸ h
    rw [build_eq h hlen, build_eq h' hlen', hsame]
    exact ⟨rfl, rfl⟩
  constructor
  · refine hregroup .disjunction fun n _ hc => ?_
    cases hc
  · intro hfull
    obtain ⟨hbuild, hbuild'⟩ := hregroup .conjunction fun n hn _ => hfull n hn
    refine ⟨hbuild, hbuild', ?_⟩
    intro before children k after hoperands hk
    rw [← flatMap_conjuncts_constrained hk, ← hoperands]
    exact hbuild

/-- First gear, a cruise, an upper gear as a conjunction of its own, and a disjunction of nothing. -/
def drive (regrouped : Bool) : Grouping :=
  let first : Grouping := .single (.condition (gear 1))
  let upper : Grouping := .single upperGear.wrap
  let nothing : Grouping := .single (.or [])
  if regrouped then .pair first (.pair (.pair (.single cruise) upper) nothing)
  else .pair (.pair first (.single cruise)) (.pair upper nothing)

/-- The cruise keeps its constraints, and only the conjunction around the upper gear is opened. -/
theorem build_drive :
    ((drive false).operands = (drive true).operands ∧ 2 ≤ (drive false).operands.length ∧
      ∀ n ∈ (drive false).operands, n ≠ .and [] .empty) ∧
    (drive true).build .conjunction =
      .and [.condition (gear 1), cruise, upperGear, .or []] .empty ∧
    (drive true).build .disjunction = .or [.condition (gear 1), cruise, upperGear.wrap] := by
  have hsame : (drive false).operands = (drive true).operands := rfl
  have hlen : 2 ≤ (drive false).operands.length := by simp [drive, operands]
  have hfull : ∀ n ∈ (drive false).operands, n ≠ .and [] .empty := by
    simp [drive, operands, cruise, wrap]
  obtain ⟨⟨hor, hor'⟩, hand⟩ := build_regroup hsame hlen
  obtain ⟨hand, hand', -⟩ := hand hfull
  exact ⟨⟨hsame, hlen, hfull⟩, hand'.trans hand, hor'.trans hor⟩

end Grouping

end EventSearch
