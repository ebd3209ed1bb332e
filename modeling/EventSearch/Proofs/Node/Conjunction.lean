import EventSearch.Proofs.Node.Encoding
import EventSearch.Proofs.Node.Reachable
import EventSearch.Proofs.Span.Statement

/-!
# Conjunctions as documents

A conjunction is written as its members from the right, after members that are conjunctions
without constraints have been taken apart. One case is different: when all that is left is a
single pattern that is no conjunction, that pattern is not kept, and what is built is empty.
-/
namespace EventSearch.Node

def isConjunction : Node → Bool
  | .and .. => true
  | _ => false

/-- The members amount to a single pattern, and it is no conjunction. -/
def losesMember (members : List Node) : Bool :=
  match members.flatMap conjuncts with
  | [n] => !n.isConjunction
  | _ => false

variable {members : List Node}

theorem losesMember_of_eq {n : Node} (h : members.flatMap conjuncts = [n]) :
    losesMember members = !n.isConjunction := by
  rw [losesMember, h]

theorem conjunction_of_losesMember (h : losesMember members = true) :
    conjunction members = .and [] .empty := by
  unfold losesMember at h
  split at h
  · next n hn =>
      cases n with
      | and children k => cases h
      | _ => rw [conjunction, hn]
  · cases h

theorem conjunction_of_eq_and {children : List Node} {k : Constraints}
    (h : members.flatMap conjuncts = [.and children k]) :
    conjunction members = .and children k := by
  rw [conjunction, h]

theorem conjunction_of_ne (h : ∀ n, members.flatMap conjuncts ≠ [n]) :
    conjunction members = .and (members.flatMap conjuncts) .empty := by
  unfold conjunction
  split
  · next hn => exact absurd hn (h _)
  · next hn => exact absurd hn (h _)
  · rfl

/-- Only a conjunction without children and constraints contributes nothing. -/
theorem conjuncts_ne_nil {n : Node} (h : n ≠ .and [] .empty) : n.conjuncts ≠ [] := by
  intro hnil
  unfold conjuncts at hnil
  split at hnil
  · next children k =>
      split at hnil
      · next hk => exact h (by rw [hnil, Constraints.eq_empty_of_isEmpty hk])
      · cases hnil
  · cases hnil

theorem flatMap_conjuncts_ne_nil (hne : members ≠ []) (hfull : ∀ n ∈ members, n ≠ .and [] .empty) :
    members.flatMap conjuncts ≠ [] := by
  intro hnil
  obtain ⟨n, hn⟩ := List.exists_mem_of_ne_nil members hne
  exact conjuncts_ne_nil (hfull n hn) (List.flatMap_eq_nil_iff.1 hnil n hn)

/-- What is written for a conjunction is the fold of its members, each of which can be written,
unless a single member is lost. The fold of a single member is that member. -/
theorem encode_conjunction {asts : List Json} (hne : members ≠ [])
    (hfull : ∀ n ∈ members, n ≠ .and [] .empty)
    (hasts : encodeAll (members.flatMap conjuncts) = .ok asts) :
    ∃ ast, rightFold "&&" asts = some ast ∧
      (∀ n, members.flatMap conjuncts = [n] → n.encode = .ok ast) ∧
      (conjunction members).encode =
        if losesMember members then .error (.emptyCombinator .conjunction) else .ok ast := by
  have hlen : asts ≠ [] := by
    intro hnil
    have hlen := length_encodeAll hasts
    rw [hnil] at hlen
    exact flatMap_conjuncts_ne_nil hne hfull (List.eq_nil_of_length_eq_zero hlen.symm)
  obtain ⟨ast, hast⟩ := rightFold_isSome "&&" hlen
  have hsingle : ∀ n, members.flatMap conjuncts = [n] → n.encode = .ok ast := by
    intro n hn
    rw [hn, encodeAll_eq_ok, List.forall₂_cons_left_iff] at hasts
    obtain ⟨only, rest, honly, hrest, rfl⟩ := hasts
    rw [List.forall₂_nil_left_iff] at hrest
    subst hrest
    cases hast
    exact honly
  refine ⟨ast, hast, hsingle, ?_⟩
  by_cases hlost : losesMember members = true
  · rw [if_pos hlost, conjunction_of_losesMember hlost]
    rfl
  · rw [if_neg hlost]
    by_cases hone : ∃ n, members.flatMap conjuncts = [n]
    · obtain ⟨n, hn⟩ := hone
      cases n with
      | and children k => rw [conjunction_of_eq_and hn, hsingle _ hn]
      | _ => exact absurd (losesMember_of_eq hn) hlost
    · have hmany : ∀ n, members.flatMap conjuncts ≠ [n] := fun n hn => hone ⟨n, hn⟩
      rw [conjunction_of_ne hmany]
      exact encode_and_eq_ok.2 ⟨asts, ast, hasts, hast, (Constraints.apply_empty ast).symm⟩

/-- First gear, and a conjunction of the two others. -/
def gears : List Node :=
  [.condition (gear 1), .and [.condition (gear 2), .condition (gear 3)] .empty]

/-- The conjunction of the gears is written as one of three members. -/
theorem encode_conjunction_gears : gears ≠ [] ∧ (∀ n ∈ gears, n ≠ .and [] .empty) ∧
    (conjunction gears).encode =
      .ok (binary "&&" (gear 1).encode (binary "&&" (gear 2).encode (gear 3).encode)) := by
  have hne : gears ≠ [] := List.cons_ne_nil _ _
  have hfull : ∀ n ∈ gears, n ≠ .and [] .empty := by simp [gears]
  have hasts : encodeAll (gears.flatMap conjuncts) =
      .ok [(gear 1).encode, (gear 2).encode, (gear 3).encode] := rfl
  obtain ⟨ast, hast, -, h⟩ := encode_conjunction hne hfull hasts
  cases hast
  exact ⟨hne, hfull, h⟩

/-- A conjunction of first gear alone has lost it, so that no fold of its members is written. -/
theorem encode_conjunction_loses_gear :
    (conjunction [.condition (gear 1)]).encode = .error (.emptyCombinator .conjunction) ∧
      ¬ ∀ members asts, members ≠ [] → (∀ n ∈ members, n ≠ .and [] .empty) →
        encodeAll (members.flatMap conjuncts) = .ok asts →
        ∃ ast, rightFold "&&" asts = some ast ∧ (conjunction members).encode = .ok ast := by
  have hlost : (conjunction [.condition (gear 1)]).encode =
      .error (.emptyCombinator .conjunction) := rfl
  refine ⟨hlost, fun h => ?_⟩
  obtain ⟨ast, -, hast⟩ := h [.condition (gear 1)] [(gear 1).encode] (by simp) (by simp) rfl
  rw [hlost] at hast
  cases hast

end EventSearch.Node
