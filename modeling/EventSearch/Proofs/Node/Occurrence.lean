import EventSearch.Node.Basic

/-!
# Patterns within patterns

A pattern occurs in itself and in whatever one of its occurrences is part of. Properties of
all occurrences in a pattern are the ones that hold at every depth.
-/
namespace EventSearch.Node

/-- The patterns that a pattern combines. -/
def parts : Node → List Node
  | .and children _ => children
  | .or children => children
  | .group _ children => children
  | .serial steps => steps
  | .condition _ => []
  | .switch _ => []

theorem sizeOf_lt_of_mem_parts {n c : Node} (h : c ∈ n.parts) : sizeOf c < sizeOf n := by
  cases n with
  | condition _ => simp [parts] at h
  | switch _ => simp [parts] at h
  | and children k =>
      have hc : sizeOf c < sizeOf children := List.sizeOf_lt_of_mem h
      simp only [Node.and.sizeOf_spec]
      omega
  | or children =>
      have hc : sizeOf c < sizeOf children := List.sizeOf_lt_of_mem h
      simp only [Node.or.sizeOf_spec]
      omega
  | group mode children =>
      have hc : sizeOf c < sizeOf children := List.sizeOf_lt_of_mem h
      simp only [Node.group.sizeOf_spec]
      omega
  | serial steps =>
      have hc : sizeOf c < sizeOf steps := List.sizeOf_lt_of_mem h
      simp only [Node.serial.sizeOf_spec]
      omega

/-- What holds of a pattern as soon as it holds of its parts holds of all patterns. -/
theorem inductionOnParts {P : Node → Prop} (h : ∀ n : Node, (∀ c ∈ n.parts, P c) → P n)
    (n : Node) : P n := by
  induction n using (measure (sizeOf : Node → Nat)).wf.induction with
  | _ n ih => exact h n fun c hc => ih c (sizeOf_lt_of_mem_parts hc)

inductive Occurs (m : Node) : Node → Prop
  | here : Occurs m m
  | deeper {c n : Node} : c ∈ n.parts → Occurs m c → Occurs m n

theorem Occurs.trans {l m n : Node} (hl : Occurs l m) (hm : Occurs m n) : Occurs l n := by
  induction hm with
  | here => exact hl
  | deeper hc _ ih => exact .deeper hc ih

theorem Occurs.of_mem_parts {m n : Node} (h : m ∈ n.parts) : Occurs m n := .deeper h .here

/-- Whether every pattern that occurs in a pattern has a property. -/
def Throughout (P : Node → Prop) (n : Node) : Prop := ∀ m, Occurs m n → P m

variable {P : Node → Prop} {n : Node}

theorem Throughout.self (h : Throughout P n) : P n := h n .here

theorem Throughout.of_occurs {m : Node} (h : Throughout P n) (hm : Occurs m n) :
    Throughout P m := fun l hl => h l (hl.trans hm)

theorem Throughout.of_mem_parts {c : Node} (h : Throughout P n) (hc : c ∈ n.parts) :
    Throughout P c := h.of_occurs (.of_mem_parts hc)

theorem throughout_iff : Throughout P n ↔ P n ∧ ∀ c ∈ n.parts, Throughout P c := by
  constructor
  · intro h
    exact ⟨h.self, fun c hc => h.of_mem_parts hc⟩
  · intro h m hm
    cases hm with
    | here => exact h.1
    | deeper hc hm => exact h.2 _ hc m hm

end EventSearch.Node
