import EventSearch.Proofs.Node.Conjunction
import EventSearch.Proofs.Node.Effective

/-!
# Formulas of conditions

A formula combines conditions by conjunction and disjunction. Its pattern takes in members of
the same kind on both sides, so the document has another nesting than the formula. Read back as
a formula, the document has the same conditions in the same order and the same truth value,
whichever conditions hold, and no operator is the left operand of itself.
-/
namespace EventSearch

inductive Connective where
  | conjunction | disjunction
deriving DecidableEq, Repr

namespace Connective

def symbol : Connective → String
  | .conjunction => "&&"
  | .disjunction => "||"

def ofSymbol? (symbol : String) : Option Connective :=
  if symbol = "&&" then some .conjunction
  else if symbol = "||" then some .disjunction
  else none

def apply : Connective → Bool → Bool → Bool
  | .conjunction => and
  | .disjunction => or

theorem apply_assoc (c : Connective) (x y z : Bool) :
    c.apply (c.apply x y) z = c.apply x (c.apply y z) := by
  cases c
  · exact Bool.and_assoc x y z
  · exact Bool.or_assoc x y z

/-- What a pattern contributes to a combination by the connective. -/
def members : Connective → Node → List Node
  | .conjunction => Node.conjuncts
  | .disjunction => Node.disjuncts

/-- Two patterns combined by the connective. -/
def combine : Connective → Node → Node → Node
  | .conjunction, m, n => Node.conjunction [m, n]
  | .disjunction, m, n => Node.disjunction [m, n]

/-- The pattern of several members. -/
def node : Connective → List Node → Node
  | .conjunction, children => .and children .empty
  | .disjunction, children => .or children

variable (c : Connective)

theorem members_node (children : List Node) : c.members (c.node children) = children := by
  cases c <;> rfl

theorem members_node_of_ne {d : Connective} (h : d ≠ c) (children : List Node) :
    d.members (c.node children) = [c.node children] := by
  cases c <;> cases d <;> first | rfl | exact absurd rfl h

/-- What two patterns contribute stays together in a node of their own, unless a conjunction is
combined of too few members. -/
theorem combine_eq {m n : Node}
    (h : c = .conjunction → c.members m ≠ [] ∧ c.members n ≠ []) :
    c.combine m n = c.node (c.members m ++ c.members n) := by
  cases c with
  | conjunction =>
      obtain ⟨hm, hn⟩ := h rfl
      have hm : 1 ≤ m.conjuncts.length := List.length_pos_iff.2 hm
      have hn : 1 ≤ n.conjuncts.length := List.length_pos_iff.2 hn
      have hflat : [m, n].flatMap Node.conjuncts = m.conjuncts ++ n.conjuncts := by simp
      have hmany : ∀ only, [m, n].flatMap Node.conjuncts ≠ [only] := by
        intro only hone
        have hlen := congrArg List.length (hflat.symm.trans hone)
        rw [List.length_append, List.length_singleton] at hlen
        omega
      rw [combine, Node.conjunction_of_ne hmany, hflat]
      rfl
  | disjunction =>
      have hflat : [m, n].flatMap Node.disjuncts = m.disjuncts ++ n.disjuncts := by simp
      rw [combine, Node.disjunction, hflat]
      rfl

theorem encode_node_eq_ok {children : List Node} {j : Json} :
    (c.node children).encode = .ok j ↔
      ∃ asts, Node.encodeAll children = .ok asts ∧ rightFold c.symbol asts = some j := by
  cases c with
  | conjunction =>
      rw [node, Node.encode_and_eq_ok]
      refine exists_congr fun asts => ?_
      constructor
      · rintro ⟨ast, hasts, hast, rfl⟩
        exact ⟨hasts, by rwa [Constraints.apply_empty]⟩
      · rintro ⟨hasts, hast⟩
        exact ⟨j, hasts, hast, (Constraints.apply_empty j).symm⟩
  | disjunction => exact Node.encode_or_eq_ok

end Connective

/-- Statements combined by connectives, two at a time. -/
inductive Formula (α : Type) where
  | leaf (a : α)
  | join (c : Connective) (left right : Formula α)
deriving Repr

namespace Formula

variable {α β : Type}

def eval (truth : α → Bool) : Formula α → Bool
  | leaf a => truth a
  | join c left right => c.apply (left.eval truth) (right.eval truth)

/-- The statements from left to right. -/
def leaves : Formula α → List α
  | leaf a => [a]
  | join _ left right => left.leaves ++ right.leaves

def map (f : α → β) : Formula α → Formula β
  | leaf a => leaf (f a)
  | join c left right => join c (left.map f) (right.map f)

/-- Whether the connective is the outermost one. -/
def IsJoin (c : Connective) : Formula α → Prop
  | leaf _ => False
  | join d _ _ => d = c

/-- No connective has a combination by the same connective on its left. -/
def RightAssociated : Formula α → Prop
  | leaf _ => True
  | join c left right => ¬ left.IsJoin c ∧ left.RightAssociated ∧ right.RightAssociated

theorem IsJoin.unique {c d : Connective} {φ : Formula α} (hc : φ.IsJoin c) (hd : φ.IsJoin d) :
    c = d := by
  cases φ with
  | leaf a => exact hc.elim
  | join e left right => exact (Eq.symm hc).trans hd

theorem eval_map (f : α → β) (truth : β → Bool) (φ : Formula α) :
    (φ.map f).eval truth = φ.eval fun a => truth (f a) := by
  induction φ with
  | leaf a => rfl
  | join c left right ihleft ihright => rw [map, eval, eval, ihleft, ihright]

theorem leaves_map (f : α → β) (φ : Formula α) : (φ.map f).leaves = φ.leaves.map f := by
  induction φ with
  | leaf a => rfl
  | join c left right ihleft ihright => rw [map, leaves, leaves, ihleft, ihright, List.map_append]

/-- Two formulas combined, where the first one is taken apart as far as it is a combination by
the same connective. -/
def attach (c : Connective) : Formula α → Formula α → Formula α
  | leaf a, ψ => join c (leaf a) ψ
  | join d left right, ψ =>
      if d = c then join c left (attach c right ψ) else join c (join d left right) ψ

section Attach

variable (c : Connective) (φ ψ : Formula α)

theorem attach_of_not_isJoin {φ : Formula α} (h : ¬ φ.IsJoin c) : attach c φ ψ = join c φ ψ := by
  cases φ with
  | leaf a => rfl
  | join d left right => exact if_neg h

theorem attach_join (left right : Formula α) :
    attach c (join c left right) ψ = join c left (attach c right ψ) := if_pos rfl

theorem isJoin_attach : (attach c φ ψ).IsJoin c := by
  cases φ with
  | leaf a => rfl
  | join d left right =>
      rw [attach]
      split <;> rfl

theorem eval_attach (truth : α → Bool) :
    (attach c φ ψ).eval truth = c.apply (φ.eval truth) (ψ.eval truth) := by
  induction φ with
  | leaf a => rfl
  | join d left right _ ihright =>
      rw [attach]
      split
      · next h => rw [eval, eval, ihright, h, c.apply_assoc]
      · rfl

theorem leaves_attach : (attach c φ ψ).leaves = φ.leaves ++ ψ.leaves := by
  induction φ with
  | leaf a => rfl
  | join d left right _ ihright =>
      rw [attach]
      split
      · rw [leaves, leaves, ihright, List.append_assoc]
      · rfl

theorem rightAssociated_attach {φ ψ : Formula α} (hφ : φ.RightAssociated)
    (hψ : ψ.RightAssociated) : (attach c φ ψ).RightAssociated := by
  induction φ with
  | leaf a => exact ⟨id, trivial, hψ⟩
  | join d left right _ ihright =>
      rw [attach]
      split
      · next h => exact ⟨h ▸ hφ.1, hφ.2.1, ihright hφ.2.2⟩
      · next h => exact ⟨h, hφ, hψ⟩

end Attach

/-- The same formula with every chain of one connective nested to the right. -/
def normal : Formula α → Formula α
  | leaf a => leaf a
  | join c left right => attach c left.normal right.normal

theorem eval_normal (truth : α → Bool) (φ : Formula α) :
    φ.normal.eval truth = φ.eval truth := by
  induction φ with
  | leaf a => rfl
  | join c left right ihleft ihright => rw [normal, eval_attach, ihleft, ihright, eval]

theorem leaves_normal (φ : Formula α) : φ.normal.leaves = φ.leaves := by
  induction φ with
  | leaf a => rfl
  | join c left right ihleft ihright => rw [normal, leaves_attach, ihleft, ihright, leaves]

theorem rightAssociated_normal (φ : Formula α) : φ.normal.RightAssociated := by
  induction φ with
  | leaf a => trivial
  | join c left right ihleft ihright => exact rightAssociated_attach c ihleft ihright

/-- The pattern that the connectives build from conditions. -/
def pattern : Formula Condition → Node
  | leaf c => .condition c
  | join c left right => c.combine left.pattern right.pattern

end Formula

namespace Json

/-- An object that applies a connective to two operands. -/
def operation? (j : Json) : Option (Connective × Json × Json) :=
  match j.get? "expr", j.get? "args" with
  | some (.str op), some (.arr [left, right]) =>
      (Connective.ofSymbol? op).map fun c => (c, left, right)
  | _, _ => none

theorem sizeOf_lt_of_get? {j value : Json} {name : String} (h : j.get? name = some value) :
    sizeOf value < sizeOf j := by
  cases j with
  | obj members =>
      have hmem : (name, value) ∈ members := Fields.mem_of_get? h
      have hlt : sizeOf (name, value) < sizeOf members := List.sizeOf_lt_of_mem hmem
      simp only [Prod.mk.sizeOf_spec] at hlt
      simp only [Json.obj.sizeOf_spec]
      omega
  | _ => cases h

theorem sizeOf_lt_of_operation? {j left right : Json} {c : Connective}
    (h : j.operation? = some (c, left, right)) :
    sizeOf left < sizeOf j ∧ sizeOf right < sizeOf j := by
  unfold operation? at h
  split at h
  · next op l r hexpr hargs =>
      obtain ⟨d, -, he⟩ := Option.map_eq_some_iff.1 h
      cases he
      have hlt := sizeOf_lt_of_get? hargs
      simp only [Json.arr.sizeOf_spec, List.cons.sizeOf_spec] at hlt
      omega
  · cases h

/-- A document as a formula of the documents that are no combinations by a connective. -/
def formula (j : Json) : Formula Json :=
  match _h : j.operation? with
  | some (c, left, right) => .join c left.formula right.formula
  | none => .leaf j
termination_by sizeOf j
decreasing_by
  · exact (sizeOf_lt_of_operation? _h).1
  · exact (sizeOf_lt_of_operation? _h).2

theorem operation?_binary (c : Connective) (left right : Json) :
    (binary c.symbol left right).operation? = some (c, left, right) := by
  cases c <;> rfl

theorem formula_binary (c : Connective) (left right : Json) :
    (binary c.symbol left right).formula = .join c left.formula right.formula := by
  rw [formula]
  split
  · next d l r h =>
      rw [operation?_binary] at h
      cases h
      rfl
  · next h =>
      rw [operation?_binary] at h
      cases h

theorem formula_eq_leaf {j : Json} (h : j.get? "expr" = none) : j.formula = .leaf j := by
  have hnone : j.operation? = none := by simp [operation?, h]
  rw [formula]
  split
  · next hsome =>
      rw [hnone] at hsome
      cases hsome
  · rfl

/-- What is folded in front of another fold by the same connective becomes part of it. -/
theorem formula_rightFold_append {c : Connective} {as bs : List Json} {a b : Json}
    (ha : rightFold c.symbol as = some a) (hb : rightFold c.symbol bs = some b)
    (has : ∀ x ∈ as, ¬ x.formula.IsJoin c) :
    ∃ j, rightFold c.symbol (as ++ bs) = some j ∧
      j.formula = Formula.attach c a.formula b.formula := by
  induction as generalizing a with
  | nil => cases ha
  | cons x rest ih =>
      have hx : ¬ x.formula.IsJoin c := has x List.mem_cons_self
      have hrest : ∀ y ∈ rest, ¬ y.formula.IsJoin c := fun y hy => has y (List.mem_cons_of_mem x hy)
      rcases rightFold_cons_eq_some.1 ha with ⟨rfl, rfl⟩ | ⟨tail, htail, rfl⟩
      · refine ⟨binary c.symbol a b, rightFold_cons_eq_some.2 (.inr ⟨b, hb, rfl⟩), ?_⟩
        rw [formula_binary, Formula.attach_of_not_isJoin c _ hx]
      · obtain ⟨j, hj, hformula⟩ := ih htail hrest
        refine ⟨binary c.symbol x j, rightFold_cons_eq_some.2 (.inr ⟨j, hj, rfl⟩), ?_⟩
        rw [formula_binary, formula_binary, Formula.attach_join, hformula]

end Json

/-- A pattern is written as the combination of its members by either connective, and none of these
members is written as a combination by that connective itself. -/
structure Node.Written (n : Node) (j : Json) : Prop where
  encode : n.encode = .ok j
  members : ∀ c : Connective, ∃ asts, encodeAll (c.members n) = .ok asts ∧
    rightFold c.symbol asts = some j ∧ ∀ x ∈ asts, ¬ x.formula.IsJoin c

namespace Node

/-- What takes no members in is its own only member. -/
theorem exists_members_of_eq_self {n : Node} {j : Json} {c : Connective} (h : n.encode = .ok j)
    (hself : c.members n = [n]) (hj : ¬ j.formula.IsJoin c) :
    ∃ asts, encodeAll (c.members n) = .ok asts ∧ rightFold c.symbol asts = some j ∧
      ∀ x ∈ asts, ¬ x.formula.IsJoin c := by
  refine ⟨[j], ?_, rfl, by simpa using hj⟩
  rw [hself, encodeAll_singleton, h]
  rfl

theorem formula_encode_condition (c : Condition) : c.encode.formula = .leaf c.encode := by
  apply Json.formula_eq_leaf
  unfold Condition.encode Condition.fields
  cases c.stream? <;> rfl

theorem written_condition (c : Condition) : Written (.condition c) c.encode where
  encode := rfl
  members d := by
    have hself : d.members (.condition c) = [.condition c] := by cases d <;> rfl
    refine exists_members_of_eq_self rfl hself ?_
    rw [formula_encode_condition]
    exact id

theorem Written.members_ne_nil {n : Node} {j : Json} (h : Written n j) (c : Connective) :
    c.members n ≠ [] := by
  obtain ⟨asts, hasts, hj, -⟩ := h.members c
  intro hnil
  rw [hnil, encodeAll_nil] at hasts
  cases hasts
  cases hj

theorem encodeAll_append {ms ns : List Node} {as bs : List Json} (hms : encodeAll ms = .ok as)
    (hns : encodeAll ns = .ok bs) : encodeAll (ms ++ ns) = .ok (as ++ bs) :=
  encodeAll_eq_ok.2 (List.rel_append (encodeAll_eq_ok.1 hms) (encodeAll_eq_ok.1 hns))

/-- A combination is written as what its two sides are written as, with the chain on the left
continued by the right side. -/
theorem Written.combine {m n : Node} {a b : Json} (hm : Written m a) (hn : Written n b)
    (c : Connective) :
    ∃ j, Written (c.combine m n) j ∧ j.formula = Formula.attach c a.formula b.formula := by
  obtain ⟨as, has, ha, hleft⟩ := hm.members c
  obtain ⟨bs, hbs, hb, hright⟩ := hn.members c
  obtain ⟨j, hj, hformula⟩ := Json.formula_rightFold_append ha hb hleft
  have hall : encodeAll (c.members m ++ c.members n) = .ok (as ++ bs) := encodeAll_append has hbs
  have hnode := c.combine_eq fun _ => ⟨hm.members_ne_nil c, hn.members_ne_nil c⟩
  have hencode : (c.combine m n).encode = .ok j := by
    rw [hnode]
    exact c.encode_node_eq_ok.2 ⟨_, hall, hj⟩
  refine ⟨j, ⟨hencode, fun d => ?_⟩, hformula⟩
  by_cases hd : d = c
  · subst hd
    refine ⟨as ++ bs, ?_, hj, fun x hx => ?_⟩
    · rw [hnode, d.members_node, hall]
    · rcases List.mem_append.1 hx with hx | hx
      · exact hleft x hx
      · exact hright x hx
  · -- By the other connective, the combination is a single member.
    have hself : d.members (c.combine m n) = [c.combine m n] := by
      rw [hnode, c.members_node_of_ne hd]
    have hjoin : j.formula.IsJoin c := hformula ▸ Formula.isJoin_attach c a.formula b.formula
    refine exists_members_of_eq_self hencode hself fun hother => hd ?_
    exact Formula.IsJoin.unique hother hjoin

end Node

namespace Formula

/-- The document of a pattern of conditions is the formula with its chains nested to the right. -/
theorem exists_written (φ : Formula Condition) :
    ∃ j, Node.Written φ.pattern j ∧ j.formula = (φ.map Condition.encode).normal := by
  induction φ with
  | leaf c => exact ⟨c.encode, Node.written_condition c, Node.formula_encode_condition c⟩
  | join c left right ihleft ihright =>
      obtain ⟨a, hleft, ha⟩ := ihleft
      obtain ⟨b, hright, hb⟩ := ihright
      obtain ⟨j, hj, hformula⟩ := hleft.combine hright c
      refine ⟨j, hj, ?_⟩
      rw [hformula, ha, hb]
      rfl

/-- A formula of conditions is always written. What is written has the truth value of the formula,
whichever conditions hold, and the same conditions from left to right, and no operator is the
left operand of itself. -/
theorem encode_pattern (φ : Formula Condition) :
    ∃ j, φ.pattern.encode = .ok j ∧
      (∀ truth, j.formula.eval truth = φ.eval fun c => truth c.encode) ∧
      j.formula.leaves = φ.leaves.map Condition.encode ∧ j.formula.RightAssociated := by
  obtain ⟨j, hj, hformula⟩ := φ.exists_written
  refine ⟨j, hj.encode, fun truth => ?_, ?_, ?_⟩
  · rw [hformula, eval_normal, eval_map]
  · rw [hformula, leaves_normal, leaves_map]
  · rw [hformula]
    exact rightAssociated_normal _

end Formula

end EventSearch
