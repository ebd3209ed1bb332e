import EventSearch.Proofs.Outcome
import EventSearch.Query.Basic

/-!
# Queries from statements and from builders

A query is assembled from at most one statement of each kind, in any order. A builder keeps
the last bound that it is given on each side, and what it builds is what its select and its
projections are assembled to.
-/
namespace EventSearch

section ItemsAtMostOne

variable {α β : Type} {xs ys : List α}

theorem toList_eq_iff_head? {o : Option α} :
    o.toList = xs ↔ xs.length ≤ 1 ∧ o = xs.head? := by
  match xs with
  | [] => simp
  | [x] => simp
  | x :: y :: rest => cases o <;> simp

/-- The front of what has no second item has none itself. -/
theorem exists_toList_eq_of_append {o : Option α} (h : o.toList = xs ++ ys) :
    ∃ front : Option α, front.toList = xs := by
  have hlen := (toList_eq_iff_head?.1 h).1
  rw [List.length_append] at hlen
  exact ⟨xs.head?, toList_eq_iff_head?.2 ⟨by omega, rfl⟩⟩

theorem eq_of_perm_of_length_le_one (h : xs.Perm ys) (hlen : xs.length ≤ 1) : xs = ys := by
  match xs with
  | [] => exact (List.nil_perm.1 h).symm
  | [x] => exact List.singleton_perm.1 h

theorem filterMap_cons_append (f : α → Option β) (x : α) (rest : List α) :
    (x :: rest).filterMap f = (f x).toList ++ rest.filterMap f := by
  rw [List.filterMap_cons]
  cases f x <;> rfl

/-- The last item that is there comes from the rest of the list or else from its head. -/
theorem getLast?_filterMap_cons (f : α → Option β) (x : α) (rest : List α) (o : Option β) :
    ((x :: rest).filterMap f).getLast?.or o = (rest.filterMap f).getLast?.or ((f x).or o) := by
  rw [filterMap_cons_append, List.getLast?_append, Option.or_assoc]
  cases f x <;> rfl

end ItemsAtMostOne

namespace Statement

def select? : Statement → Option Select
  | .select s => some s
  | .returning _ => none

def projection? : Statement → Option Projection
  | .select _ => none
  | .returning p => some p

end Statement

namespace Query

/-- The selects among statements. -/
def selects (statements : List Statement) : List Select :=
  statements.filterMap Statement.select?

/-- The projections among statements. -/
def projections (statements : List Statement) : List Projection :=
  statements.filterMap Statement.projection?

/-! ## Statements in any order -/

namespace Parts

variable {parts parts' : Parts} {e : QueryError}

/-- A statement is added behind those of its kind, of which there is never a second one. -/
theorem add_eq_ok {statement : Statement} : parts.add statement = .ok parts' ↔
    parts'.select.toList = parts.select.toList ++ statement.select?.toList ∧
      parts'.projection.toList = parts.projection.toList ++ statement.projection?.toList := by
  obtain ⟨select, projection⟩ := parts
  obtain ⟨select', projection'⟩ := parts'
  cases statement with
  | select s =>
      cases select <;> simp [add, Statement.select?, Statement.projection?, toList_eq_iff_head?,
        eq_comm (b := select'), eq_comm (b := projection')]
  | returning p =>
      cases projection <;> simp [add, Statement.select?, Statement.projection?,
        toList_eq_iff_head?, eq_comm (b := select'), eq_comm (b := projection')]

theorem add_eq_error {statement : Statement} (h : parts.add statement = .error e) :
    e = .repeatedStatement .select ∧
        1 < (parts.select.toList ++ statement.select?.toList).length ∨
      e = .repeatedStatement .returning ∧
        1 < (parts.projection.toList ++ statement.projection?.toList).length := by
  obtain ⟨select, projection⟩ := parts
  cases statement with
  | select s =>
      cases select with
      | none => cases h
      | some first =>
          cases h
          exact .inl ⟨rfl, by simp [Statement.select?]⟩
  | returning p =>
      cases projection with
      | none => cases h
      | some first =>
          cases h
          exact .inr ⟨rfl, by simp [Statement.projection?]⟩

/-- Statements are added as long as none of them is a second one of its kind. -/
theorem foldlM_add_eq_ok {statements : List Statement} :
    statements.foldlM add parts = .ok parts' ↔
      parts'.select.toList = parts.select.toList ++ selects statements ∧
        parts'.projection.toList = parts.projection.toList ++ projections statements := by
  induction statements generalizing parts with
  | nil =>
      obtain ⟨select, projection⟩ := parts
      obtain ⟨select', projection'⟩ := parts'
      simp [toList_eq_iff_head?, pure, Except.pure, selects, projections, eq_comm (b := select'),
        eq_comm (b := projection')]
  | cons statement rest ih =>
      simp only [List.foldlM_cons, bind_eq_ok, add_eq_ok, ih, selects, projections,
        filterMap_cons_append]
      constructor
      · rintro ⟨next, ⟨hselect, hprojection⟩, hselect', hprojection'⟩
        rw [hselect', hprojection', hselect, hprojection, List.append_assoc, List.append_assoc]
        exact ⟨rfl, rfl⟩
      · rintro ⟨hselect, hprojection⟩
        rw [← List.append_assoc] at hselect hprojection
        -- What the first statement leads to is the front of what all of them lead to.
        obtain ⟨select, hs⟩ := exists_toList_eq_of_append hselect
        obtain ⟨projection, hp⟩ := exists_toList_eq_of_append hprojection
        rw [← hs] at hselect
        rw [← hp] at hprojection
        exact ⟨⟨select, projection⟩, ⟨hs, hp⟩, hselect, hprojection⟩

/-- What is at fault is a second statement of a kind. -/
theorem foldlM_add_eq_error {statements : List Statement}
    (h : statements.foldlM add parts = .error e) :
    e = .repeatedStatement .select ∧ 1 < (parts.select.toList ++ selects statements).length ∨
      e = .repeatedStatement .returning ∧
        1 < (parts.projection.toList ++ projections statements).length := by
  induction statements generalizing parts with
  | nil => cases h
  | cons statement rest ih =>
      rw [List.foldlM_cons] at h
      rw [selects, projections, filterMap_cons_append, filterMap_cons_append, ← List.append_assoc,
        ← List.append_assoc]
      rcases bind_eq_error.1 h with h | ⟨next, hnext, h⟩
      · refine (add_eq_error h).imp ?_ ?_
        · rintro ⟨rfl, hlen⟩
          exact ⟨rfl, by rw [List.length_append]; omega⟩
        · rintro ⟨rfl, hlen⟩
          exact ⟨rfl, by rw [List.length_append]; omega⟩
      · obtain ⟨hselect, hprojection⟩ := add_eq_ok.1 hnext
        rw [← hselect, ← hprojection]
        exact ih h

end Parts

variable {statements others : List Statement} {q : Query}

/-- What statements are assembled to. -/
theorem ofStatements_eq_ok : ofStatements statements = .ok q ↔
    (selects statements).length ≤ 1 ∧ (projections statements).length ≤ 1 ∧
      q = ⟨(selects statements).head?.getD .all, (projections statements).head?⟩ := by
  simp only [ofStatements, bind_eq_ok, Parts.foldlM_add_eq_ok, Except.ok.injEq, Option.toList_none,
    List.nil_append, toList_eq_iff_head?]
  constructor
  · rintro ⟨parts, ⟨⟨hselects, hselect⟩, hprojections, hprojection⟩, rfl⟩
    rw [hselect, hprojection]
    exact ⟨hselects, hprojections, rfl⟩
  · rintro ⟨hselects, hprojections, rfl⟩
    exact ⟨⟨_, _⟩, ⟨⟨hselects, rfl⟩, hprojections, rfl⟩, rfl⟩

theorem exists_ofStatements_iff : (∃ q, ofStatements statements = .ok q) ↔
    (selects statements).length ≤ 1 ∧ (projections statements).length ≤ 1 := by
  simp only [ofStatements_eq_ok]
  constructor
  · rintro ⟨q, hselects, hprojections, -⟩
    exact ⟨hselects, hprojections⟩
  · rintro ⟨hselects, hprojections⟩
    exact ⟨_, hselects, hprojections, rfl⟩

/-- The order of statements does not matter. -/
theorem ofStatements_perm (h : statements.Perm others) (hq : ofStatements statements = .ok q) :
    ofStatements others = .ok q := by
  obtain ⟨hselects, hprojections, rfl⟩ := ofStatements_eq_ok.1 hq
  have hselect : selects statements = selects others :=
    eq_of_perm_of_length_le_one (h.filterMap _) hselects
  have hprojection : projections statements = projections others :=
    eq_of_perm_of_length_le_one (h.filterMap _) hprojections
  rw [hselect] at hselects ⊢
  rw [hprojection] at hprojections ⊢
  exact ofStatements_eq_ok.2 ⟨hselects, hprojections, rfl⟩

/-- With a single select it is the projections that are at fault. -/
theorem ofStatements_eq_error {e : QueryError} (hselects : (selects statements).length ≤ 1)
    (h : ofStatements statements = .error e) : e = .repeatedStatement .returning := by
  rcases bind_eq_error.1 h with h | ⟨parts, -, h⟩
  · rcases Parts.foldlM_add_eq_error h with ⟨-, hlen⟩ | ⟨he, -⟩
    · exact absurd hlen (Nat.not_lt_of_le hselects)
    · exact he
  · cases h

/-- With a single select the order does not matter for the error either. -/
theorem ofStatements_eq_of_perm (h : statements.Perm others)
    (hselects : (selects statements).length ≤ 1) :
    ofStatements others = ofStatements statements := by
  cases hq : ofStatements statements with
  | ok q => exact ofStatements_perm h hq
  | error e =>
      cases hq' : ofStatements others with
      | ok q =>
          rw [ofStatements_perm h.symm hq'] at hq
          cases hq
      | error e' =>
          have hothers : (selects others).length ≤ 1 := (h.filterMap _).length_eq ▸ hselects
          rw [ofStatements_eq_error hselects hq, ofStatements_eq_error hothers hq']

end Query

namespace QueryBuilder

/-! ## Calls on a builder -/

/-- A call on a builder. -/
inductive Call where
  | after (bound : DateTime)
  | before (bound : DateTime)
  | between (low high : DateTime)
  | returning (p : Projection)

namespace Call

def apply (b : QueryBuilder) : Call → QueryBuilder
  | .after bound => b.after bound
  | .before bound => b.before bound
  | .between low high => b.between low high
  | .returning p => b.addReturning p

/-- The bound from which on the call asks for matches. -/
def lower? : Call → Option DateTime
  | .after bound => some bound
  | .between low _ => some low
  | _ => none

/-- The bound before which the call asks for matches. -/
def upper? : Call → Option DateTime
  | .before bound => some bound
  | .between _ high => some high
  | _ => none

def projection? : Call → Option Projection
  | .returning p => some p
  | _ => none

end Call

/-- The builder after calls, from a pattern or from everything. -/
def ofCalls (root : Option Node) (calls : List Call) : QueryBuilder :=
  calls.foldl Call.apply { select := root.elim .all .ofNode }

/-- The select that calls ask for: the last bound on each side counts. -/
def selectOf (root : Option Node) (calls : List Call) : Select where
  root := root
  after := (calls.filterMap Call.lower?).getLast?
  before := (calls.filterMap Call.upper?).getLast?

/-- The projections that calls ask for. -/
def projectionsOf (calls : List Call) : List Projection := calls.filterMap Call.projection?

variable (root : Option Node) (b : QueryBuilder) (calls : List Call)

theorem apply_eq (c : Call) : c.apply b =
    { select :=
        { root := b.select.root
          after := c.lower?.or b.select.after
          before := c.upper?.or b.select.before }
      returning := b.returning ++ c.projection?.toList } := by
  cases c <;> simp [Call.apply, after, before, between, addReturning, Select.withAfter,
    Select.withBefore, Call.lower?, Call.upper?, Call.projection?]

theorem foldl_apply : calls.foldl Call.apply b =
    { select :=
        { root := b.select.root
          after := (calls.filterMap Call.lower?).getLast?.or b.select.after
          before := (calls.filterMap Call.upper?).getLast?.or b.select.before }
      returning := b.returning ++ projectionsOf calls } := by
  induction calls generalizing b with
  | nil => simp [projectionsOf]
  | cons c rest ih =>
      rw [List.foldl_cons, ih, apply_eq, getLast?_filterMap_cons, getLast?_filterMap_cons,
        projectionsOf, projectionsOf, filterMap_cons_append, List.append_assoc]

theorem ofCalls_eq : ofCalls root calls = ⟨selectOf root calls, projectionsOf calls⟩ := by
  rw [ofCalls, foldl_apply, selectOf]
  cases root <;> simp [Select.all, Select.ofNode]

/-- The statements that calls amount to. -/
def statementsOf (root : Option Node) (calls : List Call) : List Statement :=
  .select (selectOf root calls) :: (projectionsOf calls).map .returning

theorem build_ofCalls :
    (ofCalls root calls).build = Query.ofStatements (statementsOf root calls) := by
  rw [ofCalls_eq, build, statementsOf]

theorem selects_statementsOf : Query.selects (statementsOf root calls) = [selectOf root calls] := by
  rw [Query.selects, statementsOf, filterMap_cons_append, List.filterMap_map]
  simp [Statement.select?, Function.comp_def]

theorem projections_statementsOf :
    Query.projections (statementsOf root calls) = projectionsOf calls := by
  rw [Query.projections, statementsOf, filterMap_cons_append, List.filterMap_map]
  simp [Statement.projection?, Function.comp_def]

/-- Statements can be assembled when there are no two of a kind, and to the same query in any
order. A builder gives what a select with the last bounds and the projections are assembled to,
in any order, and does so when there are no two projections. -/
theorem build_eq_ofStatements_perm :
    (∀ statements,
      ((∃ q, Query.ofStatements statements = .ok q) ↔
        (Query.selects statements).length ≤ 1 ∧ (Query.projections statements).length ≤ 1) ∧
      ∀ q, Query.ofStatements statements = .ok q →
        q = ⟨(Query.selects statements).head?.getD .all, (Query.projections statements).head?⟩ ∧
        ∀ others, statements.Perm others → Query.ofStatements others = .ok q) ∧
    ∀ root calls,
      ((∃ q, (ofCalls root calls).build = .ok q) ↔ (projectionsOf calls).length ≤ 1) ∧
      ∀ statements, (statementsOf root calls).Perm statements →
        Query.ofStatements statements = (ofCalls root calls).build ∧
        (Query.ofStatements statements >>= Query.encode) =
          ((ofCalls root calls).build >>= Query.encode) := by
  refine ⟨fun statements => ⟨Query.exists_ofStatements_iff, fun q hq => ?_⟩,
    fun root calls => ⟨?_, fun statements hstatements => ?_⟩⟩
  · obtain ⟨-, -, he⟩ := Query.ofStatements_eq_ok.1 hq
    exact ⟨he, fun others hothers => Query.ofStatements_perm hothers hq⟩
  · rw [build_ofCalls, Query.exists_ofStatements_iff, selects_statementsOf,
      projections_statementsOf]
    exact and_iff_right (Nat.le_refl 1)
  · have hselects : (Query.selects (statementsOf root calls)).length ≤ 1 := by
      rw [selects_statementsOf]
      exact Nat.le_refl 1
    have hbuild : Query.ofStatements statements = (ofCalls root calls).build := by
      rw [build_ofCalls, Query.ofStatements_eq_of_perm hstatements hselects]
    exact ⟨hbuild, by rw [hbuild]⟩

end QueryBuilder

end EventSearch
