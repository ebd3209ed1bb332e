import EventSearch.Proofs.Stream.Draft
import EventSearch.Query.Projection

/-!
# Projections made by calls

A projection is made by calls that refer to streams and list the fields of outputs. Fields with
different names can be listed in another order at any depth, and calls that set the default can
change places with those for streams: the projection is the same. So the first literal that
cannot be written is the same as well.
-/
namespace EventSearch

namespace Expr

mutual

/-- The expression that is listed, with the fields of all objects in order. -/
def sorted : Expr → Expr
  | .arith op lhs rhs => .arith op lhs.sorted rhs.sorted
  | .object fields => .ofFields (sortedFields fields)
  | other => other

def sortedFields : List (String × Expr) → List (String × Expr)
  | [] => []
  | (name, e) :: rest => (name, e.sorted) :: sortedFields rest

end

/-- Listings of which one comes from the other when fields with different names change places,
at any depth. -/
inductive Reordered : Expr → Expr → Prop
  | refl (e : Expr) : Reordered e e
  | trans {a b c : Expr} : Reordered a b → Reordered b c → Reordered a c
  | lhs (op : ArithOp) {a b : Expr} (rhs : Expr) :
      Reordered a b → Reordered (.arith op a rhs) (.arith op b rhs)
  | rhs (op : ArithOp) (lhs : Expr) {a b : Expr} :
      Reordered a b → Reordered (.arith op lhs a) (.arith op lhs b)
  | field (front rest : List (String × Expr)) (name : String) {a b : Expr} :
      Reordered a b →
      Reordered (.object (front ++ (name, a) :: rest)) (.object (front ++ (name, b) :: rest))
  | fields (front rest : List (String × Expr)) {given other : List (String × Expr)} :
      given.Perm other → (given.map Prod.fst).Nodup →
      Reordered (.object (front ++ given ++ rest)) (.object (front ++ other ++ rest))

theorem sortedFields_eq_map (fields : List (String × Expr)) :
    sortedFields fields = fields.map fun p => (p.1, p.2.sorted) := by
  induction fields with
  | nil => rfl
  | cons p rest ih => exact congrArg ((p.1, p.2.sorted) :: ·) ih

theorem sorted_object (fields : List (String × Expr)) :
    (object fields).sorted = .ofFields (fields.map fun p => (p.1, p.2.sorted)) :=
  congrArg ofFields (sortedFields_eq_map fields)

/-- Listings that differ in the order of fields are of the same expression. -/
theorem Reordered.sorted_eq {a b : Expr} (h : Reordered a b) : a.sorted = b.sorted := by
  induction h with
  | refl e => rfl
  | trans _ _ ihfirst ihsecond => exact ihfirst.trans ihsecond
  | lhs op rhs _ ih => exact congrArg (arith op · rhs.sorted) ih
  | rhs op lhs _ ih => exact congrArg (arith op lhs.sorted ·) ih
  | field front rest name _ ih => simp only [sorted_object, List.map_append, List.map_cons, ih]
  | fields front rest hperm hnames =>
      rw [sorted_object, sorted_object, ofFields, ofFields,
        Fields.ofList_map_perm sorted front rest hperm hnames]

theorem Reordered.ofList_sortedFields {given other : List (String × Expr)}
    (h : Reordered (.object given) (.object other)) :
    Fields.ofList (sortedFields given) = Fields.ofList (sortedFields other) :=
  object.inj h.sorted_eq

end Expr

namespace Projection

namespace Draft

/-- A call on a projection, which refers to a stream and gives the fields as they are listed. -/
inductive Call where
  | includeDefault (returned : Bool)
  | stream (number : Nat) (fields : List (String × Expr))

namespace Call

def apply (streams : Nat → Except QueryError Stream) (p : Projection) :
    Call → Except QueryError Projection
  | .includeDefault returned => .ok (p.withDefault returned)
  | .stream number fields => do .ok (p.withStream (← streams number) (Expr.sortedFields fields))

def isDefault : Call → Bool
  | .includeDefault _ => true
  | .stream _ _ => false

/-- Calls that differ in the order of fields. -/
inductive Reordered : Call → Call → Prop
  | includeDefault (returned : Bool) :
      Reordered (.includeDefault returned) (.includeDefault returned)
  | stream (number : Nat) {given other : List (String × Expr)} :
      Expr.Reordered (.object given) (.object other) →
      Reordered (.stream number given) (.stream number other)

end Call

end Draft

/-- A projection by the calls that make it. -/
structure Draft where
  calls : List Draft.Call

namespace Draft

def build (streams : Nat → Except QueryError Stream) (d : Draft) : Except QueryError Projection :=
  d.calls.foldlM (Call.apply streams) .empty

/-- Drafts with the same calls, but for the order of fields and for the places of calls that set
the default among those for streams. -/
structure Reordered (a b : Draft) : Prop where
  defaults : a.calls.filter Call.isDefault = b.calls.filter Call.isDefault
  streams : List.Forall₂ Call.Reordered (a.calls.filter fun c => !c.isDefault)
    (b.calls.filter fun c => !c.isDefault)

variable (streams : Nat → Except QueryError Stream)

theorem apply_exchange (p : Projection) (c d : Call) (hc : c.isDefault = true)
    (hd : d.isDefault = false) :
    (d.apply streams p >>= (c.apply streams ·)) = (c.apply streams p >>= (d.apply streams ·)) := by
  cases c with
  | stream _ _ => cases hc
  | includeDefault returned =>
      cases d with
      | includeDefault _ => cases hd
      | stream number fields =>
          simp only [Call.apply]
          cases streams number <;> rfl

theorem apply_eq_of_reordered (p : Projection) (c d : Call) (h : c.Reordered d) :
    c.apply streams p = d.apply streams p := by
  cases h with
  | includeDefault returned => rfl
  | stream number hfields =>
      simp only [Call.apply, withStream, hfields.ofList_sortedFields]

/-- What is made does not depend on the order of fields, nor on when the default is set. -/
theorem Reordered.build_eq {a b : Draft} (h : a.Reordered b) :
    a.build streams = b.build streams := by
  have hcalls := foldlM_congr_forall₂ (apply_eq_of_reordered streams) h.streams
  rw [build, build, foldlM_eq_filter_bind (apply_exchange streams),
    foldlM_eq_filter_bind (apply_exchange streams) b.calls, h.defaults, bind_congr hcalls]

end Draft

end Projection

end EventSearch
