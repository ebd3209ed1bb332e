import EventSearch.Proofs.Query.Encoding

/-!
# Documents of expressions

An expression can be told from its document, up to literals that are written the same. The names
of a nested object are free and can be those that the document of a path, of an operation or of
a literal uses. But what stands under them there is an array or a text, and in a nested object
it is an object. Every expression has a document whose literals hold finite numbers only.
-/
namespace EventSearch

theorem ArithOp.symbol_injective : Function.Injective symbol := by
  intro a b h
  cases a <;> cases b <;> first | rfl | exact absurd h (by decide)

theorem EventPath.encode_injective : Function.Injective encode := by
  intro p q h
  have hsegments : p.segments.map Json.str = q.segments.map Json.str :=
    (List.cons.inj (Json.arr.inj h)).2
  have hstr : Function.Injective Json.str := fun _ _ => Json.str.inj
  cases p
  cases q
  exact congrArg EventPath.mk (List.map_injective_iff.2 hstr hsegments)

namespace Expr

mutual

/-- Trees of the same form, with literals that are written the same. -/
def Alike : Expr → Expr → Prop
  | .literal v, .literal w => v.encode = w.encode
  | .path p, .path q => p = q
  | .arith op lhs rhs, .arith op' lhs' rhs' => op = op' ∧ Alike lhs lhs' ∧ Alike rhs rhs'
  | .object fields, .object fields' => FieldsAlike fields fields'
  | _, _ => False

def FieldsAlike : List (String × Expr) → List (String × Expr) → Prop
  | [], [] => True
  | (name, e) :: rest, (name', e') :: rest' => name = name' ∧ Alike e e' ∧ FieldsAlike rest rest'
  | _, _ => False

end

mutual

/-- The literals at any depth. -/
def literals : Expr → List Value
  | .literal v => [v]
  | .path _ => []
  | .arith _ lhs rhs => literals lhs ++ literals rhs
  | .object fields => fieldLiterals fields

def fieldLiterals : List (String × Expr) → List Value
  | [] => []
  | (_, e) :: rest => literals e ++ fieldLiterals rest

end

variable {e e' : Expr} {j j' : Json}

/-! ## Kinds of expressions -/

theorem exists_obj_of_encode (h : e.encode = .ok j) : ∃ members, j = .obj members := by
  cases e with
  | literal v =>
      obtain ⟨-, rfl⟩ := encode_literal_eq_ok.1 h
      exact ⟨_, rfl⟩
  | path p => exact ⟨_, encode_path_eq_ok.1 h⟩
  | arith op lhs rhs =>
      obtain ⟨left, right, -, -, rfl⟩ := encode_arith_eq_ok.1 h
      exact ⟨_, rfl⟩
  | object fields =>
      obtain ⟨members, -, rfl⟩ := encode_object_eq_ok.1 h
      exact ⟨members, rfl⟩

/-- Whatever its name, a field of a nested object is written as an object. -/
theorem exists_obj_of_encodeFields {fields : List (String × Expr)} {members : Fields Json}
    (h : encodeFields fields = .ok members) : ∀ m ∈ members, ∃ inner, m.2 = .obj inner := by
  induction fields generalizing members with
  | nil =>
      cases h
      exact List.forall_mem_nil _
  | cons field rest ih =>
      obtain ⟨name, e⟩ := field
      obtain ⟨value, others, hvalue, hothers, rfl⟩ := encodeFields_cons_eq_ok.1 h
      exact List.forall_mem_cons.2 ⟨exists_obj_of_encode hvalue, ih hothers⟩

inductive Kind where
  | literal | path | arith | object
deriving DecidableEq

def kind : Expr → Kind
  | .literal _ => .literal
  | .path _ => .path
  | .arith .. => .arith
  | .object _ => .object

/-- The kind of the expression that is written with these members. -/
def kindOf (members : Fields Json) : Kind :=
  if ((Fields.get? "path" members).bind Json.arr?).isSome then .path
  else if ((Fields.get? "expr" members).bind Json.str?).isSome then .arith
  else if ((Fields.get? "type" members).bind Json.str?).isSome then .literal
  else .object

theorem kindOf_of_forall_obj {members : Fields Json}
    (h : ∀ m ∈ members, ∃ inner, m.2 = .obj inner) : kindOf members = .object := by
  have hobj : ∀ name value, Fields.get? name members = some value → ∃ inner, value = .obj inner :=
    fun name value hget => h (name, value) (Fields.mem_of_get? hget)
  have harr : ∀ name, (Fields.get? name members).bind Json.arr? = none := by
    intro name
    cases hget : Fields.get? name members with
    | none => rfl
    | some value =>
        obtain ⟨inner, rfl⟩ := hobj name value hget
        rfl
  have hstr : ∀ name, (Fields.get? name members).bind Json.str? = none := by
    intro name
    cases hget : Fields.get? name members with
    | none => rfl
    | some value =>
        obtain ⟨inner, rfl⟩ := hobj name value hget
        rfl
  simp [kindOf, harr, hstr]

theorem kindOf_eq_kind {members : Fields Json} (h : e.encode = .ok (.obj members)) :
    kindOf members = e.kind := by
  cases e with
  | literal v =>
      obtain ⟨-, hj⟩ := encode_literal_eq_ok.1 h
      cases hj
      rfl
  | path p =>
      cases encode_path_eq_ok.1 h
      rfl
  | arith op lhs rhs =>
      obtain ⟨left, right, -, -, hj⟩ := encode_arith_eq_ok.1 h
      cases hj
      rfl
  | object fields =>
      obtain ⟨members, hmembers, hj⟩ := encode_object_eq_ok.1 h
      cases hj
      exact kindOf_of_forall_obj (exists_obj_of_encodeFields hmembers)

theorem kind_eq_of_encode_eq (h : e.encode = .ok j) (h' : e'.encode = .ok j) :
    e.kind = e'.kind := by
  obtain ⟨members, rfl⟩ := exists_obj_of_encode h
  rw [← kindOf_eq_kind h, kindOf_eq_kind h']

/-- Expressions of different kinds are neither written the same nor alike. -/
theorem encode_eq_iff_of_kind_ne (hkind : e.kind ≠ e'.kind) (h : e.encode = .ok j)
    (h' : e'.encode = .ok j') (halike : ¬ Alike e e') : j = j' ↔ Alike e e' := by
  refine iff_of_false ?_ halike
  rintro rfl
  exact hkind (kind_eq_of_encode_eq h h')

mutual

/-- The documents of two expressions are the same when the expressions are alike. -/
theorem encode_eq_iff {j j' : Json} : ∀ e e' : Expr, e.encode = .ok j → e'.encode = .ok j' →
    (j = j' ↔ Alike e e')
  | .literal v, e', h, h' => by
      cases e' with
      | literal w =>
          obtain ⟨-, rfl⟩ := encode_literal_eq_ok.1 h
          obtain ⟨-, rfl⟩ := encode_literal_eq_ok.1 h'
          rfl
      | _ => exact encode_eq_iff_of_kind_ne Kind.noConfusion h h' id
  | .path p, e', h, h' => by
      cases e' with
      | path q =>
          rw [encode_path_eq_ok.1 h, encode_path_eq_ok.1 h']
          simp [Alike, EventPath.encode_injective.eq_iff]
      | _ => exact encode_eq_iff_of_kind_ne Kind.noConfusion h h' id
  | .arith op lhs rhs, e', h, h' => by
      cases e' with
      | arith op' lhs' rhs' =>
          obtain ⟨left, right, hleft, hright, rfl⟩ := encode_arith_eq_ok.1 h
          obtain ⟨left', right', hleft', hright', rfl⟩ := encode_arith_eq_ok.1 h'
          have hl := encode_eq_iff lhs lhs' hleft hleft'
          have hr := encode_eq_iff rhs rhs' hright hright'
          simp [Alike, hl, hr, ArithOp.symbol_injective.eq_iff, and_comm]
      | _ => exact encode_eq_iff_of_kind_ne Kind.noConfusion h h' id
  | .object fields, e', h, h' => by
      cases e' with
      | object fields' =>
          obtain ⟨members, hmembers, rfl⟩ := encode_object_eq_ok.1 h
          obtain ⟨members', hmembers', rfl⟩ := encode_object_eq_ok.1 h'
          rw [Json.obj.injEq, encodeFields_eq_iff fields fields' hmembers hmembers', Alike]
      | _ => exact encode_eq_iff_of_kind_ne Kind.noConfusion h h' id

theorem encodeFields_eq_iff {members members' : Fields Json} :
    ∀ fields fields' : List (String × Expr), encodeFields fields = .ok members →
      encodeFields fields' = .ok members' → (members = members' ↔ FieldsAlike fields fields')
  | [], fields', h, h' => by
      cases h
      cases fields' with
      | nil =>
          cases h'
          simp [FieldsAlike]
      | cons field rest =>
          obtain ⟨value, others, -, -, rfl⟩ := encodeFields_cons_eq_ok.1 h'
          simp [FieldsAlike]
  | (name, e) :: rest, fields', h, h' => by
      obtain ⟨value, others, hvalue, hothers, rfl⟩ := encodeFields_cons_eq_ok.1 h
      cases fields' with
      | nil =>
          cases h'
          simp [FieldsAlike]
      | cons field rest' =>
          obtain ⟨value', others', hvalue', hothers', rfl⟩ := encodeFields_cons_eq_ok.1 h'
          have hfirst := encode_eq_iff e field.2 hvalue hvalue'
          have hrest := encodeFields_eq_iff rest rest' hothers hothers'
          simp [FieldsAlike, hfirst, hrest, and_assoc]

end

mutual

/-- An expression has a document when its literals have. -/
theorem exists_encode_iff : ∀ e : Expr,
    (∃ j, e.encode = .ok j) ↔ ∀ v ∈ e.literals, v.isFinite = true
  | .literal v => by simp [encode_literal_eq_ok, literals]
  | .path p => by simp [encode_path_eq_ok, literals]
  | .arith op lhs rhs => by
      simp only [literals, List.forall_mem_append, ← exists_encode_iff lhs, ← exists_encode_iff rhs,
        encode_arith_eq_ok]
      constructor
      · rintro ⟨_, left, right, hleft, hright, -⟩
        exact ⟨⟨left, hleft⟩, right, hright⟩
      · rintro ⟨⟨left, hleft⟩, right, hright⟩
        exact ⟨_, left, right, hleft, hright, rfl⟩
  | .object fields => by
      simp only [literals, ← exists_encodeFields_iff fields, encode_object_eq_ok]
      constructor
      · rintro ⟨_, members, hmembers, -⟩
        exact ⟨members, hmembers⟩
      · rintro ⟨members, hmembers⟩
        exact ⟨_, members, hmembers, rfl⟩

theorem exists_encodeFields_iff : ∀ fields : List (String × Expr),
    (∃ members, encodeFields fields = .ok members) ↔ ∀ v ∈ fieldLiterals fields, v.isFinite = true
  | [] => by simp [encodeFields_nil, fieldLiterals]
  | (name, e) :: rest => by
      simp only [fieldLiterals, List.forall_mem_append, ← exists_encode_iff e,
        ← exists_encodeFields_iff rest, encodeFields_cons_eq_ok]
      constructor
      · rintro ⟨_, value, others, hvalue, hothers, -⟩
        exact ⟨⟨value, hvalue⟩, others, hothers⟩
      · rintro ⟨⟨value, hvalue⟩, others, hothers⟩
        exact ⟨_, value, others, hvalue, hothers, rfl⟩

end

/-- An expression is written exactly when no literal in it holds a number without a JSON form.
Two expressions are written the same exactly when they are the same tree of the same operators,
paths and names, with literals that are written the same. In particular a nested object is not
written like anything else. -/
theorem encode_eq_iff_alike (e e' : Expr) :
    ((∃ j, e.encode = .ok j) ↔ ∀ v ∈ e.literals, ∀ d ∈ v.doubles, d.isFinite = true) ∧
    (∀ j j', e.encode = .ok j → e'.encode = .ok j' → (j = j' ↔ Alike e e')) ∧
    ∀ fields j, e = .object fields → e.encode = .ok j → e'.encode = .ok j →
      ∃ fields', e' = .object fields' := by
  refine ⟨?_, fun j j' => encode_eq_iff e e', ?_⟩
  · simp only [exists_encode_iff, Value.isFinite, List.all_eq_true]
  · rintro fields j rfl h h'
    have hkind : Kind.object = e'.kind := kind_eq_of_encode_eq h h'
    cases e' with
    | object fields' => exact ⟨fields', rfl⟩
    | _ => cases hkind

end Expr

end EventSearch
