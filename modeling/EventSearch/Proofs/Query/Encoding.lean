import EventSearch.Proofs.Outcome
import EventSearch.Proofs.Value.Literal
import EventSearch.Query.Basic

/-!
# Encoding queries step by step

What a query, its select, its projection and the expressions in that are written as, in terms of
what their parts are written as. The proofs about their documents are in these terms.
-/
namespace EventSearch

namespace Expr

variable {e : Expr} {j : Json}

theorem encode_literal_eq_ok {v : Value} :
    (literal v).encode = .ok j ↔ v.isFinite = true ∧ j = v.encode := by
  rw [encode_literal, bind_eq_ok]
  constructor
  · rintro ⟨⟨⟩, hfinite, h⟩
    exact ⟨Value.isFinite_of_requireFinite hfinite, (Except.ok.inj h).symm⟩
  · rintro ⟨hfinite, rfl⟩
    exact ⟨(), Value.requireFinite_of_isFinite hfinite, rfl⟩

theorem encode_path_eq_ok {p : EventPath} :
    (path p).encode = .ok j ↔ j = .obj [("path", p.encode)] := by
  rw [encode_path, Except.ok.injEq]
  exact eq_comm

theorem encode_arith_eq_ok {op : ArithOp} {lhs rhs : Expr} :
    (arith op lhs rhs).encode = .ok j ↔ ∃ left right, lhs.encode = .ok left ∧
      rhs.encode = .ok right ∧ j = .obj [("args", .arr [left, right]), ("expr", .str op.symbol)] := by
  simp only [encode_arith, bind_eq_ok, Except.ok.injEq, eq_comm (b := j), exists_and_left]

theorem encode_object_eq_ok {fields : List (String × Expr)} :
    (object fields).encode = .ok j ↔ ∃ members, encodeFields fields = .ok members ∧
      j = .obj members := by
  simp only [encode_object, bind_eq_ok, Except.ok.injEq, eq_comm (b := j)]

theorem encodeFields_cons_eq_ok {name : String} {rest : List (String × Expr)}
    {members : Fields Json} :
    encodeFields ((name, e) :: rest) = .ok members ↔ ∃ value others, e.encode = .ok value ∧
      encodeFields rest = .ok others ∧ members = (name, value) :: others := by
  simp only [encodeFields_cons, bind_eq_ok, Except.ok.injEq, eq_comm (b := members),
    exists_and_left]

end Expr

namespace Projection

theorem encodeOutput_eq_ok {entry : StreamOutput} {j : Json} :
    encodeOutput entry = .ok j ↔ ∃ members, Expr.encodeFields entry.fields = .ok members ∧
      j = .obj [("projection", .obj members), ("stream", entry.stream.reference)] := by
  simp only [encodeOutput, bind_eq_ok, Except.ok.injEq, eq_comm (b := j)]

theorem encode_eq_ok {p : Projection} {j : Json} : p.encode = .ok j ↔ ∃ items,
    p.outputs.mapM encodeOutput = .ok items ∧
      j = .obj (Fields.optional "..." (p.includeDefault.map .bool) ++
        Fields.optional "explicit" (if items.isEmpty then none else some (.arr items))) := by
  simp only [encode, bind_eq_ok, Except.ok.injEq, eq_comm (b := j)]

end Projection

namespace Select

theorem addWindow_eq_ok {object members : Fields Json} {key : WindowKey} {value : Json}
    (h : addWindow object key value = .ok members) :
    members = Fields.insert key.name value object := by
  unfold addWindow at h
  split at h
  · cases h
  · exact (Except.ok.inj h).symm

/-- A select is written as its pattern, with the window set if there is one. -/
theorem encode_eq_ok {s : Select} {j : Json} (h : s.encode = .ok j) :
    ∃ members, s.pattern = .ok (.obj members) ∧ (j = .obj members ∨ ∃ key value,
      s.window = .ok (some (key, value)) ∧ j = .obj (Fields.insert key.name value members)) := by
  obtain ⟨pattern, hpattern, h⟩ := bind_eq_ok.1 h
  split at h
  · next members =>
      obtain ⟨stated, hstated, h⟩ := bind_eq_ok.1 h
      refine ⟨members, hpattern, ?_⟩
      split at h
      · next key value =>
          obtain ⟨changed, hchanged, h⟩ := bind_eq_ok.1 h
          rw [addWindow_eq_ok hchanged] at h
          exact .inr ⟨key, value, hstated, (Except.ok.inj h).symm⟩
      · exact .inl (Except.ok.inj h).symm
  · cases h

end Select

namespace Query

/-- The document of a query consists of those of its select and of its projection. -/
theorem encode_eq_ok {q : Query} {document : Json} (h : q.encode = .ok document) :
    ∃ select, q.select.encode = .ok select ∧
      (q.projection = none ∧ document = .obj [("select", select)] ∨
        ∃ p projections, q.projection = some p ∧ p.encode = .ok projections ∧
          document = .obj [("projections", projections), ("select", select)]) := by
  obtain ⟨select, hselect, h⟩ := bind_eq_ok.1 h
  refine ⟨select, hselect, ?_⟩
  split at h
  · next hnone => exact .inl ⟨hnone, (Except.ok.inj h).symm⟩
  · next p hsome =>
      obtain ⟨projections, hprojections, h⟩ := bind_eq_ok.1 h
      exact .inr ⟨p, projections, hsome, hprojections, (Except.ok.inj h).symm⟩

end Query

end EventSearch
