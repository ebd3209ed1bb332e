import EventSearch.Condition.Basic

/-!
# Documents of conditions

The form of what is written for a condition: a literal or a set of literals, as the operator
asks for, and the path of a field. A condition on a stream also has a reference to that stream
and is marked as a span.
-/
namespace EventSearch

namespace Json

/-- A latitude and a longitude. -/
inductive IsPoint : Json → Prop
  | mk {lat lon : Double} (hlat : lat.isFinite = true) (hlon : lon.isFinite = true) :
      IsPoint (.arr [.double lat hlat, .double lon hlon])

/-- A tag with a content of its kind. -/
inductive IsLiteral : Json → Prop
  | bool (b : Bool) : IsLiteral (literal "bool" (.bool b))
  | int {n : Int} (fits : FitsWord n) : IsLiteral (literal "int" (.int n fits))
  | double {d : Double} (finite : d.isFinite = true) :
      IsLiteral (literal "double" (.double d finite))
  | string (s : String) : IsLiteral (literal "string" (.str s))
  | date (s : String) : IsLiteral (literal "date" (.str s))
  | dateTime (s : String) : IsLiteral (literal "datetime" (.str s))
  | circle {center : Json} {radius : Double} (finite : radius.isFinite = true) :
      center.IsPoint →
        IsLiteral (literal "circle" (.obj [("center", center), ("radius", .double radius finite)]))
  | polygon {points : List Json} : (∀ p ∈ points, p.IsPoint) →
      IsLiteral (literal "polygon" (.arr points))

/-- What an operator compares with. -/
inductive IsArgument (op : Operator) : Json → Prop
  | one {v : Json} : op.isMembership = false → v.IsLiteral → IsArgument op v
  | set {vs : List Json} : op.isMembership = true → (∀ v ∈ vs, v.IsLiteral) →
      IsArgument op (literal "set" (.arr vs))

/-- A test of the field of an event that the segments lead to. -/
inductive IsFieldTest (segments : List String) : Fields Json → Prop
  | mk {op : Operator} {arg : Json} : arg.IsArgument op →
      IsFieldTest segments
        [("arg", arg), ("op", .str op.text), ("path", .arr (("event" :: segments).map .str))]

/-- A stream with its name, and with a filter, metadata and a time offset if it has them. -/
inductive IsReference : Json → Prop
  | mk {filter metadata tz : Option Json} (name : String) :
      (∀ f ∈ filter, ∃ segments fields, IsFieldTest segments fields ∧ f = .obj fields) →
      (∀ m ∈ metadata, ∃ members, members ≠ [] ∧ m = .obj members) →
      (∀ t ∈ tz, ∃ text, t = .str text) →
      IsReference (.obj (Fields.optional "filter" filter ++ Fields.optional "metadata" metadata ++
        [("name", .str name)] ++ Fields.optional "tz" tz))

/-- A test of a field of the current event or of a stream. -/
inductive IsCondition : Fields Json → Prop
  | event {segments : List String} {fields : Fields Json} :
      IsFieldTest segments fields → IsCondition fields
  | span {segments : List String} {fields : Fields Json} {reference : Json} :
      segments ≠ [] → IsFieldTest segments fields → reference.IsReference →
      IsCondition (fields ++ [("stream", reference), ("type", .str "span")])

theorem ofDouble_eq {d : Double} (h : d.isFinite = true) : ofDouble d = .double d h := by
  simp [ofDouble, double?, h]

end Json

theorem Point.isPoint_encode {p : Point} (h : ∀ d ∈ p.coordinates, d.isFinite = true) :
    p.encode.IsPoint := by
  have hlat : p.lat.isFinite = true := h _ (by simp [coordinates])
  have hlon : p.lon.isFinite = true := h _ (by simp [coordinates])
  rw [encode, Json.ofDouble_eq hlat, Json.ofDouble_eq hlon]
  exact .mk hlat hlon

theorem Region.isLiteral_content {r : Region} (h : ∀ d ∈ r.coordinates, d.isFinite = true) :
    (literal r.tag r.content).IsLiteral := by
  cases r with
  | circle center radius =>
      have hradius : radius.isFinite = true := h _ (by simp [coordinates])
      have hcenter : center.encode.IsPoint :=
        Point.isPoint_encode fun d hd => h d (by simp [coordinates, hd])
      rw [tag, content, Json.ofDouble_eq hradius]
      exact .circle hradius hcenter
  | polygon points =>
      refine .polygon fun j hj => ?_
      obtain ⟨p, hp, rfl⟩ := List.mem_map.1 hj
      exact Point.isPoint_encode fun d hd => h d (List.mem_flatMap.2 ⟨p, hp, hd⟩)

theorem Value.isLiteral_encode {v : Value} (h : v.isFinite = true) : v.encode.IsLiteral := by
  have hdoubles : ∀ d ∈ v.doubles, d.isFinite = true := List.all_eq_true.1 h
  cases v with
  | bool b => exact .bool b
  | int n => exact .int _
  | double d =>
      have hd : d.isFinite = true := hdoubles d (by simp [doubles])
      rw [encode, content, Json.ofDouble_eq hd]
      exact .double hd
  | string s => exact .string s
  | date d => exact .date _
  | dateTime t => exact .dateTime _
  | region r => exact r.isLiteral_content hdoubles

theorem Test.isArgument_encode (t : Test) : t.arg.encode.IsArgument t.op := by
  have hshape := t.admissible.shape
  have hfinite := t.admissible.finite
  cases harg : t.arg with
  | value v =>
      rw [harg] at hshape hfinite
      exact .one hshape.symm (Value.isLiteral_encode (hfinite v (by simp [Argument.values])))
  | set vs =>
      rw [harg] at hshape hfinite
      refine .set hshape.symm fun j hj => ?_
      obtain ⟨v, hv, rfl⟩ := List.mem_map.1 hj
      exact Value.isLiteral_encode (hfinite v hv)

theorem EventCondition.isFieldTest_fields (c : EventCondition) :
    Json.IsFieldTest c.path.segments c.fields := .mk c.test.isArgument_encode

theorem Stream.isReference_referenceWith (s : Stream) (offset : Option Offset) :
    (s.referenceWith offset).IsReference := by
  refine .mk s.name (fun f hf => ?_) (fun m hm => ?_) fun t ht => ?_
  · obtain ⟨c, -, rfl⟩ := Option.map_eq_some_iff.1 hf
    exact ⟨_, _, c.isFieldTest_fields, rfl⟩
  · split at hm
    · cases hm
    · next hmetadata =>
        cases hm
        exact ⟨s.metadata, by simpa using hmetadata, rfl⟩
  · obtain ⟨o, -, rfl⟩ := Option.map_eq_some_iff.1 ht
    exact ⟨_, rfl⟩

namespace Condition

theorem isFieldTest_of_isBound {c : Condition} (h : c.isBound = false) :
    Json.IsFieldTest c.path.eventPath.segments c.fields := by
  have hstream : c.stream? = none := by simpa [isBound] using h
  rw [fields, hstream]
  exact .mk c.test.isArgument_encode

/-- A condition on a stream names a field of it. -/
theorem segments_ne_nil {c : Condition} {stream : Stream} (h : c.stream? = some stream) :
    c.path.eventPath.segments ≠ [] := by
  have hground := c.grounded
  rw [stream?] at h
  rw [PathRef.isGrounded, h] at hground
  simpa [EventPath.isRoot] using hground

theorem isCondition_fields (c : Condition) : Json.IsCondition c.fields := by
  cases hstream : c.stream? with
  | none => exact .event (isFieldTest_of_isBound (by simp [isBound, hstream]))
  | some stream =>
      rw [fields, hstream]
      exact .span (segments_ne_nil hstream) (.mk c.test.isArgument_encode)
        (stream.isReference_referenceWith _)

end Condition

theorem Json.IsFieldTest.names {segments : List String} {fields : Fields Json}
    (h : IsFieldTest segments fields) : fields.map Prod.fst = ["arg", "op", "path"] := by
  cases h
  rfl

end EventSearch
