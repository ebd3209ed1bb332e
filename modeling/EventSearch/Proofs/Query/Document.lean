import EventSearch.Proofs.Node.Document
import EventSearch.Proofs.Query.Presence
import EventSearch.Proofs.Value.Literal

/-!
# Documents of queries

The document of a query whose pattern can be built is sound. Conditions are checked when they
are made, filters and the events of switches take no condition on a stream, and literals
of projections are checked when they are written. So no place in a document is left where a
number without a JSON form could be written as null.
-/
namespace EventSearch

open Json

/-! ## Values -/

theorem Json.IsPoint.sound {p : Json} (h : p.IsPoint) : Sound .content p := by
  cases h with
  | mk hlat hlon =>
      exact sound_arr (forall_mem_pair (sound_of_isScalar trivial) (sound_of_isScalar trivial))

theorem Json.sound_literal {tag : String} {content : Json} (h : Sound .content content) :
    Sound .content (literal tag content) :=
  sound_content (forall_mem_pair (sound_of_isScalar trivial) h)

theorem Json.IsLiteral.sound {v : Json} (h : v.IsLiteral) : Sound .content v := by
  cases h with
  | circle finite hcenter =>
      exact sound_literal
        (sound_content (forall_mem_pair hcenter.sound (sound_of_isScalar trivial)))
  | polygon hpoints => exact sound_literal (sound_arr fun p hp => (hpoints p hp).sound)
  | _ => exact sound_literal (sound_of_isScalar trivial)

theorem Json.IsArgument.sound {op : Operator} {arg : Json} (h : arg.IsArgument op) :
    Sound .content arg := by
  cases h with
  | one _ hv => exact hv.sound
  | set _ hvs => exact sound_literal (sound_arr fun v hv => (hvs v hv).sound)

theorem EventPath.sound_encode (p : EventPath) : Sound .content p.encode := by
  refine sound_arr (List.forall_mem_cons.2 ⟨sound_of_isScalar trivial, fun j hj => ?_⟩)
  obtain ⟨s, -, rfl⟩ := List.mem_map.1 hj
  exact sound_of_isScalar trivial

theorem Duration.sound_encode (d : Duration) : Sound .content d.encode := by
  unfold encode
  split
  · exact sound_content (List.forall_mem_singleton.2 (sound_of_isScalar trivial))
  · refine sound_content fun m hm => ?_
    rcases Fields.mem_insertAll hm with hm | hm
    · obtain ⟨unit, -, rfl⟩ := List.mem_map.1 hm
      exact sound_of_isScalar trivial
    · cases hm

theorem Length.sound_encode (l : Length) : Sound .content l.encode := by
  cases l with
  | exactly d => exact sound_content (List.forall_mem_singleton.2 d.sound_encode)
  | range low high =>
      refine sound_content fun m hm => ?_
      rcases List.mem_append.1 hm with hm | hm
      all_goals
        obtain ⟨j, hj, rfl⟩ := Fields.mem_optional hm
        obtain ⟨d, -, rfl⟩ := Option.map_eq_some_iff.1 hj
        exact d.sound_encode

theorem Constraints.sound_of_mem_fields {k : Constraints} {m : String × Json}
    (h : m ∈ k.fields) : Sound .content m.2 := by
  simp only [fields, List.mem_append] at h
  rcases h with (h | h) | h
  all_goals
    obtain ⟨j, hj, rfl⟩ := Fields.mem_optional h
    obtain ⟨v, -, rfl⟩ := Option.map_eq_some_iff.1 hj
    exact v.sound_encode

theorem Constraints.sound_apply {k : Constraints} {j : Json} (h : Sound .pattern j) :
    Sound .pattern (k.apply j) := by
  cases j with
  | obj members => exact h.insertAll fun m hm => ⟨not_mem_reserved hm, sound_of_mem_fields hm⟩
  | _ => exact h

/-! ## Conditions and streams -/

theorem Json.IsLiteral.type_ne_set {v : Json} (h : v.IsLiteral) :
    v.get? "type" ≠ some (.str "set") := by
  cases h <;> simp [literal, get?, Fields.get?]

/-- The argument of membership is a set, and no other argument is. -/
theorem Json.IsArgument.isSet_iff {op : Operator} {arg : Json} (h : arg.IsArgument op) :
    arg.get? "type" = some (.str "set") ↔ op.text = "in" ∨ op.text = "not in" := by
  have htext : (op.text = "in" ∨ op.text = "not in") ↔ op.isMembership = true := by
    cases op <;> decide
  rw [htext]
  cases h with
  | one hop hv => simp [hv.type_ne_set, hop]
  | set hop _ => simp [literal, get?, Fields.get?, hop]

/-- The only region among the literals of a single value is that value. -/
theorem Value.eq_of_mem_literals {v : Value} {l : Json} (hl : l ∈ v.encode.literals)
    (hregion : l.IsRegion) : l = v.encode ∧ v.isRegion = true := by
  rcases List.mem_cons.1 hl with hl | hl
  · refine ⟨hl, ?_⟩
    subst hl
    cases v with
    | region r => rfl
    | _ => simp [IsRegion, encode, tag, literal, get?, Fields.get?] at hregion
  · -- Only a polygon has items, and these are points.
    have hitem : l ∈ (v.content.arr?).getD [] := hl
    have htype : l.get? "type" = none := by
      cases v with
      | double d =>
          simp only [content, ofDouble, double?] at hitem
          split at hitem <;> cases hitem
      | region r =>
          cases r with
          | circle center radius => cases hitem
          | polygon points =>
              obtain ⟨p, -, rfl⟩ := List.mem_map.1 hitem
              rfl
      | _ => cases hitem
    simp [IsRegion, htype] at hregion

/-- A region is the argument itself, and then the test is one for equality. -/
theorem Test.eq_of_mem_literals (t : Test) {l : Json} (hl : l ∈ t.arg.encode.literals)
    (hregion : l.IsRegion) : l = t.arg.encode ∧ t.op.text = "==" := by
  have hshape := t.admissible.shape
  have hadmissible := t.admissible.region
  cases harg : t.arg with
  | value v =>
      rw [harg] at hl hadmissible
      obtain ⟨hlv, hv⟩ := Value.eq_of_mem_literals hl hregion
      have hop : t.op = .eq := hadmissible v (List.mem_singleton.2 rfl) hv
      exact ⟨hlv, by rw [hop]; rfl⟩
  | set vs =>
      rw [harg] at hl hshape hadmissible
      rcases List.mem_cons.1 hl with hl | hl
      · subst hl
        simp [IsRegion, Argument.encode, literal, get?, Fields.get?] at hregion
      · -- A region among the members would ask for another operator.
        obtain ⟨v, hv, rfl⟩ := List.mem_map.1 hl
        have hvregion : v.isRegion = true :=
          (Value.eq_of_mem_literals List.mem_cons_self hregion).2
        have hop : t.op = .eq := hadmissible v hv hvregion
        rw [hop] at hshape
        cases hshape

/-- The test that an object states fits together. -/
theorem Test.fits (t : Test) {c : Json} (hop : c.get? "op" = some (.str t.op.text))
    (harg : c.get? "arg" = some t.arg.encode) :
    ∃ op arg, c.get? "op" = some (.str op) ∧ c.get? "arg" = some arg ∧
      (arg.get? "type" = some (.str "set") ↔ op = "in" ∨ op = "not in") ∧
      ∀ l ∈ arg.literals, l.IsRegion → l = arg ∧ op = "==" :=
  ⟨_, _, hop, harg, t.isArgument_encode.isSet_iff, fun _ => t.eq_of_mem_literals⟩

variable {role : Role}

/-- The members that state a test are content, whatever stands next to them. -/
theorem Test.sound_member (t : Test) (path : EventPath) (owner : Fields Json)
    (hrole : role.HoldsCondition) :
    ∀ m ∈ [("arg", t.arg.encode), ("op", .str t.op.text), ("path", path.encode)],
      Sound (role.ofMember owner m.1) m.2 := by
  have harg : Sound .content t.arg.encode := t.isArgument_encode.sound
  have hpath : Sound .content path.encode := path.sound_encode
  rcases hrole with rfl | rfl | rfl
  all_goals
    exact List.forall_mem_cons.2 ⟨harg, forall_mem_pair (sound_of_isScalar trivial) hpath⟩

/-- A test of a field can be met wherever conditions stand. -/
theorem Test.sound_fields (t : Test) (path : EventPath) (hrole : role.HoldsCondition) :
    Sound role (.obj [("arg", t.arg.encode), ("op", .str t.op.text), ("path", path.encode)]) :=
  sound_obj (fun _ _ => ⟨t.fits rfl rfl, nofun⟩) (t.sound_member path _ hrole)

theorem Stream.sound_referenceWith (s : Stream) (offset : Option Offset) :
    Sound .reference (s.referenceWith offset) := by
  refine sound_record (by decide) fun m hm => ?_
  simp only [List.mem_append] at hm
  rcases hm with ((hm | hm) | hm) | hm
  · obtain ⟨j, hj, rfl⟩ := Fields.mem_optional hm
    obtain ⟨c, -, rfl⟩ := Option.map_eq_some_iff.1 hj
    exact c.test.sound_fields c.path (.inr (.inr rfl))
  · obtain ⟨j, -, rfl⟩ := Fields.mem_optional hm
    exact sound_metadata j
  · cases List.mem_singleton.1 hm
    exact sound_of_isScalar trivial
  · obtain ⟨j, hj, rfl⟩ := Fields.mem_optional hm
    obtain ⟨o, -, rfl⟩ := Option.map_eq_some_iff.1 hj
    exact sound_of_isScalar trivial

theorem Condition.sound_encode (c : Condition) (hrole : role.HoldsCondition)
    (hbound : c.isBound = true → role = .pattern) : Sound role c.encode := by
  rw [encode, fields]
  cases hstream : c.stream? with
  | none => exact c.test.sound_fields c.path.eventPath hrole
  | some stream =>
      have hpattern : role = .pattern := hbound (by rw [isBound, hstream]; rfl)
      subst hpattern
      have hlength : 2 ≤ (("event" :: c.path.eventPath.segments).map Json.str).length := by
        have hpos := List.length_pos_iff.2 (segments_ne_nil hstream)
        rw [List.length_map, List.length_cons]
        omega
      refine sound_obj (fun _ _ => ⟨c.test.fits rfl rfl, fun _ => ⟨rfl, _, rfl, hlength⟩⟩) ?_
      exact List.forall_mem_append.2 ⟨c.test.sound_member _ _ hrole,
        forall_mem_pair (stream.sound_referenceWith _) (sound_of_isScalar trivial)⟩

/-! ## Patterns -/

/-- Operands of an operator have the role of the whole. -/
theorem Json.sound_binary {op : String} {left right : Json}
    (hrole : role = .pattern ∨ role = .event) (hleft : Sound role left)
    (hright : Sound role right) : Sound role (binary op left right) := by
  have hargs : Sound role (.arr [left, right]) :=
    sound_arr (forall_mem_pair hleft hright)
  refine sound_unconditional rfl ?_
  rcases hrole with rfl | rfl
  all_goals
    exact forall_mem_pair hargs (sound_of_isScalar trivial)

theorem Node.sound_typed {type : String} {members : List Json} (htype : type ≠ "switch")
    (h : ∀ j ∈ members, Sound .pattern j) : Sound .pattern (typed type members) := by
  have hconds : Sound (Role.ofMember [("conds", .arr members), ("type", .str type)] .pattern
      "conds") (.arr members) := by
    rw [Role.ofMember_conds htype]
    exact sound_arr h
  exact sound_unconditional rfl (forall_mem_pair hconds (sound_of_isScalar trivial))

theorem Node.sound_withDefaultGap {j : Json} (h : Sound .pattern j) :
    Sound .pattern (withDefaultGap j) := by
  cases j with
  | obj members =>
      rw [withDefaultGap]
      split
      · exact h
      · exact h.insert (by decide) (Duration.sound_encode .zero)
  | _ => exact h

namespace Switch

theorem sound_encodeGroup {g : List Condition} {j : Json} (hg : ∀ c ∈ g, c.isBound = false)
    (hj : encodeGroup g = some j) : Sound .event j := by
  refine rightFold_induction (fun left right => sound_binary (.inr rfl)) ?_ hj
  intro i hi
  obtain ⟨c, hc, rfl⟩ := List.mem_map.1 hi
  refine c.sound_encode (.inr (.inl rfl)) fun hbound => ?_
  rw [hg c hc] at hbound
  cases hbound

/-- The events of a complete switch are conditions on no other stream. -/
theorem IsProper.sound {s : Switch} (hs : s.IsProper) (stream : Stream) :
    Sound .pattern (.obj [("conds", .arr (s.groups.filterMap encodeGroup)),
      ("stream", stream.reference), ("type", .str "switch")]) := by
  have hevents : Sound .event (.arr (s.groups.filterMap encodeGroup)) := by
    refine sound_arr fun j hj => ?_
    obtain ⟨g, hg, hgj⟩ := List.mem_filterMap.1 hj
    exact sound_encodeGroup (hs.2 g hg).2 hgj
  have hstream : Sound .reference stream.reference := stream.sound_referenceWith none
  exact sound_unconditional rfl
    (List.forall_mem_cons.2 ⟨hevents, forall_mem_pair hstream (sound_of_isScalar trivial)⟩)

end Switch

/-- What is written for a pattern of canonical form is sound. -/
theorem Node.sound_of_canonical {n : Node} {j : Json} (hn : Throughout Canonical n)
    (h : n.encode = .ok j) : Sound .pattern j := by
  induction n using inductionOnParts generalizing j with
  | _ n ih =>
      have hparts : ∀ c ∈ n.parts, ∀ j, encode c = .ok j → Sound .pattern j := by
        intro c hc j hj
        exact ih c hc (hn.of_mem_parts hc) hj
      cases n with
      | condition c =>
          rw [encode_condition] at h
          cases h
          exact c.sound_encode (.inl rfl) fun _ => rfl
      | and children k =>
          obtain ⟨asts, ast, hasts, hast, rfl⟩ := encode_and_eq_ok.1 h
          have hmembers := forall_of_encodeAll hasts hparts
          exact Constraints.sound_apply
            (rightFold_induction (fun left right => sound_binary (.inl rfl)) hmembers hast)
      | or children =>
          obtain ⟨asts, hasts, hast⟩ := encode_or_eq_ok.1 h
          have hmembers := forall_of_encodeAll hasts hparts
          exact rightFold_induction (fun left right => sound_binary (.inl rfl)) hmembers hast
      | group mode children =>
          obtain ⟨-, asts, hasts, rfl⟩ := encode_group_eq_ok.1 h
          have htype : mode.name ≠ "switch" := by cases mode <;> decide
          exact sound_typed htype (forall_of_encodeAll hasts hparts)
      | serial steps =>
          rcases encode_serial_eq_ok.1 h with hasts | ⟨first, second, rest, hasts, rfl⟩
          · exact forall_of_encodeAll hasts hparts j List.mem_cons_self
          · have hsteps := forall_of_encodeAll hasts hparts
            refine sound_typed (by decide) (List.forall_mem_cons.2
              ⟨hsteps first List.mem_cons_self, fun ast hast => ?_⟩)
            obtain ⟨step, hstep, rfl⟩ := List.mem_map.1 hast
            exact sound_withDefaultGap (hsteps step (List.mem_cons_of_mem _ hstep))
      | switch s =>
          obtain ⟨stream, -, rfl⟩ := encode_switch_eq_ok.1 h
          exact Switch.IsProper.sound hn.self stream

/-! ## Queries -/

theorem Select.sound_window {s : Select} {key : WindowKey} {value : Json}
    (h : s.window = .ok (some (key, value))) : Sound .content value := by
  unfold window at h
  split at h
  · split at h
    · cases h
      exact sound_arr (forall_mem_pair (sound_of_isScalar trivial) (sound_of_isScalar trivial))
    · cases h
  · cases h
    exact sound_of_isScalar trivial
  · cases h
    exact sound_of_isScalar trivial
  · cases h

theorem Select.sound_pattern {s : Select} {j : Json} (hroot : ∀ n ∈ s.root, n.Reachable)
    (h : s.pattern = .ok j) : Sound .pattern j := by
  unfold pattern at h
  split at h
  · next n hn =>
      exact Node.sound_of_canonical ((hroot n hn).throughout Node.preserved_canonical) h
  · cases h
    exact sound_unconditional rfl (List.forall_mem_nil _)

theorem Select.sound_encode {s : Select} {j : Json} (hroot : ∀ n ∈ s.root, n.Reachable)
    (h : s.encode = .ok j) : Sound .pattern j := by
  obtain ⟨members, hpattern, hj⟩ := encode_eq_ok h
  have hsound : Sound .pattern (.obj members) := sound_pattern hroot hpattern
  rcases hj with hj | ⟨key, value, hwindow, hj⟩
  · exact hj ▸ hsound
  · exact hj ▸ hsound.insert (name_not_mem_reserved key) (sound_window hwindow)

namespace Expr

mutual

/-- A literal is checked when it is written, at any depth. -/
theorem sound_encode {j : Json} : ∀ e : Expr, e.encode = .ok j → Sound .content j
  | .literal v, h => by
      obtain ⟨hfinite, rfl⟩ := encode_literal_eq_ok.1 h
      exact (Value.isLiteral_encode hfinite).sound
  | .path p, h => by
      rw [encode_path_eq_ok.1 h]
      exact sound_content (List.forall_mem_singleton.2 p.sound_encode)
  | .arith op lhs rhs, h => by
      obtain ⟨left, right, hleft, hright, rfl⟩ := encode_arith_eq_ok.1 h
      have hargs : Sound .content (.arr [left, right]) :=
        sound_arr (forall_mem_pair (sound_encode lhs hleft) (sound_encode rhs hright))
      exact sound_content (forall_mem_pair hargs (sound_of_isScalar trivial))
  | .object fields, h => by
      obtain ⟨members, hmembers, rfl⟩ := encode_object_eq_ok.1 h
      exact sound_content (sound_encodeFields fields hmembers)

theorem sound_encodeFields {members : Fields Json} : ∀ fields : List (String × Expr),
    encodeFields fields = .ok members → ∀ m ∈ members, Sound .content m.2
  | [], h => by
      rw [encodeFields_nil] at h
      cases h
      exact List.forall_mem_nil _
  | (name, e) :: rest, h => by
      obtain ⟨value, others, hvalue, hothers, rfl⟩ := encodeFields_cons_eq_ok.1 h
      exact List.forall_mem_cons.2 ⟨sound_encode e hvalue, sound_encodeFields rest hothers⟩

end

end Expr

namespace Projection

theorem sound_encodeOutput {entry : StreamOutput} {j : Json} (h : encodeOutput entry = .ok j) :
    Sound .output j := by
  obtain ⟨members, hmembers, rfl⟩ := encodeOutput_eq_ok.1 h
  have hfields : Sound .content (.obj members) :=
    sound_content (Expr.sound_encodeFields entry.fields hmembers)
  have hstream : Sound .reference entry.stream.reference := entry.stream.sound_referenceWith none
  exact sound_record (by decide) (forall_mem_pair hfields hstream)

theorem sound_encode {p : Projection} {j : Json} (h : p.encode = .ok j) :
    Sound .projections j := by
  obtain ⟨outputs, houtputs, rfl⟩ := encode_eq_ok.1 h
  have hexplicit : Sound .output (.arr outputs) :=
    sound_arr (forall_of_mapM_eq_ok houtputs fun entry _ j hj => sound_encodeOutput hj)
  refine sound_record (by decide) fun m hm => ?_
  rcases List.mem_append.1 hm with hm | hm
  · obtain ⟨v, hv, rfl⟩ := Fields.mem_optional hm
    obtain ⟨b, -, rfl⟩ := Option.map_eq_some_iff.1 hv
    exact sound_of_isScalar trivial
  · obtain ⟨v, hv, rfl⟩ := Fields.mem_optional hm
    split at hv
    · cases hv
    · cases hv
      exact hexplicit

end Projection

namespace Query

/-- In the document of a query whose pattern can be built, each condition of the pattern, of the
events of a switch and of the filter of a stream can be met where it stands, and there is no null
but in the metadata of streams. No test that the query asks for is missing there. -/
theorem sound_of_encode {q : Query} {document : Json} (hroot : ∀ n ∈ q.select.root, n.Reachable)
    (h : q.encode = .ok document) :
    (∀ role c, Json.Occurs .document document role c → role.HoldsCondition →
      (c.get? "op").isSome → CanBeMet role c) ∧
    (∀ role, Json.Occurs .document document role .null → role = .metadata) ∧
    ∀ role path t, q.Asks role path t →
      ∃ c, Json.Occurs .document document role c ∧ c.States path t := by
  have hsound : Sound .document document := by
    obtain ⟨select, hselect, hdocument⟩ := encode_eq_ok h
    have hpattern := Select.sound_encode hroot hselect
    rcases hdocument with ⟨-, rfl⟩ | ⟨p, projections, -, hprojections, rfl⟩
    · exact sound_record (by decide) (List.forall_mem_singleton.2 hpattern)
    · exact sound_record (by decide)
        (forall_mem_pair (Projection.sound_encode hprojections) hpattern)
  exact ⟨hsound.conditions, hsound.nulls, fun _ _ _ hasks => (poses_of_asks h hasks).2⟩

/-- Cars in one of two modes, with a note that was left open. -/
def cars : Stream where
  name := "cars"
  metadata := [("note", .null)]
  filter := some
    { path := ⟨["mode"]⟩
      test :=
        { op := .isIn
          arg := .set [.string "eco", .string "sport"]
          admissible := ⟨rfl, by decide, by decide⟩ } }

/-- The condition that a car is within a kilometre of the origin. -/
def nearby : Condition where
  path := .stream ⟨cars, ⟨["position"]⟩⟩
  test :=
    { op := .eq
      arg := .value (.region (.circle ⟨.zero false, .zero false⟩ ⟨0x408F400000000000⟩))
      admissible := ⟨rfl, by decide, fun _ _ _ => rfl⟩ }
  grounded := rfl

/-- Such a car, and its change from first gear to second. -/
def arrival : Node :=
  (Node.condition nearby).andThen (.switch ⟨some cars, [[Node.gear 1], [Node.gear 2]]⟩)

/-- In each kind of place there is a condition that can be met, and the note is the only null. -/
theorem canBeMet_arrival : ∃ document,
    (Query.mk (.ofNode arrival) none).encode = .ok document ∧
      (∀ role ∈ [Role.pattern, .event, .filter], ∃ c,
        Json.Occurs .document document role c ∧ CanBeMet role c) ∧
      Json.Occurs .document document .metadata .null ∧
      ¬ Json.Occurs .document document .content .null := by
  have hroot : ∀ n ∈ (Select.ofNode arrival).root, n.Reachable := by
    have hmake : Switch.makeBound cars [[Node.gear 1], [Node.gear 2]] = .ok _ := rfl
    intro n hn
    cases hn
    exact (Node.Reachable.condition nearby).andThen (.makeBound hmake)
  obtain ⟨document, switch, hdocument, hencode⟩ : ∃ document switch,
      document = Json.obj [("select", Node.typed "serial" [nearby.encode, switch])] ∧
        (Query.mk (.ofNode arrival) none).encode = .ok document := ⟨_, _, rfl, rfl⟩
  obtain ⟨hconditions, hnulls, hasks⟩ := sound_of_encode hroot hencode
  refine ⟨document, hencode, ?_, ?_, fun h => nomatch hnulls _ h⟩
  · have hmet : ∀ role path t, Asks ⟨.ofNode arrival, none⟩ role path t → role.HoldsCondition →
        ∃ c, Json.Occurs .document document role c ∧ CanBeMet role c := by
      intro role path t ht hrole
      obtain ⟨c, hc, hstates⟩ := hasks role path t ht
      exact ⟨c, hc, hconditions role c hc hrole (by rw [hstates.op]; rfl)⟩
    have hcondition : Node.Occurs (.condition nearby) arrival := .of_mem_parts (.head _)
    have hswitch : Node.Occurs (.switch ⟨some cars, _⟩) arrival :=
      .of_mem_parts (.tail _ (.head _))
    refine List.forall_mem_cons.2 ⟨?_, forall_mem_pair ?_ ?_⟩
    · exact hmet _ _ _ (.root rfl (.condition hcondition)) (by decide)
    · exact hmet _ _ _ (.root rfl (.event hswitch (.head _) (.head _))) (by decide)
    · exact hmet _ _ _ (.root rfl (.conditionFilter hcondition rfl rfl)) (by decide)
  · subst hdocument
    refine occurs_of_get? "select" rfl (occurs_of_get? "conds" rfl (.item (.head _) ?_))
    exact occurs_of_get? "stream" rfl
      (occurs_of_get? "metadata" rfl (occurs_of_get? "note" rfl (.here _ _)))

end Query

end EventSearch
