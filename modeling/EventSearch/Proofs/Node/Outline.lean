import EventSearch.Proofs.Node.Document

/-!
# Outlines of patterns

The outline of a pattern leaves out what cannot be seen in its document: conjunctions of
one child without constraints, disjunctions of one child and sequences of one step. Conjunctions and
disjunctions of more children are nested to the right, constraints belong to what they stand
around, and the gaps of a sequence are all given. The document of a pattern is
that of its outline.
-/
namespace EventSearch

/-- What combines the members of an outline. Conditions are given by what they are written as,
and so is the stream of a switch, which is missing as long as it is not bound. -/
inductive Shape (α : Type) where
  | condition (fields : Fields Json)
  | binary (op : String) (left right : α)
  | group (mode : GroupMode) (members : List α)
  | serial (steps : List α)
  | switch (events : List (List Json)) (stream : Option Json)
  | nothing

inductive Outline where
  | mk (constraints : Constraints) (shape : Shape Outline)

namespace Shape

variable {α : Type}

def parts : Shape α → List α
  | .binary _ left right => [left, right]
  | .group _ members => members
  | .serial steps => steps
  | .condition _ => []
  | .switch _ _ => []
  | .nothing => []

/-- The members by which a document states the shape, given the documents of its parts. -/
def members : Shape Json → Fields Json
  | .condition fields => fields
  | .binary op left right => [("args", .arr [left, right]), ("expr", .str op)]
  | .group mode asts => [("conds", .arr asts), ("type", .str mode.name)]
  | .serial asts => [("conds", .arr asts), ("type", .str "serial")]
  | .switch events stream =>
      ("conds", .arr (events.filterMap (rightFold "&&"))) ::
        (Fields.optional "stream" stream ++ [("type", .str "switch")])
  | .nothing => []

end Shape

namespace Outline

def constraints : Outline → Constraints
  | .mk k _ => k

def shape : Outline → Shape Outline
  | .mk _ shape => shape

/-- The outline under constraints in place of its own, if there are any. -/
def attach (k : Constraints) (o : Outline) : Outline :=
  if k.isEmpty then o else .mk k o.shape

/-- A step without a gap starts right where the one before it ends. -/
def withDefaultGap (o : Outline) : Outline :=
  if o.constraints.hasGap then o else .mk { o.constraints with within := some .zero } o.shape

/-- The outlines combined by a binary operator from the right. -/
def joined (op : String) : List Outline → Outline
  | [] => .mk .empty .nothing
  | [only] => only
  | first :: rest => .mk .empty (.binary op first (joined op rest))

/-- The outlines as steps with their gaps. -/
def ordered : List Outline → Outline
  | [] => .mk .empty .nothing
  | [only] => only
  | first :: rest => .mk .empty (.serial (first :: rest.map withDefaultGap))

mutual

/-- What an outline is written as. -/
def document : Outline → Json
  | .mk k shape => k.apply (.obj (documentShape shape).members)

def documentShape : Shape Outline → Shape Json
  | .condition fields => .condition fields
  | .binary op left right => .binary op (document left) (document right)
  | .group mode members => .group mode (documents members)
  | .serial steps => .serial (documents steps)
  | .switch events stream => .switch events stream
  | .nothing => .nothing

def documents : List Outline → List Json
  | [] => []
  | o :: rest => document o :: documents rest

end

end Outline

namespace Node

mutual

def outline : Node → Outline
  | .condition c => .mk .empty (.condition c.fields)
  | .and children k => (Outline.joined "&&" (outlines children)).attach k
  | .or children => Outline.joined "||" (outlines children)
  | .group mode children => .mk .empty (.group mode (outlines children))
  | .serial steps => Outline.ordered (outlines steps)
  | .switch s => .mk .empty
      (.switch (s.groups.map fun g => g.map Condition.encode) (s.stream.map Stream.reference))

def outlines : List Node → List Outline
  | [] => []
  | n :: rest => outline n :: outlines rest

end

theorem outline_and (children : List Node) (k : Constraints) :
    outline (.and children k) = (Outline.joined "&&" (outlines children)).attach k := rfl

theorem outline_serial (steps : List Node) :
    outline (.serial steps) = Outline.ordered (outlines steps) := rfl

theorem outlines_eq_map (ns : List Node) : outlines ns = ns.map outline := by
  induction ns with
  | nil => rfl
  | cons n rest ih => exact congrArg (outline n :: ·) ih

end Node

/-! ## Complete outlines -/

/-- The documents of one or more conditions. -/
def Json.AreConditions (asts : List Json) : Prop :=
  asts ≠ [] ∧ ∀ j ∈ asts, ∃ fields, j = .obj fields ∧ IsCondition fields

/-- A shape that can be written: it has members, its conditions have the form of conditions, and
a switch is bound to a stream. -/
def Shape.IsComplete {α : Type} : Shape α → Prop
  | .condition fields => Json.IsCondition fields
  | .switch events stream => (∀ g ∈ events, Json.AreConditions g) ∧ stream.isSome
  | .nothing => False
  | .binary _ _ _ => True
  | .group _ _ => True
  | .serial _ => True

theorem Shape.IsComplete.names {shape : Shape Json} (h : shape.IsComplete) :
    shape.members.map Prod.fst ∈ Json.coreNames := by
  cases shape with
  | condition fields => exact (Json.IsCore.condition h).names
  | binary op left right => simp [members, Json.coreNames]
  | group mode asts => simp [members, Json.coreNames]
  | serial asts => simp [members, Json.coreNames]
  | switch events stream =>
      obtain ⟨stream, rfl⟩ := Option.isSome_iff_exists.1 h.2
      simp [members, Fields.optional, Json.coreNames]
  | nothing => exact h.elim

namespace Outline

inductive Complete : Outline → Prop
  | mk {k : Constraints} {shape : Shape Outline} :
      shape.IsComplete → (∀ o ∈ shape.parts, Complete o) → Complete (.mk k shape)

theorem documents_eq_map (os : List Outline) : documents os = os.map document := by
  induction os with
  | nil => rfl
  | cons o rest ih => exact congrArg (document o :: ·) ih

theorem isComplete_documentShape {shape : Shape Outline} (h : shape.IsComplete) :
    (documentShape shape).IsComplete := by
  cases shape <;> exact h

/-- An outline is written as an object in which its constraints are stated and no others. -/
theorem Complete.document_eq {k : Constraints} {shape : Shape Outline}
    (h : (Outline.mk k shape).Complete) : ∃ members, document (.mk k shape) = .obj members ∧
      k.StatedIn members ∧ Json.core members = (documentShape shape).members := by
  cases h with
  | mk hshape _ =>
      have hunmarked := Json.unmarked_of_names (isComplete_documentShape hshape).names
      refine ⟨_, rfl, k.statedIn_fields hunmarked, ?_⟩
      rw [Json.core_insertAll, Json.core_eq_self hunmarked]

theorem complete_attach {k : Constraints} {o : Outline} (h : o.Complete) :
    (attach k o).Complete := by
  unfold attach
  split
  · exact h
  · cases h with
    | mk hshape hparts => exact .mk hshape hparts

theorem complete_withDefaultGap {o : Outline} (h : o.Complete) : o.withDefaultGap.Complete := by
  unfold withDefaultGap
  split
  · exact h
  · cases h with
    | mk hshape hparts => exact .mk hshape hparts

theorem complete_joined {op : String} {os : List Outline} (hne : os ≠ [])
    (h : ∀ o ∈ os, o.Complete) : (joined op os).Complete := by
  induction os with
  | nil => exact absurd rfl hne
  | cons first rest ih =>
      have hfirst := h first List.mem_cons_self
      have hrest : ∀ o ∈ rest, o.Complete := fun o ho => h o (List.mem_cons_of_mem _ ho)
      cases rest with
      | nil => exact hfirst
      | cons second more =>
          have hjoined := ih (List.cons_ne_nil _ _) hrest
          refine .mk trivial ?_
          simpa [Shape.parts] using And.intro hfirst hjoined

theorem complete_ordered {os : List Outline} (hne : os ≠ []) (h : ∀ o ∈ os, o.Complete) :
    (ordered os).Complete := by
  match os with
  | [] => exact absurd rfl hne
  | [only] => exact h only List.mem_cons_self
  | first :: second :: rest =>
      refine .mk trivial ?_
      intro o ho
      rcases List.mem_cons.1 ho with rfl | ho
      · exact h o List.mem_cons_self
      · obtain ⟨step, hstep, rfl⟩ := List.mem_map.1 ho
        exact complete_withDefaultGap (h step (List.mem_cons_of_mem _ hstep))

/-! ## Documents of outlines -/

theorem document_unconstrained (shape : Shape Outline) :
    document (.mk .empty shape) = .obj (documentShape shape).members := rfl

theorem document_attach {k : Constraints} {o : Outline}
    (h : k.isEmpty = false → o.constraints = .empty) :
    document (attach k o) = k.apply (document o) := by
  unfold attach
  split
  · next hk => rw [Constraints.eq_empty_of_isEmpty hk, Constraints.apply_empty]
  · next hk =>
      have hempty := h (by simpa using hk)
      cases o with
      | mk own shape =>
          cases hempty
          rfl

theorem document_joined {op : String} {os : List Outline} {j : Json}
    (h : rightFold op (os.map document) = some j) : document (joined op os) = j := by
  induction os generalizing j with
  | nil => cases h
  | cons first rest ih =>
      rcases rightFold_cons_eq_some.1 h with ⟨hnil, rfl⟩ | ⟨tail, htail, rfl⟩
      · rw [List.map_eq_nil_iff.1 hnil]
        rfl
      · have hrest := ih htail
        rw [joined, document_unconstrained, documentShape, hrest]
        · rfl
        · rintro rfl
          cases htail

theorem document_withDefaultGap {o : Outline} (h : o.Complete) :
    document o.withDefaultGap = Node.withDefaultGap (document o) := by
  cases o with
  | mk k shape =>
      obtain ⟨members, hdocument, hstated, -⟩ := h.document_eq
      have hgap : (Fields.contains "within" members || Fields.contains "after" members) =
          k.hasGap := by
        simp [Fields.contains, hstated.within, hstated.after, Constraints.hasGap]
      rw [hdocument, Node.withDefaultGap, hgap, withDefaultGap, constraints]
      split
      · exact hdocument
      · next hno =>
          have hwithin : k.within = none := by
            cases hw : k.within with
            | none => rfl
            | some d => simp [Constraints.hasGap, hw] at hno
          have hfields : Constraints.fields { k with within := some .zero } =
              k.fields ++ [("within", Duration.zero.encode)] := by
            simp [Constraints.fields, hwithin, Fields.optional]
          have hmembers : Fields.insertAll (documentShape shape).members k.fields = members :=
            Json.obj.inj hdocument
          change Json.obj (Fields.insertAll (documentShape shape).members
            (Constraints.fields { k with within := some .zero })) = _
          rw [hfields, ← hmembers, Fields.insertAll, List.foldl_append]
          rfl

theorem document_ordered {first second : Outline} {rest : List Outline}
    (h : ∀ o ∈ second :: rest, o.Complete) :
    document (ordered (first :: second :: rest)) = Node.typed "serial"
      (first.document :: (second.document :: rest.map document).map Node.withDefaultGap) := by
  have hrest : ((second :: rest).map withDefaultGap).map document =
      ((second :: rest).map document).map Node.withDefaultGap := by
    rw [List.map_map, List.map_map]
    exact List.map_congr_left fun o ho => document_withDefaultGap (h o ho)
  rw [ordered, document_unconstrained, documentShape, documents_eq_map, List.map_cons, hrest]
  · rfl
  · simp

end Outline

/-! ## Outlines of patterns that can be written -/

namespace Node

open Outline

/-- What stands alone has no constraints of its own. -/
theorem constraints_outline_of_standsAlone {n : Node} (hn : n.StandsAlone) :
    n.outline.constraints = .empty := by
  cases n with
  | condition c => rfl
  | and children k => exact hn.elim
  | or children =>
      match children with
      | [] => rfl
      | [_] => exact absurd rfl hn
      | _ :: _ :: _ => rfl
  | group mode children => rfl
  | serial steps =>
      match steps with
      | [] => rfl
      | [_] => exact absurd rfl hn
      | _ :: _ :: _ => rfl
  | switch s => rfl

theorem constraints_joined_of_standsAlone {op : String} {children : List Node}
    (h : ∀ only, children = [only] → only.StandsAlone) :
    (joined op (outlines children)).constraints = .empty := by
  match children with
  | [] => rfl
  | [only] => exact constraints_outline_of_standsAlone (h only rfl)
  | _ :: _ :: _ => rfl

theorem complete_outlines {ns : List Node} {asts : List Json} (h : encodeAll ns = .ok asts)
    (hcomplete : ∀ n ∈ ns, ∀ j, encode n = .ok j → n.outline.Complete) :
    ∀ o ∈ outlines ns, o.Complete := by
  intro o ho
  rw [outlines_eq_map] at ho
  obtain ⟨n, hn, rfl⟩ := List.mem_map.1 ho
  obtain ⟨j, -, hj⟩ := exists_encode_of_mem h hn
  exact hcomplete n hn j hj

theorem outlines_ne_nil {ns : List Node} {asts : List Json} (h : encodeAll ns = .ok asts)
    (hne : asts ≠ []) : outlines ns ≠ [] := by
  rintro hnil
  rw [outlines_eq_map, List.map_eq_nil_iff] at hnil
  subst hnil
  cases h
  exact hne rfl

theorem ne_nil_of_rightFold {op : String} {asts : List Json} {j : Json}
    (h : rightFold op asts = some j) : asts ≠ [] := by
  rintro rfl
  cases h

theorem isComplete_switch {s : Switch} {stream : Stream} (hs : s.IsProper)
    (hstream : s.stream = some stream) :
    Shape.IsComplete (.switch (s.groups.map fun g => g.map Condition.encode)
      (s.stream.map Stream.reference) : Shape Outline) := by
  refine ⟨fun g hg => ?_, by simp [hstream]⟩
  obtain ⟨group, hgroup, rfl⟩ := List.mem_map.1 hg
  refine ⟨by simpa using (hs.2 group hgroup).1, fun j hj => ?_⟩
  obtain ⟨c, -, rfl⟩ := List.mem_map.1 hj
  exact ⟨c.fields, rfl, c.isCondition_fields⟩

/-- The outline of a pattern that is written has all that a document needs. -/
theorem complete_outline {n : Node} {j : Json} (hn : Throughout Canonical n)
    (h : n.encode = .ok j) : n.outline.Complete := by
  induction n using inductionOnParts generalizing j with
  | _ n ih =>
      have hparts : ∀ {asts}, encodeAll n.parts = .ok asts →
          ∀ o ∈ outlines n.parts, o.Complete := by
        intro asts hasts
        refine complete_outlines hasts fun c hc j hj => ?_
        exact ih c hc (hn.of_mem_parts hc) hj
      cases n with
      | condition c => exact .mk c.isCondition_fields (by simp [Shape.parts])
      | and children k =>
          obtain ⟨asts, ast, hasts, hast, -⟩ := encode_and_eq_ok.1 h
          have hne := outlines_ne_nil hasts (ne_nil_of_rightFold hast)
          exact complete_attach (complete_joined hne (hparts hasts))
      | or children =>
          obtain ⟨asts, hasts, hast⟩ := encode_or_eq_ok.1 h
          have hne := outlines_ne_nil hasts (ne_nil_of_rightFold hast)
          exact complete_joined hne (hparts hasts)
      | group mode children =>
          obtain ⟨-, asts, hasts, -⟩ := encode_group_eq_ok.1 h
          exact .mk trivial (hparts hasts)
      | serial steps =>
          rcases encode_serial_eq_ok.1 h with hasts | ⟨first, second, rest, hasts, -⟩
          · exact complete_ordered (outlines_ne_nil hasts (List.cons_ne_nil _ _)) (hparts hasts)
          · exact complete_ordered (outlines_ne_nil hasts (List.cons_ne_nil _ _)) (hparts hasts)
      | switch s =>
          obtain ⟨stream, hstream, -⟩ := encode_switch_eq_ok.1 h
          exact .mk (isComplete_switch hn.self hstream) (by simp [Shape.parts])

theorem map_document_outlines {ns : List Node} {asts : List Json} (h : encodeAll ns = .ok asts)
    (hdocument : ∀ n ∈ ns, ∀ j, encode n = .ok j → n.outline.document = j) :
    (outlines ns).map document = asts := by
  induction encodeAll_eq_ok.1 h with
  | nil => rfl
  | cons hfirst hrest ih =>
      have hrestdocument := ih (encodeAll_eq_ok.2 hrest)
        fun n hn => hdocument n (List.mem_cons_of_mem _ hn)
      rw [outlines, List.map_cons, hrestdocument, hdocument _ List.mem_cons_self _ hfirst]

/-- A pattern is written as its outline is. -/
theorem document_outline {n : Node} {j : Json} (hn : Throughout Canonical n)
    (h : n.encode = .ok j) : n.outline.document = j := by
  induction n using inductionOnParts generalizing j with
  | _ n ih =>
      have hparts : ∀ {asts}, encodeAll n.parts = .ok asts →
          (outlines n.parts).map document = asts := by
        intro asts hasts
        refine map_document_outlines hasts fun c hc j hj => ?_
        exact ih c hc (hn.of_mem_parts hc) hj
      cases n with
      | condition c =>
          cases h
          rfl
      | and children k =>
          obtain ⟨asts, ast, hasts, hast, rfl⟩ := encode_and_eq_ok.1 h
          have hmap : (outlines children).map document = asts := hparts hasts
          have hjoined : document (joined "&&" (outlines children)) = ast :=
            document_joined (hmap ▸ hast)
          rw [outline_and, document_attach, hjoined]
          intro hk
          exact constraints_joined_of_standsAlone (hn.self.2 hk)
      | or children =>
          obtain ⟨asts, hasts, hast⟩ := encode_or_eq_ok.1 h
          have hmap : (outlines children).map document = asts := hparts hasts
          exact document_joined (hmap ▸ hast)
      | group mode children =>
          obtain ⟨-, asts, hasts, rfl⟩ := encode_group_eq_ok.1 h
          have hdocuments : documents (outlines children) = asts :=
            (documents_eq_map _).trans (hparts hasts)
          rw [outline, document_unconstrained, documentShape, hdocuments]
          rfl
      | serial steps =>
          rw [outline_serial]
          rcases encode_serial_eq_ok.1 h with hasts | ⟨first, second, rest, hasts, rfl⟩
          · have hmap : (outlines steps).map document = [j] := hparts hasts
            obtain ⟨only, honly, hdocument⟩ := List.map_eq_singleton_iff.1 hmap
            rw [honly]
            exact hdocument
          · have hmap : (outlines steps).map document = first :: second :: rest := hparts hasts
            obtain ⟨o, os, hos, rfl, hmore⟩ := List.map_eq_cons_iff.1 hmap
            obtain ⟨p, ps, rfl, rfl, rfl⟩ := List.map_eq_cons_iff.1 hmore
            have hcomplete : ∀ q ∈ outlines steps, q.Complete := by
              refine complete_outlines hasts fun c hc ast hast => ?_
              exact complete_outline (hn.of_mem_parts hc) hast
            rw [hos] at hcomplete ⊢
            exact document_ordered fun q hq => hcomplete q (List.mem_cons_of_mem _ hq)
      | switch s =>
          obtain ⟨stream, hstream, rfl⟩ := encode_switch_eq_ok.1 h
          have hevents : (s.groups.map fun g => g.map Condition.encode).filterMap (rightFold "&&") =
              s.groups.filterMap Switch.encodeGroup := List.filterMap_map
          rw [outline, hstream, document_unconstrained, documentShape, Option.map_some,
            Shape.members, hevents]
          rfl

end Node

end EventSearch
