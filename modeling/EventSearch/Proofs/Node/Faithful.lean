import EventSearch.Proofs.Node.Outline

/-!
# Faithful documents

A document tells the outline of the pattern that it was written for. Its kind tells what combines
the members, so that members of different shapes are never the same; conditions of one event can
be told apart from the operators between them; and constraints are read off apart from both.
-/
namespace EventSearch

/-! ## Conditions under an operator -/

/-- A condition is not the combination of two documents. -/
theorem Json.IsCondition.obj_ne_binary {fields : Fields Json} (h : IsCondition fields)
    (op : String) (left right : Json) : Json.obj fields ≠ binary op left right := by
  intro he
  have hfields : fields = [("args", .arr [left, right]), ("expr", .str op)] := Json.obj.inj he
  have hcondition : kindOf fields = .condition := (IsCore.condition h).kindOf_eq
  have hbinary : kindOf fields = .binary := hfields ▸ rfl
  cases hcondition.symm.trans hbinary

/-- What is combined can be told from the combination, unless a member itself is one. -/
theorem rightFold_injective {op : String} {asts asts' : List Json} {j : Json}
    (h : ∀ ast ∈ asts, ∀ left right, ast ≠ binary op left right)
    (h' : ∀ ast ∈ asts', ∀ left right, ast ≠ binary op left right)
    (hj : rightFold op asts = some j) (hj' : rightFold op asts' = some j) : asts = asts' := by
  induction asts generalizing asts' j with
  | nil => cases hj
  | cons first rest ih =>
      cases asts' with
      | nil => cases hj'
      | cons first' rest' =>
          have hhead := h first List.mem_cons_self
          have hhead' := h' first' List.mem_cons_self
          rcases rightFold_cons_eq_some.1 hj with ⟨rfl, rfl⟩ | ⟨tail, htail, rfl⟩
          · rcases rightFold_cons_eq_some.1 hj' with ⟨rfl, rfl⟩ | ⟨tail', -, hbinary⟩
            · rfl
            · exact absurd hbinary (hhead first' tail')
          · rcases rightFold_cons_eq_some.1 hj' with ⟨-, hbinary⟩ | ⟨tail', htail', hbinary⟩
            · exact absurd hbinary.symm (hhead' first tail)
            · cases hbinary
              have hrest := ih (fun ast ha => h ast (List.mem_cons_of_mem _ ha))
                (fun ast ha => h' ast (List.mem_cons_of_mem _ ha)) htail htail'
              rw [hrest]

/-- The conditions of an event can be told from its document. -/
theorem Json.AreConditions.eq {asts asts' : List Json} {j : Json} (h : AreConditions asts)
    (h' : AreConditions asts') (hj : rightFold "&&" asts = some j)
    (hj' : rightFold "&&" asts' = some j) : asts = asts' := by
  have hseparate : ∀ {asts}, AreConditions asts → ∀ ast ∈ asts, ∀ left right,
      ast ≠ binary "&&" left right := by
    intro asts h ast hast left right
    obtain ⟨fields, rfl, hfields⟩ := h.2 ast hast
    exact hfields.obj_ne_binary "&&" left right
  exact rightFold_injective (hseparate h) (hseparate h') hj hj'

/-- Every event has a document, so that the events are as many and in the same order. -/
theorem events_eq_of_filterMap_eq {events events' : List (List Json)}
    (h : ∀ g ∈ events, Json.AreConditions g) (h' : ∀ g ∈ events', Json.AreConditions g)
    (he : events.filterMap (rightFold "&&") = events'.filterMap (rightFold "&&")) :
    events = events' := by
  induction events generalizing events' with
  | nil =>
      cases events' with
      | nil => rfl
      | cons g' rest' =>
          obtain ⟨j', hj'⟩ := rightFold_isSome "&&" (h' g' List.mem_cons_self).1
          rw [List.filterMap_cons_some hj'] at he
          cases he
  | cons g rest ih =>
      have hg := h g List.mem_cons_self
      obtain ⟨j, hj⟩ := rightFold_isSome "&&" hg.1
      rw [List.filterMap_cons_some hj] at he
      cases events' with
      | nil => cases he
      | cons g' rest' =>
          have hg' := h' g' List.mem_cons_self
          obtain ⟨j', hj'⟩ := rightFold_isSome "&&" hg'.1
          rw [List.filterMap_cons_some hj'] at he
          obtain ⟨hhead, htail⟩ := List.cons.inj he
          have hrest := ih (fun e he => h e (List.mem_cons_of_mem _ he))
            (fun e he => h' e (List.mem_cons_of_mem _ he)) htail
          rw [hg.eq hg' hj (hhead ▸ hj'), hrest]

/-! ## Shapes -/

theorem GroupMode.name_injective : Function.Injective name := by
  intro a b h
  cases a <;> cases b <;> first | rfl | exact absurd h (by decide)

namespace Shape

/-- The kind of the core that states the shape. -/
def kind {α : Type} : Shape α → Option Json.CoreKind
  | .condition _ => some .condition
  | .binary _ _ _ => some .binary
  | .group _ _ => some .group
  | .serial _ => some .serial
  | .switch _ _ => some .switch
  | .nothing => none

/-- The members by which a shape is stated tell its kind. -/
theorem IsComplete.kindOf_members {shape : Shape Json} (h : shape.IsComplete) :
    shape.kind = some (Json.kindOf shape.members) := by
  cases shape with
  | condition fields => exact congrArg some (Json.IsCore.condition h).kindOf_eq.symm
  | binary op left right => rfl
  | group mode asts => cases mode <;> rfl
  | serial asts => rfl
  | switch events stream =>
      obtain ⟨stream, rfl⟩ := Option.isSome_iff_exists.1 h.2
      rfl
  | nothing => exact h.elim

/-- A shape can be told from the members by which it is stated. -/
theorem IsComplete.eq {shape shape' : Shape Json} (h : shape.IsComplete) (h' : shape'.IsComplete)
    (he : shape.members = shape'.members) : shape = shape' := by
  have hkind : shape.kind = shape'.kind := by
    rw [h.kindOf_members, h'.kindOf_members, he]
  -- Only members of the same kind can be the same, so one shape of the other side is left.
  cases shape with
  | condition fields =>
      cases shape' with
      | condition fields' => exact congrArg Shape.condition he
      | _ => cases hkind
  | binary op left right =>
      cases shape' with
      | binary op' left' right' =>
          cases he
          rfl
      | _ => cases hkind
  | group mode asts =>
      cases shape' with
      | group mode' asts' =>
          simp only [members, List.cons.injEq, Prod.mk.injEq, Json.arr.injEq, Json.str.injEq,
            true_and, and_true] at he
          rw [he.1, GroupMode.name_injective he.2]
      | _ => cases hkind
  | serial asts =>
      cases shape' with
      | serial asts' =>
          cases he
          rfl
      | _ => cases hkind
  | switch events stream =>
      cases shape' with
      | switch events' stream' =>
          obtain ⟨stream, rfl⟩ := Option.isSome_iff_exists.1 h.2
          obtain ⟨stream', rfl⟩ := Option.isSome_iff_exists.1 h'.2
          simp only [members, Fields.optional, List.cons_append, List.nil_append,
            List.cons.injEq, Prod.mk.injEq, Json.arr.injEq, true_and, and_true] at he
          rw [events_eq_of_filterMap_eq h.1 h'.1 he.1, he.2]
      | _ => cases hkind
  | nothing => exact h.elim

end Shape

/-! ## Outlines -/

namespace Outline

/-- Different outlines at any place are written differently there. -/
theorem eq_of_documents_eq {os os' : List Outline}
    (h : ∀ o ∈ os, ∀ o' ∈ os', document o = document o' → o = o')
    (he : documents os = documents os') : os = os' := by
  induction os generalizing os' with
  | nil =>
      cases os' with
      | nil => rfl
      | cons o' rest' => cases he
  | cons o rest ih =>
      cases os' with
      | nil => cases he
      | cons o' rest' =>
          obtain ⟨hhead, htail⟩ := List.cons.inj he
          have hfirst := h o List.mem_cons_self o' List.mem_cons_self hhead
          have hrest := ih (fun p hp p' hp' =>
            h p (List.mem_cons_of_mem _ hp) p' (List.mem_cons_of_mem _ hp')) htail
          rw [hfirst, hrest]

/-- Shapes of the same parts are the same, if the parts can be told from their documents. -/
theorem eq_of_documentShape_eq {shape shape' : Shape Outline}
    (h : ∀ o ∈ shape.parts, ∀ o' ∈ shape'.parts, document o = document o' → o = o')
    (he : documentShape shape = documentShape shape') : shape = shape' := by
  cases shape with
  | condition fields =>
      cases shape' with
      | condition fields' =>
          cases he
          rfl
      | _ => cases he
  | binary op left right =>
      cases shape' with
      | binary op' left' right' =>
          obtain ⟨hop, hleft, hright⟩ := Shape.binary.inj he
          have hleft := h left (by simp [Shape.parts]) left' (by simp [Shape.parts]) hleft
          have hright := h right (by simp [Shape.parts]) right' (by simp [Shape.parts]) hright
          rw [hop, hleft, hright]
      | _ => cases he
  | group mode asts =>
      cases shape' with
      | group mode' asts' =>
          obtain ⟨hmode, hmembers⟩ := Shape.group.inj he
          have hasts : asts = asts' := eq_of_documents_eq h hmembers
          rw [hmode, hasts]
      | _ => cases he
  | serial asts =>
      cases shape' with
      | serial asts' =>
          have hasts : asts = asts' := eq_of_documents_eq h (Shape.serial.inj he)
          rw [hasts]
      | _ => cases he
  | switch events stream =>
      cases shape' with
      | switch events' stream' =>
          cases he
          rfl
      | _ => cases he
  | nothing =>
      cases shape' with
      | nothing => rfl
      | _ => cases he

/-- A complete outline can be told from its document. -/
theorem Complete.eq {o o' : Outline} (h : o.Complete) (h' : o'.Complete)
    (he : o.document = o'.document) : o = o' := by
  induction h generalizing o' with
  | @mk k shape hshape hparts ih =>
      cases h' with
      | @mk k' shape' hshape' hparts' =>
          obtain ⟨members, hdocument, hstated, hcore⟩ := (Complete.mk hshape hparts).document_eq
          obtain ⟨members', hdocument', hstated', hcore'⟩ :=
            (Complete.mk hshape' hparts').document_eq
          have hmembers : members = members' :=
            Json.obj.inj (hdocument.symm.trans (he.trans hdocument'))
          subst hmembers
          -- Constraints are told by their names, and the shape by the members of other names.
          have hconstraints : k = k' := hstated.eq hstated'
          have hdocuments : documentShape shape = documentShape shape' :=
            (isComplete_documentShape hshape).eq (isComplete_documentShape hshape')
              (hcore.symm.trans hcore')
          have hshapes : shape = shape' := by
            refine eq_of_documentShape_eq (fun p hp p' hp' hsame => ?_) hdocuments
            exact ih p hp (hparts' p' hp') hsame
          rw [hconstraints, hshapes]

end Outline

/-! ## Patterns -/

namespace Node

/-- The documents of two patterns that can be built and written are the same exactly when their
outlines are. -/
theorem Reachable.encode_eq_iff_outline_eq {m n : Node} {i j : Json} (hm : Reachable m)
    (hn : Reachable n) (hi : m.encode = .ok i) (hj : n.encode = .ok j) :
    i = j ↔ m.outline = n.outline := by
  have hmform := hm.throughout preserved_canonical
  have hnform := hn.throughout preserved_canonical
  rw [← document_outline hmform hi, ← document_outline hnform hj]
  constructor
  · exact (complete_outline hmform hi).eq (complete_outline hnform hj)
  · exact congrArg Outline.document

/-- First gear, and upper gears right after it. -/
def shift : Node := .serial [.condition (gear 1), .and [upperGear] { within := some .zero }]

/-- A shift is written as the sequence in which no gap is given. -/
theorem encode_shift : Reachable shift ∧ ∃ j, shift.encode = .ok j ∧
    ((condition (gear 1)).andThen upperGear).encode = .ok j := by
  have hfirst : Reachable (condition (gear 1)) := .condition (gear 1)
  have hgear : Reachable upperGear := .disjunction _ (by simp [Reachable.condition])
  have hshift : Reachable shift :=
    hfirst.thenWithin hgear (show (condition (gear 1)).thenWithin .zero upperGear = .ok _ from rfl)
  have hplain := hfirst.andThen hgear
  obtain ⟨i, hi⟩ : ∃ i, shift.encode = .ok i := ⟨_, rfl⟩
  obtain ⟨j, hj⟩ : ∃ j, ((condition (gear 1)).andThen upperGear).encode = .ok j := ⟨_, rfl⟩
  have hsame : i = j := (hshift.encode_eq_iff_outline_eq hplain hi hj).2 rfl
  exact ⟨hshift, i, hi, hsame ▸ hj⟩

end Node

end EventSearch
