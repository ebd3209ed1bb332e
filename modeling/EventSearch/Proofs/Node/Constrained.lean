import EventSearch.Proofs.Node.Document
import EventSearch.Proofs.Span.Regrouping

/-!
# Constraining a pattern

A constraint goes to the innermost conjunction that a pattern is written as, together with the
constraints in force. This way around does not show: the constraints in force are merged
with the new ones, the document states what comes out of that, and the rest of it
is the document of the pattern as it was.
-/
namespace EventSearch

namespace Constraints

/-- States the constraints in an object in place of any that it states so far. -/
def restate (k : Constraints) : Json → Json
  | .obj members => .obj (Fields.insertAll (Json.core members) k.fields)
  | other => other

theorem restate_apply (k : Constraints) {own : Constraints} {members : Fields Json}
    (h : empty.StatedIn members) :
    k.restate (own.apply (.obj members)) = k.apply (.obj members) := by
  rw [apply, restate, Json.core_insertAll, Json.core_eq_self h, apply]

/-- Exactly the constraints are stated then, and all other members are as they were. -/
theorem statedIn_restate (k : Constraints) (members : Fields Json) :
    ∃ stated, k.restate (.obj members) = .obj stated ∧ k.StatedIn stated ∧
      Json.core stated = Json.core members := by
  refine ⟨_, rfl, k.statedIn_fields (statedIn_empty fun m hm => ?_), ?_⟩
  · simpa using (List.mem_filter.1 hm).2
  · rw [Json.core_insertAll, Json.core, Json.core, List.filter_filter]
    simp only [Bool.and_self]

end Constraints

namespace Node

theorem StandsAlone.ne {n : Node} (hn : n.StandsAlone) :
    (∀ children k, n ≠ .and children k) ∧ (∀ c, n ≠ .or [c]) ∧ ∀ c, n ≠ .serial [c] := by
  refine ⟨?_, ?_, ?_⟩
  · rintro children k rfl
    exact hn
  · rintro c rfl
    exact hn rfl
  · rintro c rfl
    exact hn rfl

theorem absorb_of_standsAlone {n : Node} (hn : n.StandsAlone) (k : Constraints) :
    absorb n k = .ok ([n], k) := by
  obtain ⟨hand, hor, hserial⟩ := hn.ne
  rw [absorb]
  · exact hor
  · exact hserial
  · exact fun c own => hand [c] own
  · exact hand

/-- Without new constraints, what is taken in are the constraints in force, and they stand around
children that make up the same document. -/
theorem exists_absorb {n : Node} (hn : Throughout Canonical n) :
    ∃ children, absorb n .empty = .ok (children, n.effective) ∧
      n.encode = (Node.and children n.effective).encode := by
  fun_induction effective n with
  | case1 n k hk ih =>
      obtain ⟨children, habsorb, hencode⟩ := ih (hn.of_mem_parts (by simp [parts]))
      have hempty : k = .empty := Constraints.eq_empty_of_isEmpty hk
      subst hempty
      have hmerge : Constraints.empty.merge .empty = .ok .empty := rfl
      refine ⟨children, ?_, ?_⟩
      · rw [absorb, hmerge]
        exact habsorb
      · rw [← hencode, encode_and_singleton]
        cases n.encode <;> simp [Except.map, Constraints.apply_empty]
  | case2 n k hk =>
      have hself := hn.self
      have halone : n.StandsAlone := hself.2 (by simpa using hk) n rfl
      refine ⟨[n], ?_, rfl⟩
      rw [absorb, Constraints.merge_empty hself.1]
      exact absorb_of_standsAlone halone k
  | case3 children k hne =>
      refine ⟨children, ?_, rfl⟩
      rw [absorb, Constraints.merge_empty hn.self.1]
      · rfl
      · exact hne
  | case4 n ih =>
      obtain ⟨children, habsorb, hencode⟩ := ih (hn.of_mem_parts (by simp [parts]))
      refine ⟨children, ?_, ?_⟩
      · rw [absorb, habsorb]
      · rw [encode_or_singleton, hencode]
  | case5 n ih =>
      obtain ⟨children, habsorb, hencode⟩ := ih (hn.of_mem_parts (by simp [parts]))
      refine ⟨children, ?_, ?_⟩
      · rw [absorb, habsorb]
      · rw [encode_serial_singleton, hencode]
  | case6 n _ hand hor hserial =>
      have halone : n.StandsAlone := standsAlone_of_ne hand hor hserial
      refine ⟨[n], absorb_of_standsAlone halone .empty, ?_⟩
      rw [encode_and_singleton]
      cases n.encode <;> simp [Except.map, Constraints.apply_empty]

theorem constrained_of_absorb {n : Node} {children : List Node} {base : Constraints}
    (h : absorb n .empty = .ok (children, base)) (extra : Constraints) :
    n.constrained extra = (base.merge extra).map (Node.and children) := by
  rw [constrained, constrain, collapse, h]
  change (do .ok (Node.and children (← base.merge extra))) = _
  cases base.merge extra <;> rfl

/-- The document of a conjunction whose sole child, if any, stands alone is one object without
constraints, in which those of the conjunction are stated. -/
theorem encode_and_eq_map {children : List Node}
    (halone : ∀ only, children = [only] → only.StandsAlone) (own k : Constraints) :
    (Node.and children k).encode = (Node.and children own).encode.map k.restate := by
  rw [encode_and, encode_and]
  cases hasts : encodeAll children with
  | error e => rfl
  | ok asts =>
      cases hast : folded .conjunction "&&" asts with
      | error e => simp [bind, Except.bind, hast, Except.map]
      | ok ast =>
          have hfold : (Node.and children .empty).encode = .ok ast := by
            refine encode_and_eq_ok.2 ⟨asts, ast, hasts, folded_eq_ok.1 hast, ?_⟩
            exact (Constraints.apply_empty ast).symm
          obtain ⟨members, rfl⟩ := exists_obj_of_encode hfold
          have hunmarked := unmarked_of_fold halone hasts (folded_eq_ok.1 hast)
          simp [bind, Except.bind, hast, Except.map, k.restate_apply hunmarked]

/-- Constraining a pattern fails exactly when its constraints in force and the new ones are in
conflict, and with that conflict. Otherwise nothing changes in the document, and in whether
there is one, but the constraints that it states at the top, which are the merged ones. -/
theorem Reachable.encode_constrained {n : Node} (hn : Reachable n) (extra : Constraints) :
    (∀ e, n.constrained extra = .error e ↔ n.effective.merge extra = .error e) ∧
    ∀ k, n.effective.merge extra = .ok k →
      ∃ m, n.constrained extra = .ok m ∧ m.encode = n.encode.map k.restate ∧
        (∀ e, m.encode = .error e ↔ n.encode = .error e) ∧
        ∀ j, n.encode = .ok j → ∃ members stated, j = .obj members ∧
          m.encode = .ok (.obj stated) ∧ k.StatedIn stated ∧
          Json.core stated = Json.core members := by
  have hcanonical : Throughout Canonical n := hn.throughout preserved_canonical
  obtain ⟨children, habsorb, hencode⟩ := exists_absorb hcanonical
  have hconstrained := constrained_of_absorb habsorb extra
  refine ⟨fun e => ?_, fun k hk => ?_⟩
  · rw [hconstrained]
    cases n.effective.merge extra <;> simp [Except.map]
  · have hdocument : (Node.and children k).encode = n.encode.map k.restate := by
      rw [hencode]
      refine encode_and_eq_map (fun only honly => ?_) n.effective k
      subst honly
      exact standsAlone_of_absorb habsorb
    refine ⟨.and children k, ?_, hdocument, fun e => ?_, fun j hj => ?_⟩
    · rw [hconstrained, hk]
      rfl
    · rw [hdocument]
      cases n.encode <;> simp [Except.map]
    · obtain ⟨members, rfl⟩ := exists_obj_of_encode hj
      obtain ⟨stated, hstated, hkeys, hcore⟩ := k.statedIn_restate members
      refine ⟨members, stated, rfl, ?_, hkeys, hcore⟩
      rw [hdocument, hj, ← hstated]
      rfl

/-- A cruise that has to begin within a day keeps its hour and its five minutes. -/
theorem encode_constrained_cruise : ∃ m members stated,
    cruise.constrained { within := some { days := 1 } } = .ok m ∧
      cruise.encode = .ok (.obj members) ∧ m.encode = .ok (.obj stated) ∧
      Constraints.StatedIn
        { within := some { days := 1 }
          after := some { hours := 1 }
          length := some (.atLeast { minutes := 5 }) } stated ∧
      Json.core stated = Json.core members := by
  obtain ⟨-, hok⟩ := Reachable.encode_constrained reachable_cruise { within := some { days := 1 } }
  obtain ⟨m, hm, -, -, hdocument⟩ := hok _ rfl
  obtain ⟨j, hj⟩ : ∃ j, cruise.encode = .ok j := ⟨_, rfl⟩
  obtain ⟨members, stated, rfl, hstated, hkeys, hcore⟩ := hdocument j hj
  exact ⟨m, members, stated, hm, hj, hstated, hkeys, hcore⟩

end Node

end EventSearch
