import EventSearch.Proofs.Node.Canonical
import EventSearch.Proofs.Node.Encoding
import EventSearch.Proofs.Span.Statement

/-!
# Effective constraints

The constraints that are in force on a pattern are those of the first constrained conjunction
below what is only written as its single child. In a pattern that can be built, these are
exactly the constraints that its document states at the top: none gets lost on the way, and
none replaces another.
-/
namespace EventSearch.Node

/-- The constraints in force on a pattern as a whole. -/
def effective : Node → Constraints
  | .and [n] k => if k.isEmpty then effective n else k
  | .and _ k => k
  | .or [n] => effective n
  | .serial [n] => effective n
  | _ => .empty

theorem unmarked_binary {op : String} {left right : Json} {members : Fields Json}
    (h : binary op left right = .obj members) : Constraints.empty.StatedIn members := by
  cases h
  exact ⟨rfl, rfl, rfl⟩

theorem unmarked_typed {type : String} {asts : List Json} {members : Fields Json}
    (h : typed type asts = .obj members) : Constraints.empty.StatedIn members := by
  cases h
  exact ⟨rfl, rfl, rfl⟩

theorem unmarked_condition (c : Condition) : Constraints.empty.StatedIn c.fields := by
  unfold Condition.fields
  cases c.stream? <;> exact ⟨rfl, rfl, rfl⟩

theorem unmarked_rightFold {op : String} {asts : List Json} {members : Fields Json}
    (hlen : asts.length ≠ 1) (h : rightFold op asts = some (.obj members)) :
    Constraints.empty.StatedIn members := by
  cases asts with
  | nil => cases h
  | cons first rest =>
      rcases rightFold_cons_eq_some.1 h with ⟨rfl, -⟩ | ⟨tail, -, hbinary⟩
      · exact absurd rfl hlen
      · exact unmarked_binary hbinary.symm

/-- What stands alone states no constraints. -/
theorem unmarked_of_standsAlone {n : Node} {members : Fields Json} (hn : n.StandsAlone)
    (h : n.encode = .ok (.obj members)) : Constraints.empty.StatedIn members := by
  cases n with
  | condition c =>
      rw [encode_condition] at h
      cases h
      exact unmarked_condition c
  | and children k => exact hn.elim
  | or children =>
      obtain ⟨asts, hasts, hfold⟩ := encode_or_eq_ok.1 h
      exact unmarked_rightFold (by rwa [length_encodeAll hasts]) hfold
  | group mode children =>
      obtain ⟨-, asts, -, hj⟩ := encode_group_eq_ok.1 h
      exact unmarked_typed hj.symm
  | serial steps =>
      rcases encode_serial_eq_ok.1 h with hasts | ⟨first, second, rest, -, hj⟩
      · exact absurd (length_encodeAll hasts).symm hn
      · exact unmarked_typed hj.symm
  | switch s =>
      obtain ⟨stream, -, hj⟩ := encode_switch_eq_ok.1 h
      cases hj
      exact ⟨rfl, rfl, rfl⟩

/-- What the children of a conjunction are written as states no constraints, if a sole child
stands alone. -/
theorem unmarked_of_fold {children : List Node} {asts : List Json} {members : Fields Json}
    (halone : ∀ only, children = [only] → only.StandsAlone)
    (hasts : encodeAll children = .ok asts) (hfold : rightFold "&&" asts = some (.obj members)) :
    Constraints.empty.StatedIn members := by
  by_cases hlen : asts.length = 1
  · obtain ⟨ast, rfl⟩ := List.length_eq_one_iff.1 hlen
    obtain ⟨only, rfl⟩ := List.length_eq_one_iff.1 ((length_encodeAll hasts).symm.trans hlen)
    obtain ⟨j, hj, honly⟩ := exists_encode_of_mem hasts List.mem_cons_self
    cases List.mem_singleton.1 hj
    cases hfold
    exact unmarked_of_standsAlone (halone only rfl) honly
  · exact unmarked_rightFold hlen hfold

/-- Constraints are stated in an object that states none so far. -/
theorem unmarked_of_constrained {children : List Node} {k : Constraints} {asts : List Json}
    {members : Fields Json} (hcanonical : (Node.and children k).Canonical)
    (hk : k.isEmpty = false) (hasts : encodeAll children = .ok asts)
    (hfold : rightFold "&&" asts = some (.obj members)) :
    Constraints.empty.StatedIn members := unmarked_of_fold (hcanonical.2 hk) hasts hfold

/-- An object is all that is ever written. -/
theorem exists_obj_of_encode {n : Node} {j : Json} (h : n.encode = .ok j) :
    ∃ members, j = .obj members := by
  induction n using inductionOnParts generalizing j with
  | _ n ih =>
      have hparts : ∀ c ∈ n.parts, ∀ j, encode c = .ok j → ∃ members, j = .obj members := by
        intro c hc j hj
        exact ih c hc hj
      cases n with
      | condition c =>
          rw [encode_condition] at h
          cases h
          exact ⟨_, rfl⟩
      | and children k =>
          obtain ⟨asts, ast, hasts, hast, rfl⟩ := encode_and_eq_ok.1 h
          obtain ⟨members, rfl⟩ := rightFold_induction (fun _ _ _ _ => ⟨_, rfl⟩)
            (forall_of_encodeAll hasts hparts) hast
          exact ⟨_, rfl⟩
      | or children =>
          obtain ⟨asts, hasts, hast⟩ := encode_or_eq_ok.1 h
          exact rightFold_induction (fun _ _ _ _ => ⟨_, rfl⟩)
            (forall_of_encodeAll hasts hparts) hast
      | group mode children =>
          obtain ⟨-, asts, -, rfl⟩ := encode_group_eq_ok.1 h
          exact ⟨_, rfl⟩
      | serial steps =>
          rcases encode_serial_eq_ok.1 h with hasts | ⟨first, second, rest, -, rfl⟩
          · exact forall_of_encodeAll hasts hparts j List.mem_cons_self
          · exact ⟨_, rfl⟩
      | switch s =>
          obtain ⟨stream, -, rfl⟩ := encode_switch_eq_ok.1 h
          exact ⟨_, rfl⟩

theorem statedIn_of_constrained {children : List Node} {k : Constraints} {members : Fields Json}
    (hcanonical : (Node.and children k).Canonical) (hk : k.isEmpty = false)
    (h : encode (.and children k) = .ok (.obj members)) : k.StatedIn members := by
  obtain ⟨asts, ast, hasts, hast, hj⟩ := encode_and_eq_ok.1 h
  cases ast with
  | obj base =>
      cases hj
      exact k.statedIn_fields (unmarked_of_constrained hcanonical hk hasts hast)
  | _ => cases hj

/-- At the top of the document stand the effective constraints and no others. -/
theorem statedIn_effective {n : Node} {members : Fields Json} (hn : Throughout Canonical n)
    (h : n.encode = .ok (.obj members)) : n.effective.StatedIn members := by
  -- What the definition looks through is written as its single child.
  fun_induction effective n with
  | case1 n k hk ih =>
      rw [Constraints.eq_empty_of_isEmpty hk, encode_and_singleton] at h
      cases hj : encode n with
      | error e => simp [hj, Except.map] at h
      | ok j =>
          simp only [hj, Except.map, Constraints.apply_empty, Except.ok.injEq] at h
          exact ih (hn.of_mem_parts (by simp [parts])) (h ▸ hj)
  | case2 n k hk => exact statedIn_of_constrained hn.self (by simpa using hk) h
  | case3 children k hne =>
      cases hk : k.isEmpty with
      | false => exact statedIn_of_constrained hn.self hk h
      | true =>
          obtain ⟨asts, ast, hasts, hast, hj⟩ := encode_and_eq_ok.1 h
          rw [Constraints.eq_empty_of_isEmpty hk, Constraints.apply_empty] at hj
          subst hj
          rw [Constraints.eq_empty_of_isEmpty hk]
          refine unmarked_rightFold (fun hlen => ?_) hast
          obtain ⟨n, rfl⟩ := List.length_eq_one_iff.1 ((length_encodeAll hasts).symm.trans hlen)
          exact hne n rfl
  | case4 n ih =>
      rw [encode_or_singleton] at h
      exact ih (hn.of_mem_parts (by simp [parts])) h
  | case5 n ih =>
      rw [encode_serial_singleton] at h
      exact ih (hn.of_mem_parts (by simp [parts])) h
  | case6 n _ hand hor hserial =>
      exact unmarked_of_standsAlone (standsAlone_of_ne hand hor hserial) h

/-- The document of a pattern that can be built states its effective constraints, and nowhere
in the pattern do constraints replace a member of the object in which they are stated. -/
theorem Reachable.keys_eq_effective {n : Node} {j : Json} (hn : Reachable n)
    (h : n.encode = .ok j) :
    (∃ members, j = .obj members ∧
      Fields.get? "within" members = n.effective.within.map Duration.encode ∧
      Fields.get? "after" members = n.effective.after.map Duration.encode ∧
      Fields.get? "for" members = n.effective.length.map Length.encode) ∧
    ∀ children k, Occurs (.and children k) n → ∀ asts members,
      encodeAll children = .ok asts → rightFold "&&" asts = some (.obj members) →
      ∀ name ∈ k.fields.map Prod.fst, Fields.get? name members = none := by
  have hcanonical := hn.throughout preserved_canonical
  constructor
  · obtain ⟨members, rfl⟩ := exists_obj_of_encode h
    have hstated := statedIn_effective hcanonical h
    exact ⟨members, rfl, hstated.within, hstated.after, hstated.length⟩
  · intro children k hk asts members hasts hfold name hname
    obtain ⟨m, hm, rfl⟩ := List.mem_map.1 hname
    refine Constraints.get?_eq_none_of_isKey ?_ (Constraints.isKey_of_mem_fields hm)
    refine unmarked_of_constrained (hcanonical _ hk) ?_ hasts hfold
    cases hempty : k.isEmpty with
    | false => rfl
    | true =>
        rw [Constraints.eq_empty_of_isEmpty hempty] at hm
        cases hm

/-- A disjunction of one member states the constraints of that member. -/
theorem keys_of_sole_cruise : ∃ members, (disjunction [cruise]).encode = .ok (.obj members) ∧
    Fields.get? "within" members = none ∧
    Fields.get? "after" members = some (Duration.encode { hours := 1 }) ∧
    Fields.get? "for" members = some (Length.encode (.atLeast { minutes := 5 })) := by
  have hn : Reachable (disjunction [cruise]) := .disjunction _ (by simp [reachable_cruise])
  obtain ⟨j, hj⟩ : ∃ j, (disjunction [cruise]).encode = .ok j := ⟨_, rfl⟩
  obtain ⟨⟨members, rfl, hwithin, hafter, hlength⟩, -⟩ := Reachable.keys_eq_effective hn hj
  exact ⟨members, hj, hwithin, hafter, hlength⟩

end EventSearch.Node
