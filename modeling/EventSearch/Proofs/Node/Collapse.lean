import EventSearch.Proofs.Node.Constrained

/-!
# Nested conjunctions

A conjunction whose sole child is a conjunction takes it in, and then the sole child of that one,
until there is no sole child or one that stands alone. Each step goes to a smaller list of
children. The constraints met on the way are merged one after the other, and those of the
inner conjunction come first each time. What is left does not change any more.
-/
namespace EventSearch

/-- Constraints merged from the outside in, where the inner ones come first each time. -/
def Constraints.mergeInwards (outer : Constraints) (inner : List Constraints) :
    Except QueryError Constraints :=
  inner.foldlM (fun k own => own.merge k) outer

namespace Node

/-- A pattern without the disjunctions of one child and the sequences of one step around it. -/
def bare : Node → Node
  | .or [n] => bare n
  | .serial [n] => bare n
  | n => n

/-- The children and constraints of the conjunction that a sole child amounts to. -/
def enclosed? : List Node → Option (List Node × Constraints)
  | [n] =>
      match n.bare with
      | .and inner own => some (inner, own)
      | _ => none
  | _ => none

/-- Children with nothing around a sole one. -/
def unwrapped : List Node → List Node
  | [n] => [n.bare]
  | children => children

/-- Conjunctions that are the sole child one of the other, inwards from one with the given children:
the constraints of each, and the children of the innermost one. -/
inductive Nested : List Node → List Constraints → List Node → Prop
  | innermost {children : List Node} :
      enclosed? children = none → Nested children [] (unwrapped children)
  | deeper {children inner last : List Node} {own : Constraints} {ks : List Constraints} :
      enclosed? children = some (inner, own) → Nested inner ks last →
      Nested children (own :: ks) last

variable {n : Node} {children inner last : List Node} {own k : Constraints}
  {ks : List Constraints}

/-! ## One step -/

theorem sizeOf_bare_le (n : Node) : sizeOf n.bare ≤ sizeOf n := by
  fun_induction bare n with
  | case1 n ih => simp; omega
  | case2 n ih => simp; omega
  | case3 n _ _ => exact Nat.le_refl _

/-- What is bare is a conjunction or stands alone. -/
theorem standsAlone_bare (n : Node) :
    (∃ inner own, n.bare = .and inner own) ∨ n.bare.StandsAlone := by
  fun_induction bare n with
  | case1 n ih => exact ih
  | case2 n ih => exact ih
  | case3 n hor hserial =>
      by_cases hand : ∃ inner own, n = .and inner own
      · exact .inl hand
      · exact .inr (standsAlone_of_ne (fun inner own h => hand ⟨inner, own, h⟩) hor hserial)

theorem enclosed?_eq_some :
    enclosed? children = some (inner, own) ↔ ∃ n, children = [n] ∧ n.bare = .and inner own := by
  unfold enclosed?
  split
  · next n => split <;> simp_all
  · next hne => exact ⟨nofun, fun ⟨n, hn, _⟩ => absurd hn (hne n)⟩

theorem sizeOf_lt_of_enclosed (h : enclosed? children = some (inner, own)) :
    sizeOf inner < sizeOf children := by
  obtain ⟨n, rfl, hn⟩ := enclosed?_eq_some.1 h
  have hle := sizeOf_bare_le n
  rw [hn] at hle
  simp at hle ⊢
  omega

/-- Without a conjunction as the sole child, that child stands alone once it is bare. -/
theorem standsAlone_of_unwrapped (h : enclosed? children = none) {only : Node}
    (honly : unwrapped children = [only]) : only.StandsAlone := by
  unfold unwrapped at honly
  split at honly
  · next n =>
      cases honly
      refine (standsAlone_bare n).resolve_left ?_
      rintro ⟨inner, own, hn⟩
      rw [enclosed?_eq_some.2 ⟨n, rfl, hn⟩] at h
      cases h
  · next hne => exact absurd honly (hne only)

theorem collapse_of_ne (hne : ∀ n, children ≠ [n]) (k : Constraints) :
    collapse children k = .ok (children, k) := by
  unfold collapse
  split
  · next n => exact absurd rfl (hne n)
  · rfl

/-- One step inwards: the constraints are merged, and the conjunction inside is collapsed in its
turn. -/
theorem absorb_of_bare_eq_and (h : n.bare = .and inner own) (k : Constraints) :
    absorb n k = own.merge k >>= collapse inner := by
  fun_induction absorb n k with
  | case1 n k ih => exact ih h
  | case2 n k ih => exact ih h
  | case3 n own' k ih =>
      cases h
      rfl
  | case4 children own' k hne =>
      cases h
      cases own.merge k with
      | error e => rfl
      | ok merged => exact (collapse_of_ne hne merged).symm
  | case5 n k hor hserial _ hand =>
      rw [bare] at h
      · exact absurd h (hand inner own)
      · exact hor
      · exact hserial

theorem absorb_of_bare_standsAlone (h : n.bare.StandsAlone) (k : Constraints) :
    absorb n k = .ok ([n.bare], k) := by
  fun_induction bare n with
  | case1 n ih => exact ih h
  | case2 n ih => exact ih h
  | case3 n _ _ => exact absorb_of_standsAlone h k

theorem collapse_of_enclosed (h : enclosed? children = some (inner, own)) (k : Constraints) :
    collapse children k = own.merge k >>= collapse inner := by
  obtain ⟨n, rfl, hn⟩ := enclosed?_eq_some.1 h
  exact absorb_of_bare_eq_and hn k

theorem collapse_of_not_enclosed (h : enclosed? children = none) (k : Constraints) :
    collapse children k = .ok (unwrapped children, k) := by
  unfold unwrapped
  split
  · next n => exact absorb_of_bare_standsAlone (standsAlone_of_unwrapped h rfl) k
  · next hne => exact collapse_of_ne hne k

/-! ## The whole way inwards -/

theorem exists_nested (children : List Node) : ∃ ks last, Nested children ks last := by
  cases h : enclosed? children with
  | none => exact ⟨[], _, .innermost h⟩
  | some enclosed =>
      have hlt : sizeOf enclosed.1 < sizeOf children := sizeOf_lt_of_enclosed h
      obtain ⟨ks, last, hnested⟩ := exists_nested enclosed.1
      exact ⟨enclosed.2 :: ks, last, .deeper h hnested⟩
termination_by sizeOf children

theorem Nested.unique (h : Nested children ks last) {ks' : List Constraints}
    {last' : List Node} (h' : Nested children ks' last') : ks' = ks ∧ last' = last := by
  induction h generalizing ks' last' with
  | innermost hnone =>
      cases h' with
      | innermost _ => exact ⟨rfl, rfl⟩
      | deeper hsome _ => simp [hnone] at hsome
  | deeper hsome _ ih =>
      cases h' with
      | innermost hnone => simp [hsome] at hnone
      | deeper hsome' h' =>
          rw [hsome] at hsome'
          cases hsome'
          obtain ⟨rfl, rfl⟩ := ih h'
          exact ⟨rfl, rfl⟩

theorem Nested.standsAlone (h : Nested children ks last) {only : Node} (honly : last = [only]) :
    only.StandsAlone := by
  induction h with
  | innermost hnone => exact standsAlone_of_unwrapped hnone honly
  | deeper _ _ ih => exact ih honly

/-- All constraints on the way are merged, and the children are the innermost ones. -/
theorem Nested.collapse_eq (h : Nested children ks last) (k : Constraints) :
    collapse children k = (k.mergeInwards ks).map (last, ·) := by
  induction h generalizing k with
  | innermost hnone => exact collapse_of_not_enclosed hnone k
  | @deeper children inner last own ks hsome _ ih =>
      have hstep : k.mergeInwards (own :: ks) = own.merge k >>= (·.mergeInwards ks) := rfl
      rw [collapse_of_enclosed hsome, hstep]
      cases own.merge k with
      | error e => rfl
      | ok merged => exact ih merged

/-- What stands alone, or is not the sole child, is not collapsed any further. -/
theorem collapse_eq_self (h : ∀ only, children = [only] → only.StandsAlone) (k : Constraints) :
    collapse children k = .ok (children, k) := by
  unfold collapse
  split
  · next n => exact absorb_of_standsAlone (h n rfl) k
  · rfl

/-- A conjunction collapses step by step to conjunctions of fewer patterns, so it comes to an end.
What is left are the children of the innermost conjunction, of which a sole one stands alone,
under the constraints of all of them merged from the outside in. That collapses to itself.
Collapsing fails exactly when one of the merges does. -/
theorem collapse_eq_mergeInwards (children : List Node) (k : Constraints) :
    (∀ inner own, enclosed? children = some (inner, own) →
      sizeOf inner < sizeOf children ∧ collapse children k = own.merge k >>= collapse inner) ∧
    ∃ ks last, Nested children ks last ∧
      (∀ ks' last', Nested children ks' last' → ks' = ks ∧ last' = last) ∧
      collapse children k = (k.mergeInwards ks).map (last, ·) ∧
      (last.length ≠ 1 ∨ ∃ only, last = [only] ∧ only.StandsAlone) ∧
      (∀ base, collapse last base = .ok (last, base)) ∧
      ∀ e, collapse children k = .error e ↔ ∃ front own rest outer,
        ks = front ++ own :: rest ∧ k.mergeInwards front = .ok outer ∧
          own.merge outer = .error e := by
  refine ⟨fun inner own h => ⟨sizeOf_lt_of_enclosed h, collapse_of_enclosed h k⟩, ?_⟩
  obtain ⟨ks, last, hnested⟩ := exists_nested children
  have halone : ∀ only, last = [only] → only.StandsAlone := fun _ => hnested.standsAlone
  have hcollapse := hnested.collapse_eq k
  refine ⟨ks, last, hnested, fun _ _ => hnested.unique, hcollapse, ?_,
    collapse_eq_self halone, fun e => ?_⟩
  · by_cases hlen : last.length = 1
    · obtain ⟨only, honly⟩ := List.length_eq_one_iff.1 hlen
      exact .inr ⟨only, honly, halone only honly⟩
    · exact .inl hlen
  · have hmerge : collapse children k = .error e ↔ k.mergeInwards ks = .error e := by
      rw [hcollapse]
      cases k.mergeInwards ks <;> simp [Except.map]
    rw [hmerge]
    exact foldlM_eq_error

/-- The hour within which an inner conjunction has to start is kept through everything around it. -/
example : collapse [.or [.serial [.and [.condition (gear 1)] { within := some { hours := 1 } }]]]
    { after := some { minutes := 1 } } =
      .ok ([.condition (gear 1)],
        { within := some { hours := 1 }, after := some { minutes := 1 } }) := rfl

end Node

end EventSearch
