import EventSearch.Proofs.Node.Constrained
import EventSearch.Proofs.Span.Bounds

/-!
# Annotations in any order

A pattern that is constrained time and again becomes a conjunction whose children stay the same
and whose constraints are merged with the new ones each time. What order the
annotations come in makes a difference only for the spelling of durations.
-/
namespace EventSearch.Node

/-- The pattern with all the constraints on its span, one after the other. -/
def constrainedAll (n : Node) (ks : List Constraints) : Except QueryError Node :=
  ks.foldlM constrained n

theorem absorb_and {children : List Node} {k : Constraints} (hk : k.IsProper)
    (halone : ∀ only, children = [only] → only.StandsAlone) :
    absorb (.and children k) .empty = .ok (children, k) := by
  by_cases hsole : ∃ only, children = [only]
  · obtain ⟨only, rfl⟩ := hsole
    rw [absorb, Constraints.merge_empty hk]
    exact absorb_of_standsAlone (halone only rfl) k
  · rw [absorb, Constraints.merge_empty hk]
    · rfl
    · intro only honly
      exact hsole ⟨only, honly⟩

/-- A conjunction that cannot take in anything keeps its children. -/
theorem constrained_and {children : List Node} {k : Constraints} (hk : k.IsProper)
    (halone : ∀ only, children = [only] → only.StandsAlone) (extra : Constraints) :
    (Node.and children k).constrained extra = (k.merge extra).map (Node.and children) :=
  constrained_of_absorb (absorb_and hk halone) extra

theorem constrainedAll_and {children : List Node} {k : Constraints} (hk : k.IsProper)
    (halone : ∀ only, children = [only] → only.StandsAlone) (ks : List Constraints) :
    (Node.and children k).constrainedAll ks = (k.mergeAll ks).map (Node.and children) := by
  induction ks generalizing k with
  | nil => rfl
  | cons first rest ih =>
      change (Node.and children k).constrained first >>= (constrainedAll · rest) =
        (k.merge first >>= (Constraints.mergeAll · rest)).map (Node.and children)
      rw [constrained_and hk halone]
      cases hmerged : k.merge first with
      | error e => rfl
      | ok merged => exact ih (Constraints.merge_eq_ok hmerged).length.proper

/-- The first of the annotations makes the conjunction, and the others are merged into it. -/
theorem exists_constrainedAll {n : Node} (hn : Throughout Canonical n) :
    ∃ children, ∀ first rest, n.constrainedAll (first :: rest) =
      (n.effective.mergeAll (first :: rest)).map (Node.and children) := by
  obtain ⟨children, habsorb, -⟩ := exists_absorb hn
  have halone : ∀ only, children = [only] → only.StandsAlone := by
    rintro only rfl
    exact standsAlone_of_absorb habsorb
  refine ⟨children, fun first rest => ?_⟩
  change n.constrained first >>= (constrainedAll · rest) =
    (n.effective.merge first >>= (Constraints.mergeAll · rest)).map (Node.and children)
  rw [constrained_of_absorb habsorb]
  cases hmerged : n.effective.merge first with
  | error e => rfl
  | ok merged => exact constrainedAll_and (Constraints.merge_eq_ok hmerged).length.proper halone rest

/-- The constraints in force are those of a conjunction in the pattern, or there are none. -/
theorem isProper_effective {n : Node} (hn : Throughout Canonical n) : n.effective.IsProper := by
  fun_induction effective n with
  | case1 n k _ ih => exact ih (hn.of_mem_parts (by simp [parts]))
  | case2 n k _ => exact hn.self.1
  | case3 children k _ => exact hn.self.1
  | case4 n ih => exact ih (hn.of_mem_parts (by simp [parts]))
  | case5 n ih => exact ih (hn.of_mem_parts (by simp [parts]))
  | case6 n _ _ _ _ => exact Constraints.isProper_empty

/-- Annotations in another order fail when they fail in the one, and otherwise give a conjunction of
the same children, under constraints with the same fields and equally long durations. -/
theorem Reachable.constrainedAll_perm {n : Node} (hn : Reachable n) {ks ks' : List Constraints}
    (hne : ks ≠ []) (hperm : ks.Perm ks') :
    (∃ e e', n.constrainedAll ks = .error e ∧ n.constrainedAll ks' = .error e') ∨
    ∃ children k k', n.constrainedAll ks = .ok (.and children k) ∧
      n.constrainedAll ks' = .ok (.and children k') ∧ k.Alike k' := by
  have hcanonical : Throughout Canonical n := hn.throughout preserved_canonical
  have hproper := isProper_effective hcanonical
  obtain ⟨children, hall⟩ := exists_constrainedAll hcanonical
  have hmerge : ∀ {ls : List Constraints}, ls ≠ [] →
      n.constrainedAll ls = (n.effective.mergeAll ls).map (Node.and children) := by
    intro ls hls
    obtain ⟨first, rest, rfl⟩ := List.exists_cons_of_ne_nil hls
    exact hall first rest
  have hne' : ks' ≠ [] := by
    rintro rfl
    exact hne hperm.eq_nil
  rw [hmerge hne, hmerge hne']
  cases hks : n.effective.mergeAll ks with
  | ok k =>
      obtain ⟨k', hk', halike⟩ := Constraints.mergeAll_perm hproper hperm hks
      exact .inr ⟨children, k, k', rfl, by rw [hk']; rfl, halike⟩
  | error e =>
      cases hks' : n.effective.mergeAll ks' with
      | ok k' =>
          obtain ⟨k, hk, -⟩ := Constraints.mergeAll_perm hproper hperm.symm hks'
          rw [hks] at hk
          cases hk
      | error e' => exact .inl ⟨e, e', rfl, rfl⟩

/-- Sixty seconds and a minute go together in either order, with the spelling of the first one. -/
theorem constrainedAll_perm_cruise : ∃ children k k',
    cruise.constrainedAll [{ within := some { seconds := 60 } }, { within := some { minutes := 1 } }]
      = .ok (.and children k) ∧
    cruise.constrainedAll [{ within := some { minutes := 1 } }, { within := some { seconds := 60 } }]
      = .ok (.and children k') ∧
    k.Alike k' ∧ k.within = some { seconds := 60 } ∧ k'.within = some { minutes := 1 } := by
  obtain ⟨m, hm, hwithin⟩ : ∃ k : Constraints, cruise.constrainedAll
      [{ within := some { seconds := 60 } }, { within := some { minutes := 1 } }] =
        .ok (.and [upperGear] k) ∧ k.within = some { seconds := 60 } := ⟨_, rfl, rfl⟩
  obtain ⟨m', hm', hwithin'⟩ : ∃ k : Constraints, cruise.constrainedAll
      [{ within := some { minutes := 1 } }, { within := some { seconds := 60 } }] =
        .ok (.and [upperGear] k) ∧ k.within = some { minutes := 1 } := ⟨_, rfl, rfl⟩
  rcases Reachable.constrainedAll_perm reachable_cruise
      (List.cons_ne_nil { within := some { seconds := 60 } } [{ within := some { minutes := 1 } }])
      (.swap _ _ []) with ⟨e, e', he, -⟩ | ⟨children, k, k', hk, hk', halike⟩
  · rw [hm] at he
    cases he
  · rw [hm] at hk
    rw [hm'] at hk'
    cases hk
    cases hk'
    exact ⟨_, m, m', hm, hm', halike, hwithin, hwithin'⟩

end EventSearch.Node
