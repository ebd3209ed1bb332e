import EventSearch.Proofs.Node.Encoding

/-!
# The fault of a pattern that cannot be written

A pattern offends when it is a combinator without members or a switch without a stream. A
pattern is written exactly when nothing in it offends, at any depth. The fault reported
otherwise is that of the first offender from left to right. What stands around an offender does
not hide it, and nothing else adds a fault.
-/
namespace EventSearch.Node

/-- A pattern offends by a fault of its own, whatever its parts are. -/
inductive Offends : Node → QueryError → Prop
  | conjunction (k : Constraints) : Offends (.and [] k) (.emptyCombinator .conjunction)
  | disjunction : Offends (.or []) (.emptyCombinator .disjunction)
  | group (mode : GroupMode) : Offends (.group mode []) (.emptyCombinator (.group mode))
  | serial : Offends (.serial []) (.emptyCombinator .serial)
  | switch {s : Switch} : s.stream = none → Offends (.switch s) .unboundSwitch

def IsOffender (n : Node) : Prop := ∃ e, Offends n e

theorem Offends.name_eq_kind {n : Node} {c : Combinator} (h : Offends n (.emptyCombinator c)) :
    c.name = n.kind := by
  cases h <;> rfl

/-- The fault by which a pattern offends, if it does. -/
def ownFault? : Node → Option QueryError
  | .and [] _ => some (.emptyCombinator .conjunction)
  | .or [] => some (.emptyCombinator .disjunction)
  | .group mode [] => some (.emptyCombinator (.group mode))
  | .serial [] => some (.emptyCombinator .serial)
  | .switch ⟨none, _⟩ => some .unboundSwitch
  | _ => none

theorem ownFault?_eq_some {n : Node} {e : QueryError} : n.ownFault? = some e ↔ Offends n e := by
  constructor
  · intro h
    unfold ownFault? at h
    split at h
    · exact Option.some.inj h ▸ .conjunction _
    · exact Option.some.inj h ▸ .disjunction
    · exact Option.some.inj h ▸ .group _
    · exact Option.some.inj h ▸ .serial
    · exact Option.some.inj h ▸ .switch rfl
    · cases h
  · intro h
    cases h with
    | @switch s hs =>
        obtain ⟨stream, groups⟩ := s
        subst hs
        rfl
    | _ => rfl

theorem ownFault?_eq_none {n : Node} : n.ownFault? = none ↔ ¬ n.IsOffender := by
  rw [Option.eq_none_iff_forall_ne_some]
  simp only [ne_eq, ownFault?_eq_some, IsOffender, not_exists]

mutual

/-- All patterns within a pattern, each before its parts and these from left to right. -/
def preorder : Node → List Node
  | .and children k => .and children k :: preorderAll children
  | .or children => .or children :: preorderAll children
  | .group mode children => .group mode children :: preorderAll children
  | .serial steps => .serial steps :: preorderAll steps
  | .condition c => [.condition c]
  | .switch s => [.switch s]

def preorderAll : List Node → List Node
  | [] => []
  | n :: rest => preorder n ++ preorderAll rest

end

theorem preorder_eq (n : Node) : n.preorder = n :: preorderAll n.parts := by
  cases n <;> rfl

theorem preorderAll_cons (n : Node) (rest : List Node) :
    preorderAll (n :: rest) = n.preorder ++ preorderAll rest := rfl

theorem mem_preorderAll {m : Node} {ns : List Node} :
    m ∈ preorderAll ns ↔ ∃ n ∈ ns, m ∈ n.preorder := by
  induction ns with
  | nil => simp [preorderAll]
  | cons n rest ih => rw [preorderAll_cons, List.mem_append, ih, List.exists_mem_cons_iff]

theorem mem_preorder {m n : Node} : m ∈ n.preorder ↔ Occurs m n := by
  induction n using inductionOnParts with
  | _ n ih =>
      rw [preorder_eq, List.mem_cons, mem_preorderAll]
      constructor
      · intro h
        rcases h with h | ⟨c, hc, hm⟩
        · exact h ▸ .here
        · exact .deeper hc ((ih c hc).1 hm)
      · intro h
        cases h with
        | here => exact .inl rfl
        | deeper hc hm => exact .inr ⟨_, hc, (ih _ hc).2 hm⟩

theorem fault?_encodeAll_cons (n : Node) (rest : List Node) :
    fault? (encodeAll (n :: rest)) = (fault? n.encode).or (fault? (encodeAll rest)) := by
  rw [encodeAll_cons]
  cases n.encode with
  | error e => rfl
  | ok j => cases encodeAll rest <;> rfl

/-- What takes any members there are adds no fault to theirs. -/
theorem fault?_bind_encodeAll {children : List Node} {f : List Json → Except QueryError Json}
    (hne : children ≠ []) (hf : ∀ asts, asts ≠ [] → ∃ j, f asts = .ok j) :
    fault? (encodeAll children >>= f) = fault? (encodeAll children) := by
  cases h : encodeAll children with
  | error e => rfl
  | ok asts =>
      have hlen : asts.length = children.length := length_encodeAll h
      have hasts : asts ≠ [] := by
        intro hnil
        rw [hnil, List.length_nil] at hlen
        exact hne (List.eq_nil_of_length_eq_zero hlen.symm)
      obtain ⟨j, hj⟩ := hf asts hasts
      change fault? (f asts) = none
      rw [hj]
      rfl

theorem exists_folded (combinator : Combinator) (op : String) {asts : List Json}
    (h : asts ≠ []) : ∃ j, folded combinator op asts = .ok j := by
  obtain ⟨ast, hast⟩ := rightFold_isSome op h
  exact ⟨ast, folded_eq_ok.2 hast⟩

theorem exists_sequenced {asts : List Json} (h : asts ≠ []) : ∃ j, sequenced asts = .ok j := by
  match asts with
  | [] => exact absurd rfl h
  | [only] => exact ⟨only, rfl⟩
  | first :: second :: rest => exact ⟨_, rfl⟩

/-- A pattern has its own fault, or else the first fault of its parts. -/
theorem fault?_encode (n : Node) :
    fault? n.encode = n.ownFault?.or (fault? (encodeAll n.parts)) := by
  cases n with
  | condition c => rfl
  | and children k =>
      cases children with
      | nil => rfl
      | cons c rest =>
          rw [encode_and]
          refine fault?_bind_encodeAll (List.cons_ne_nil c rest) fun asts hasts => ?_
          obtain ⟨j, hj⟩ := exists_folded .conjunction "&&" hasts
          exact ⟨k.apply j, by rw [hj]; rfl⟩
  | or children =>
      cases children with
      | nil => rfl
      | cons c rest =>
          rw [encode_or]
          exact fault?_bind_encodeAll (List.cons_ne_nil c rest) fun asts hasts =>
            exists_folded .disjunction "||" hasts
  | group mode children =>
      cases children with
      | nil => rfl
      | cons c rest =>
          rw [encode_group, List.isEmpty_cons, if_neg Bool.false_ne_true]
          exact fault?_bind_encodeAll (List.cons_ne_nil c rest) fun asts _ => ⟨_, rfl⟩
  | serial steps =>
      cases steps with
      | nil => rfl
      | cons step rest =>
          rw [encode_serial]
          exact fault?_bind_encodeAll (List.cons_ne_nil step rest) fun asts hasts =>
            exists_sequenced hasts
  | switch s =>
      obtain ⟨stream, groups⟩ := s
      cases stream <;> rfl

theorem fault?_encodeAll {ns : List Node}
    (h : ∀ n ∈ ns, fault? n.encode = n.preorder.findSome? ownFault?) :
    fault? (encodeAll ns) = (preorderAll ns).findSome? ownFault? := by
  induction ns with
  | nil => rfl
  | cons n rest ih =>
      have hn := h n List.mem_cons_self
      have hrest := ih fun m hm => h m (List.mem_cons_of_mem n hm)
      rw [fault?_encodeAll_cons, preorderAll_cons, List.findSome?_append, hn, hrest]

/-- The fault that is reported is the first one from left to right. -/
theorem fault?_encode_eq_findSome? (n : Node) :
    fault? n.encode = n.preorder.findSome? ownFault? := by
  induction n using inductionOnParts with
  | _ n ih =>
      rw [fault?_encode, fault?_encodeAll ih, preorder_eq, List.findSome?_cons]
      cases n.ownFault? <;> rfl

theorem encode_eq_error_iff {n : Node} {e : QueryError} :
    n.encode = .error e ↔ ∃ before m after, n.preorder = before ++ m :: after ∧
      Offends m e ∧ ∀ l ∈ before, ¬ l.IsOffender := by
  rw [← fault?_eq_some, fault?_encode_eq_findSome?, List.findSome?_eq_some_iff]
  simp only [ownFault?_eq_some, ownFault?_eq_none]

theorem exists_encode_eq_error_iff {n : Node} :
    (∃ e, n.encode = .error e) ↔ ∃ m, Occurs m n ∧ m.IsOffender := by
  have hsome : (∃ e, n.encode = .error e) ↔ (n.preorder.findSome? ownFault?).isSome := by
    rw [← fault?_encode_eq_findSome?, Option.isSome_iff_exists]
    simp only [fault?_eq_some]
  rw [hsome, List.findSome?_isSome_iff]
  simp only [mem_preorder, Option.isSome_iff_exists, ownFault?_eq_some, IsOffender]

/-- An offender at any depth is a fault of all that it occurs in. -/
theorem exists_encode_eq_error_iff_parts {n : Node} :
    (∃ e, n.encode = .error e) ↔ n.IsOffender ∨ ∃ c ∈ n.parts, ∃ e, c.encode = .error e := by
  simp only [exists_encode_eq_error_iff]
  constructor
  · rintro ⟨m, hm, hoffends⟩
    cases hm with
    | here => exact .inl hoffends
    | deeper hc hm => exact .inr ⟨_, hc, m, hm, hoffends⟩
  · intro h
    rcases h with hoffends | ⟨c, hc, m, hm, hoffends⟩
    · exact ⟨n, .here, hoffends⟩
    · exact ⟨m, .deeper hc hm, hoffends⟩

/-- A pattern cannot be written exactly when something in it offends, and the fault is then that
of the first offender from left to right, by the name of its kind if it is a combinator. A
pattern adds no fault to those of its parts unless it offends itself, and hides none of them. -/
theorem encode_eq_error_iff_leftmost (n : Node) :
    (∀ e, n.encode = .error e ↔ ∃ before m after, n.preorder = before ++ m :: after ∧
      Offends m e ∧ ∀ l ∈ before, ¬ l.IsOffender) ∧
    ((∃ e, n.encode = .error e) ↔ ∃ m, Occurs m n ∧ m.IsOffender) ∧
    ((∃ e, n.encode = .error e) ↔ n.IsOffender ∨ ∃ c ∈ n.parts, ∃ e, c.encode = .error e) ∧
    ∀ m c, Offends m (.emptyCombinator c) → c.name = m.kind :=
  ⟨fun _ => encode_eq_error_iff, exists_encode_eq_error_iff, exists_encode_eq_error_iff_parts,
    fun _ _ h => h.name_eq_kind⟩

/-- Of a group without members and a switch without a stream, the first one is at fault. -/
example :
    (Node.or [.and [.group .any [], .switch ⟨none, []⟩] .empty]).encode =
      .error (.emptyCombinator (.group .any)) := rfl

end EventSearch.Node
