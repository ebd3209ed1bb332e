import EventSearch.Node.Encode
import EventSearch.Proofs.Node.Occurrence
import EventSearch.Proofs.Outcome

/-!
# Encoding step by step

A pattern is encoded by encoding its parts first. Each kind of pattern has one statement that
says when its encoding succeeds and what it is then, and the proofs about encodings are in
terms of these. The only faults are combinators without members and switches without a
stream.
-/
namespace EventSearch

theorem rightFold_isSome (op : String) {asts : List Json} (h : asts ≠ []) :
    ∃ ast, rightFold op asts = some ast := by
  cases asts with
  | nil => exact absurd rfl h
  | cons first rest => exact ⟨_, rfl⟩

/-- A fold is its only member, or the first one combined with the fold of the others. -/
theorem rightFold_cons_eq_some {op : String} {first : Json} {rest : List Json} {ast : Json} :
    rightFold op (first :: rest) = some ast ↔ rest = [] ∧ ast = first ∨
      ∃ tail, rightFold op rest = some tail ∧ ast = binary op first tail := by
  rw [rightFold]
  cases rest with
  | nil => simp [rightFold, eq_comm]
  | cons second more =>
      obtain ⟨tail, htail⟩ := rightFold_isSome op (List.cons_ne_nil second more)
      rw [htail]
      simp [eq_comm]

/-- What an operator hands on from its operands holds of a fold if it holds of all members. -/
theorem rightFold_induction {P : Json → Prop} {op : String}
    (hop : ∀ left right, P left → P right → P (binary op left right)) {asts : List Json}
    {ast : Json} (h : ∀ j ∈ asts, P j) (hast : rightFold op asts = some ast) : P ast := by
  induction asts generalizing ast with
  | nil => cases hast
  | cons first rest ih =>
      have hfirst := h first List.mem_cons_self
      rcases rightFold_cons_eq_some.1 hast with ⟨-, rfl⟩ | ⟨tail, htail, rfl⟩
      · exact hfirst
      · exact hop first tail hfirst (ih (fun j hj => h j (List.mem_cons_of_mem _ hj)) htail)

namespace Switch

variable {s : Switch}

/-- A switch is written when it has a stream. -/
theorem encode_eq_ok {j : Json} :
    s.encode = .ok j ↔ ∃ stream, s.stream = some stream ∧
      j = .obj [("conds", .arr (s.groups.filterMap encodeGroup)), ("stream", stream.reference),
        ("type", .str "switch")] := by
  rw [encode]
  cases s.stream with
  | none => simp
  | some stream => simp [eq_comm]

theorem encode_eq_error {e : QueryError} :
    s.encode = .error e ↔ s.stream = none ∧ e = .unboundSwitch := by
  rw [encode]
  cases s.stream with
  | none => simp [eq_comm]
  | some stream => simp

end Switch

namespace Node

theorem folded_eq_ok {combinator : Combinator} {op : String} {asts : List Json} {j : Json} :
    folded combinator op asts = .ok j ↔ rightFold op asts = some j := by
  unfold folded
  cases rightFold op asts <;> simp

theorem folded_eq_error {combinator : Combinator} {op : String} {asts : List Json}
    {e : QueryError} (h : folded combinator op asts = .error e) :
    e = .emptyCombinator combinator := by
  unfold folded at h
  split at h
  · exact (Except.error.inj h).symm
  · cases h

/-- A single step is written as it is, and more than one with their gaps. -/
theorem sequenced_eq_ok {asts : List Json} {j : Json} :
    sequenced asts = .ok j ↔ asts = [j] ∨ ∃ first second rest, asts = first :: second :: rest ∧
      j = typed "serial" (first :: (second :: rest).map withDefaultGap) := by
  match asts with
  | [] => simp [sequenced]
  | [only] => simp [sequenced]
  | first :: second :: rest =>
      rw [sequenced, Except.ok.injEq]
      · constructor
        · exact fun h => .inr ⟨first, second, rest, rfl, h.symm⟩
        · rintro (h | ⟨_, _, _, h, rfl⟩)
          · cases h
          · cases h
            rfl
      · simp

theorem sequenced_eq_error {asts : List Json} {e : QueryError} (h : sequenced asts = .error e) :
    e = .emptyCombinator .serial := by
  unfold sequenced at h
  split at h
  · exact (Except.error.inj h).symm
  all_goals cases h

theorem encodeAll_eq_mapM (ns : List Node) : encodeAll ns = ns.mapM encode := by
  induction ns with
  | nil => rfl
  | cons n rest ih =>
      rw [encodeAll_cons, List.mapM_cons, ih]
      rfl

theorem encodeAll_eq_ok {ns : List Node} {js : List Json} :
    encodeAll ns = .ok js ↔ List.Forall₂ (fun n j => encode n = .ok j) ns js := by
  rw [encodeAll_eq_mapM, mapM_eq_ok]

theorem length_encodeAll {ns : List Node} {js : List Json} (h : encodeAll ns = .ok js) :
    js.length = ns.length := (encodeAll_eq_ok.1 h).length_eq.symm

/-- Every part is written when all of them are. -/
theorem exists_encode_of_mem {ns : List Node} {js : List Json} {n : Node}
    (h : encodeAll ns = .ok js) (hn : n ∈ ns) : ∃ j ∈ js, encode n = .ok j := by
  rw [encodeAll_eq_mapM] at h
  exact exists_of_mapM_eq_ok h hn

theorem forall_of_encodeAll {P : Json → Prop} {ns : List Node} {js : List Json}
    (h : encodeAll ns = .ok js) (hP : ∀ n ∈ ns, ∀ j, encode n = .ok j → P j) : ∀ j ∈ js, P j := by
  rw [encodeAll_eq_mapM] at h
  exact forall_of_mapM_eq_ok h hP

theorem exists_of_encodeAll_eq_error {ns : List Node} {e : QueryError}
    (h : encodeAll ns = .error e) : ∃ n ∈ ns, encode n = .error e := by
  induction ns with
  | nil => cases h
  | cons n rest ih =>
      rw [encodeAll_cons] at h
      rcases bind_eq_error.1 h with h | ⟨first, -, h⟩
      · exact ⟨n, List.mem_cons_self, h⟩
      · rcases bind_eq_error.1 h with h | ⟨others, -, h⟩
        · obtain ⟨m, hm, he⟩ := ih h
          exact ⟨m, List.mem_cons_of_mem _ hm, he⟩
        · cases h

theorem encode_and_eq_ok {children : List Node} {k : Constraints} {j : Json} :
    encode (.and children k) = .ok j ↔
      ∃ asts ast, encodeAll children = .ok asts ∧ rightFold "&&" asts = some ast ∧
        j = k.apply ast := by
  simp only [encode_and, bind_eq_ok, folded_eq_ok, Except.ok.injEq]
  constructor
  · rintro ⟨asts, hasts, ast, hast, rfl⟩
    exact ⟨asts, ast, hasts, hast, rfl⟩
  · rintro ⟨asts, ast, hasts, hast, rfl⟩
    exact ⟨asts, hasts, ast, hast, rfl⟩

theorem encode_or_eq_ok {children : List Node} {j : Json} :
    encode (.or children) = .ok j ↔
      ∃ asts, encodeAll children = .ok asts ∧ rightFold "||" asts = some j := by
  simp only [encode_or, bind_eq_ok, folded_eq_ok]

theorem encode_group_eq_ok {mode : GroupMode} {children : List Node} {j : Json} :
    encode (.group mode children) = .ok j ↔
      children ≠ [] ∧ ∃ asts, encodeAll children = .ok asts ∧ j = typed mode.name asts := by
  cases children with
  | nil => simp [encode_group]
  | cons n rest =>
      simp only [encode_group, List.isEmpty_cons, Bool.false_eq_true, if_false, bind_eq_ok,
        Except.ok.injEq, ne_eq, reduceCtorEq, not_false_eq_true, true_and]
      exact exists_congr fun asts => and_congr_right fun _ => eq_comm

theorem encode_serial_eq_ok {steps : List Node} {j : Json} :
    encode (.serial steps) = .ok j ↔
      encodeAll steps = .ok [j] ∨
        ∃ first second rest, encodeAll steps = .ok (first :: second :: rest) ∧
          j = typed "serial" (first :: (second :: rest).map withDefaultGap) := by
  simp only [encode_serial, bind_eq_ok, sequenced_eq_ok]
  constructor
  · rintro ⟨asts, hasts, rfl | ⟨first, second, rest, rfl, hj⟩⟩
    · exact .inl hasts
    · exact .inr ⟨first, second, rest, hasts, hj⟩
  · rintro (hasts | ⟨first, second, rest, hasts, hj⟩)
    · exact ⟨[j], hasts, .inl rfl⟩
    · exact ⟨_, hasts, .inr ⟨first, second, rest, rfl, hj⟩⟩

theorem encodeAll_singleton (n : Node) : encodeAll [n] = (encode n).map fun j => [j] := by
  rw [encodeAll_cons, encodeAll_nil]
  cases encode n <;> rfl

theorem encode_and_singleton (n : Node) (k : Constraints) :
    encode (.and [n] k) = (encode n).map k.apply := by
  rw [encode_and, encodeAll_singleton]
  cases encode n <;> rfl

theorem encode_or_singleton (n : Node) : encode (.or [n]) = encode n := by
  rw [encode_or, encodeAll_singleton]
  cases encode n <;> rfl

theorem encode_serial_singleton (n : Node) : encode (.serial [n]) = encode n := by
  rw [encode_serial, encodeAll_singleton]
  cases encode n <;> rfl

theorem encode_switch_eq_ok {s : Switch} {j : Json} :
    encode (.switch s) = .ok j ↔
      ∃ stream, s.stream = some stream ∧
        j = .obj [("conds", .arr (s.groups.filterMap Switch.encodeGroup)),
          ("stream", stream.reference), ("type", .str "switch")] := by
  rw [encode_switch, Switch.encode_eq_ok]

/-- A fault of a pattern is one of its own or a fault of a part. -/
theorem encode_eq_error_cases {n : Node} {e : QueryError} (h : encode n = .error e) :
    (∃ m ∈ n.parts, encode m = .error e) ∨ (∃ c, e = .emptyCombinator c) ∨ e = .unboundSwitch := by
  cases n with
  | condition c => cases h
  | and children k =>
      rw [encode_and] at h
      rcases bind_eq_error.1 h with h | ⟨asts, -, h⟩
      · exact .inl (exists_of_encodeAll_eq_error h)
      · rcases bind_eq_error.1 h with h | ⟨ast, -, h⟩
        · exact .inr (.inl ⟨_, folded_eq_error h⟩)
        · cases h
  | or children =>
      rw [encode_or] at h
      rcases bind_eq_error.1 h with h | ⟨asts, -, h⟩
      · exact .inl (exists_of_encodeAll_eq_error h)
      · exact .inr (.inl ⟨_, folded_eq_error h⟩)
  | group mode children =>
      rw [encode_group] at h
      split at h
      · exact .inr (.inl ⟨_, (Except.error.inj h).symm⟩)
      · rcases bind_eq_error.1 h with h | ⟨asts, -, h⟩
        · exact .inl (exists_of_encodeAll_eq_error h)
        · cases h
  | serial steps =>
      rw [encode_serial] at h
      rcases bind_eq_error.1 h with h | ⟨asts, -, h⟩
      · exact .inl (exists_of_encodeAll_eq_error h)
      · exact .inr (.inl ⟨_, sequenced_eq_error h⟩)
  | switch s =>
      rw [encode_switch] at h
      exact .inr (.inr (Switch.encode_eq_error.1 h).2)

/-- The faults that encoding can find. -/
theorem encode_eq_error {n : Node} {e : QueryError} (h : encode n = .error e) :
    (∃ c, e = .emptyCombinator c) ∨ e = .unboundSwitch := by
  induction n using inductionOnParts with
  | _ n ih =>
      rcases encode_eq_error_cases h with ⟨m, hm, hme⟩ | hown
      · exact ih m hm hme
      · exact hown

end Node

end EventSearch
