import EventSearch.Proofs.Node.Document

/-!
# Switches from their events to their documents

A switch is made of two events or more, each described by conditions on the event alone. Of
all attempts to bind it the first one succeeds and the others name the stream that it
succeeded with. It is written once it is bound, and then every event is written, as the
conjunction of its conditions.
-/
namespace EventSearch

theorem Condition.isBound_eq_false_iff {c : Condition} :
    c.isBound = false ↔ ∃ path, c.path = .event path := by
  refine ⟨exists_event_of_isBound, ?_⟩
  rintro ⟨path, hpath⟩
  simp [isBound, stream?, PathRef.stream?, hpath]

/-- What is said of the event alone states no stream. -/
theorem Condition.get?_stream_of_isBound {c : Condition} (h : c.isBound = false) :
    c.encode.get? "stream" = none := by
  have hstream : c.stream? = none := by simpa [isBound] using h
  rw [encode, fields, hstream]
  rfl

namespace Switch

variable {groups : List (List Condition)} {s : Switch} {first stream : Stream}

/-! ## Attempts to bind a switch -/

/-- The switch that an attempt to bind it leaves. -/
def afterAttempt (s : Switch) (stream : Stream) : Switch :=
  match s.bind stream with
  | .ok bound => bound
  | .error _ => s

/-- The switch that a sequence of attempts leaves. -/
def afterAttempts (s : Switch) (streams : List Stream) : Switch :=
  streams.foldl afterAttempt s

/-- The outcome of each attempt, on the switch that the last one to succeed has left. -/
def outcomes : Switch → List Stream → List (Except QueryError Switch)
  | _, [] => []
  | s, stream :: rest => s.bind stream :: outcomes (s.afterAttempt stream) rest

theorem bind_of_bound (h : s.stream = some first) :
    s.bind stream = .error (.alreadyBound first.name) := by
  rw [bind, h]

theorem afterAttempt_of_bound (h : s.stream = some first) : s.afterAttempt stream = s := by
  rw [afterAttempt, bind_of_bound h]

/-- A switch that is bound stays as it is. -/
theorem afterAttempts_of_bound (h : s.stream = some first) (streams : List Stream) :
    s.afterAttempts streams = s := by
  induction streams with
  | nil => rfl
  | cons stream rest ih =>
      rw [afterAttempts, List.foldl_cons, afterAttempt_of_bound h]
      exact ih

/-- All attempts on a switch that is bound name the stream that it has. -/
theorem outcomes_of_bound (h : s.stream = some first) (streams : List Stream) :
    s.outcomes streams = streams.map fun _ => .error (.alreadyBound first.name) := by
  induction streams with
  | nil => rfl
  | cons stream rest ih => rw [outcomes, bind_of_bound h, afterAttempt_of_bound h, ih, List.map_cons]

theorem outcomes_cons (first : Stream) (rest : List Stream) :
    outcomes ⟨none, groups⟩ (first :: rest) =
      .ok ⟨some first, groups⟩ :: rest.map fun _ => .error (.alreadyBound first.name) :=
  congrArg _ (outcomes_of_bound rfl rest)

/-- Whatever the attempts were, the switch has the first stream and the events it is made of. -/
theorem afterAttempts_eq (groups : List (List Condition)) (streams : List Stream) :
    afterAttempts ⟨none, groups⟩ streams = ⟨streams.head?, groups⟩ := by
  cases streams with
  | nil => rfl
  | cons first rest => exact afterAttempts_of_bound rfl rest

/-- A switch that is bound from the start is one that is made and then bound. -/
theorem makeBound_eq_ok :
    makeBound stream groups = .ok s ↔
      make groups = .ok ⟨none, groups⟩ ∧ s = ⟨some stream, groups⟩ := by
  rw [makeBound, bind_eq_ok]
  constructor
  · rintro ⟨made, hmade, h⟩
    obtain ⟨rfl, -⟩ := make_eq_ok_iff.1 hmade
    cases h
    exact ⟨hmade, rfl⟩
  · rintro ⟨hmade, rfl⟩
    exact ⟨_, hmade, rfl⟩

theorem makeBound_eq_error {e : QueryError} :
    makeBound stream groups = .error e ↔ make groups = .error e := by
  rw [makeBound, bind_eq_error]
  constructor
  · rintro (h | ⟨made, hmade, h⟩)
    · exact h
    · obtain ⟨rfl, -⟩ := make_eq_ok_iff.1 hmade
      cases h
  · exact .inl

/-! ## The documents of events -/

/-- The conditions of a list under a binary operator each, from the right. -/
inductive IsConjunction : List Condition → Json → Prop
  | last (c : Condition) : IsConjunction [c] c.encode
  | cons (c : Condition) {rest : List Condition} {j : Json} : IsConjunction rest j →
      IsConjunction (c :: rest) (.obj [("args", .arr [c.encode, j]), ("expr", .str "&&")])

theorem isConjunction_of_encodeGroup {group : List Condition} {j : Json}
    (h : encodeGroup group = some j) : IsConjunction group j := by
  induction group generalizing j with
  | nil => cases h
  | cons c rest ih =>
      rcases rightFold_cons_eq_some.1 h with ⟨hrest, rfl⟩ | ⟨tail, htail, rfl⟩
      · rw [List.map_eq_nil_iff.1 hrest]
        exact .last c
      · exact .cons c (ih htail)

/-- What is written for an event: the conjunction of its conditions, on no stream of their own. -/
structure StatesEvent (group : List Condition) (event : Json) : Prop where
  conjunction : IsConjunction group event
  streamless : ∀ c ∈ group, c.encode.get? "stream" = none

/-- What is written for a switch, with each of its events in its place. -/
def States (groups : List (List Condition)) (stream : Stream) (j : Json) : Prop :=
  ∃ events, List.Forall₂ StatesEvent groups events ∧
    j = .obj [("conds", .arr events), ("stream", stream.reference), ("type", .str "switch")]

/-- No event is dropped, since each of them has conditions. -/
theorem statesEvent_filterMap
    (h : ∀ g ∈ groups, g ≠ [] ∧ ∀ c ∈ g, c.isBound = false) :
    List.Forall₂ StatesEvent groups (groups.filterMap encodeGroup) := by
  induction groups with
  | nil => exact .nil
  | cons group rest ih =>
      obtain ⟨⟨hne, hevent⟩, hrest⟩ := List.forall_mem_cons.1 h
      have hfold : group.map Condition.encode ≠ [] := by simpa using hne
      obtain ⟨event, hgroup⟩ : ∃ event, encodeGroup group = some event := rightFold_isSome "&&" hfold
      rw [List.filterMap_cons_some hgroup]
      refine .cons ⟨isConjunction_of_encodeGroup hgroup, fun c hc => ?_⟩ (ih hrest)
      exact Condition.get?_stream_of_isBound (hevent c hc)

/-- What becomes of a switch of the given events. -/
structure Lifecycle (groups : List (List Condition)) (s : Switch) : Prop where
  made : s = ⟨none, groups⟩
  outcomes : ∀ first rest, s.outcomes (first :: rest) =
    .ok { s with stream := some first } :: rest.map fun _ => .error (.alreadyBound first.name)
  stream : ∀ streams, (s.afterAttempts streams).stream = streams.head?
  written : ∀ streams, (∃ j, (s.afterAttempts streams).encode = .ok j) ↔
    (s.afterAttempts streams).stream ≠ none
  unwritten : ∀ streams e, (s.afterAttempts streams).encode = .error e → e = .unboundSwitch
  document : ∀ streams j, (s.afterAttempts streams).encode = .ok j →
    ∃ first ∈ streams.head?, States groups first j

theorem IsProper.lifecycle (hs : IsProper ⟨none, groups⟩) : Lifecycle groups ⟨none, groups⟩ where
  made := rfl
  outcomes := outcomes_cons
  stream streams := by rw [afterAttempts_eq]
  written streams := by
    simp only [encode_eq_ok, Option.ne_none_iff_exists']
    constructor
    · rintro ⟨_, stream, h, -⟩
      exact ⟨stream, h⟩
    · rintro ⟨stream, h⟩
      exact ⟨_, stream, h, rfl⟩
  unwritten streams e h := (encode_eq_error.1 h).2
  document streams j h := by
    rw [afterAttempts_eq] at h
    obtain ⟨first, hfirst, rfl⟩ := encode_eq_ok.1 h
    exact ⟨first, hfirst, _, statesEvent_filterMap hs.2, rfl⟩

/-- A switch can be made of two events or more with conditions on the event alone, and of nothing
else. The first of all attempts to bind it succeeds. It is written once it is bound, with an entry
for each event and with the first stream. To make it bound is to make it and to bind it once. -/
theorem exists_make_iff_lifecycle (groups : List (List Condition)) :
    ((∃ s, make groups = .ok s) ↔
      2 ≤ groups.length ∧ ∀ g ∈ groups, g ≠ [] ∧ ∀ c ∈ g, ∃ path, c.path = .event path) ∧
    (∀ s, make groups = .ok s → Lifecycle groups s) ∧
    ∀ stream,
      makeBound stream groups = (make groups >>= fun s => s.bind stream) ∧
      (∀ s, makeBound stream groups = .ok s ↔
        make groups = .ok ⟨none, groups⟩ ∧ s = ⟨some stream, groups⟩) ∧
      ∀ e, makeBound stream groups = .error e ↔ make groups = .error e := by
  refine ⟨?_, ?_, fun stream => ⟨rfl, fun s => makeBound_eq_ok, fun e => makeBound_eq_error⟩⟩
  · simp only [make_eq_ok_iff, exists_eq_left, IsProper, Condition.isBound_eq_false_iff]
  · intro s h
    obtain ⟨rfl, hs⟩ := make_eq_ok_iff.1 h
    exact hs.lifecycle

/-- Of two streams the first one is bound, and both events are written. -/
theorem lifecycle_gears : ∃ s, make [[Node.gear 1, Node.gear 2], [Node.gear 3]] = .ok s ∧
    s.outcomes [.named "cars", .named "trucks"] =
      [.ok ⟨some (.named "cars"), s.groups⟩, .error (.alreadyBound "cars")] ∧
    ∃ j, (s.afterAttempts [.named "cars", .named "trucks"]).encode = .ok j ∧
      ∃ first second, IsConjunction [Node.gear 1, Node.gear 2] first ∧
        IsConjunction [Node.gear 3] second ∧
        j = .obj [("conds", .arr [first, second]), ("stream", .obj [("name", .str "cars")]),
          ("type", .str "switch")] := by
  obtain ⟨-, hlife, -⟩ :=
    exists_make_iff_lifecycle [[Node.gear 1, Node.gear 2], [Node.gear 3]]
  have hlife := hlife ⟨none, _⟩ rfl
  refine ⟨⟨none, _⟩, rfl, hlife.outcomes _ [_], ?_⟩
  obtain ⟨j, hj⟩ := (hlife.written [.named "cars", .named "trucks"]).2 nofun
  obtain ⟨bound, hbound, events, hevents, rfl⟩ := hlife.document _ j hj
  obtain ⟨first, _, hfirst, hrest, rfl⟩ := List.forall₂_cons_left_iff.1 hevents
  obtain ⟨second, _, hsecond, hnil, rfl⟩ := List.forall₂_cons_left_iff.1 hrest
  cases hnil
  cases hbound
  exact ⟨_, hj, first, second, hfirst.conjunction, hsecond.conjunction, rfl⟩

end Switch

end EventSearch
