import EventSearch.Proofs.Condition.Document
import EventSearch.Proofs.Node.Effective
import EventSearch.Proofs.Span.Document
import EventSearch.Query.Basic

/-!
# Documents of patterns

The form of what is written for a pattern that can be built. Each object has a core of exactly
one of five kinds, next to the constraints that it may state, and so have the objects in it.
In particular, the root of a select is never anything but an object.
-/
namespace EventSearch

namespace Json

/-- Conditions combined from the right, each of them on the event alone. -/
inductive IsEvent : Json → Prop
  | last {segments : List String} {fields : Fields Json} :
      IsFieldTest segments fields → IsEvent (.obj fields)
  | cons {segments : List String} {fields : Fields Json} {rest : Json} :
      IsFieldTest segments fields → IsEvent rest →
      IsEvent (.obj [("args", .arr [.obj fields, rest]), ("expr", .str "&&")])

inductive CoreKind where
  | condition | binary | group | serial | switch
deriving DecidableEq, Repr

/-- The members of an object that state no constraints. -/
def core (members : Fields Json) : Fields Json :=
  members.filter fun m => !Constraints.isKey m.1

def HasGap (j : Json) : Prop := (j.get? "within").isSome ∨ (j.get? "after").isSome

/-- What is stated of constraints has the form of constraints. -/
structure StatesProper (members : Fields Json) : Prop where
  within : ∀ d ∈ Fields.get? "within" members, d.IsDuration
  after : ∀ d ∈ Fields.get? "after" members, d.IsDuration
  length : ∀ l ∈ Fields.get? "for" members, l.IsLength

mutual

inductive IsPattern : Json → Prop
  | mk {kind : CoreKind} {members : Fields Json} :
      members.Increasing → StatesProper members → IsCore kind (core members) →
      IsPattern (.obj members)

inductive IsCore : CoreKind → Fields Json → Prop
  | condition {fields : Fields Json} : IsCondition fields → IsCore .condition fields
  | binary {op : String} {left right : Json} : op = "&&" ∨ op = "||" →
      IsPattern left → IsPattern right →
      IsCore .binary [("args", .arr [left, right]), ("expr", .str op)]
  | group {type : String} {members : List Json} : type ∈ ["any", "all", "during"] →
      members ≠ [] → (∀ j ∈ members, IsPattern j) →
      IsCore .group [("conds", .arr members), ("type", .str type)]
  | serial {first : Json} {rest : List Json} : rest ≠ [] → IsPattern first →
      (∀ j ∈ rest, IsPattern j) → (∀ j ∈ rest, HasGap j) →
      IsCore .serial [("conds", .arr (first :: rest)), ("type", .str "serial")]
  | switch {events : List Json} {stream : Json} : 2 ≤ events.length →
      (∀ j ∈ events, IsEvent j) → stream.IsReference →
      IsCore .switch [("conds", .arr events), ("stream", stream), ("type", .str "switch")]

end

/-- The kind that a reader can tell from the names in a core and from its type. -/
def kindOf (core : Fields Json) : CoreKind :=
  if Fields.contains "op" core then .condition
  else if Fields.contains "expr" core then .binary
  else
    match (Fields.get? "type" core).bind str? with
    | some "serial" => .serial
    | some "switch" => .switch
    | _ => .group

variable {kind : CoreKind} {members : Fields Json} {j : Json}

theorem IsCore.kindOf_eq (h : IsCore kind members) : kindOf members = kind := by
  cases h with
  | condition h =>
      cases h with
      | event h =>
          cases h
          rfl
      | span _ h _ =>
          cases h
          rfl
  | binary _ _ _ => rfl
  | group htype _ _ =>
      simp only [List.mem_cons, List.not_mem_nil, or_false] at htype
      rcases htype with rfl | rfl | rfl <;> rfl
  | serial _ _ _ _ => rfl
  | switch _ _ _ => rfl

/-- The names in the cores of all kinds. -/
def coreNames : List (List String) :=
  [["arg", "op", "path"], ["arg", "op", "path", "stream", "type"], ["args", "expr"],
    ["conds", "type"], ["conds", "stream", "type"]]

theorem IsCore.names (h : IsCore kind members) : members.map Prod.fst ∈ coreNames := by
  cases h with
  | condition h =>
      cases h with
      | event h => simp [h.names, coreNames]
      | span _ h _ => simp [h.names, coreNames]
  | _ => simp [coreNames]

theorem IsCore.increasing (h : IsCore kind members) : members.Increasing := by
  have hall : ∀ names ∈ coreNames, names.Pairwise (· < ·) := by decide
  exact hall _ h.names

/-- No core uses a name by which constraints are stated. -/
theorem isKey_eq_false_of_names (h : members.map Prod.fst ∈ coreNames) {m : String × Json}
    (hm : m ∈ members) : Constraints.isKey m.1 = false := by
  have hall : ∀ names ∈ coreNames, ∀ name ∈ names, Constraints.isKey name = false := by decide
  exact hall _ h _ (List.mem_map_of_mem hm)

theorem unmarked_of_names (h : members.map Prod.fst ∈ coreNames) :
    Constraints.empty.StatedIn members :=
  Constraints.statedIn_empty fun _ hm => isKey_eq_false_of_names h hm

/-- In an object without constraints, all members are those of the core. -/
theorem core_eq_self (h : Constraints.empty.StatedIn members) : core members = members := by
  refine List.filter_eq_self.2 fun m hm => ?_
  cases hkey : Constraints.isKey m.1 with
  | false => rfl
  | true =>
      exact absurd (Constraints.get?_eq_none_of_isKey h hkey) (Fields.get?_ne_none_of_mem hm)

/-- A core without constraints is the document of a pattern. -/
theorem IsCore.isPattern (h : IsCore kind members) : IsPattern (.obj members) := by
  have hunmarked := unmarked_of_names h.names
  exact .mk h.increasing
    { within := by simp [hunmarked.within, Constraints.empty]
      after := by simp [hunmarked.after, Constraints.empty]
      length := by simp [hunmarked.length, Constraints.empty] }
    ((core_eq_self hunmarked).symm ▸ h)

/-- Combining documents by an operator gives the document of a pattern. -/
theorem isPattern_rightFold {op : String} (hop : op = "&&" ∨ op = "||") {asts : List Json}
    {ast : Json} (h : ∀ j ∈ asts, j.IsPattern) (hast : rightFold op asts = some ast) :
    ast.IsPattern := by
  refine rightFold_induction (fun left right hleft hright => ?_) h hast
  exact (IsCore.binary hop hleft hright).isPattern

/-- What holds of a value that is set and of the member that is kept holds of the outcome. -/
theorem forall_mem_or {α : Type} {P : Json → Prop} {encode : α → Json} {set : Option α}
    {kept : Option Json} (hset : ∀ v ∈ set, P (encode v)) (hkept : ∀ j ∈ kept, P j) :
    ∀ j ∈ (set.map encode).or kept, P j := by
  intro j hj
  cases set with
  | none =>
      rw [Option.map_none, Option.none_or] at hj
      exact hkept j hj
  | some v =>
      rw [Option.map_some, Option.some_or] at hj
      cases hj
      exact hset v rfl

/-- Proper constraints are stated in place of others that are. -/
theorem StatesProper.insertAll {k : Constraints} (hk : k.IsProper) (h : StatesProper members) :
    StatesProper (Fields.insertAll members k.fields) where
  within := by
    rw [Constraints.get?_within_insertAll]
    exact forall_mem_or (fun d _ => d.isDuration_encode) h.within
  after := by
    rw [Constraints.get?_after_insertAll]
    exact forall_mem_or (fun d _ => d.isDuration_encode) h.after
  length := by
    rw [Constraints.get?_for_insertAll]
    exact forall_mem_or (fun l hl => Length.isLength_encode (hk l hl)) h.length

theorem core_insertAll (k : Constraints) (members : Fields Json) :
    core (Fields.insertAll members k.fields) = core members :=
  Fields.filter_insertAll (fun name => !Constraints.isKey name) members fun m hm => by
    rw [Constraints.isKey_of_mem_fields hm, Bool.not_true]

/-- Proper constraints can be stated in the document of any pattern. -/
theorem IsPattern.apply {k : Constraints} (hk : k.IsProper) (hj : j.IsPattern) :
    (k.apply j).IsPattern := by
  cases hj with
  | mk hincreasing hstates hcore =>
      exact .mk (hincreasing.insertAll _) (hstates.insertAll hk) (core_insertAll k _ ▸ hcore)

/-- A step without a gap is given one of no time. -/
theorem IsPattern.withDefaultGap (hj : j.IsPattern) :
    (Node.withDefaultGap j).IsPattern ∧ (Node.withDefaultGap j).HasGap := by
  cases hj with
  | @mk kind members hincreasing hstates hcore =>
      have hobj : (obj members).IsPattern := .mk hincreasing hstates hcore
      rw [Node.withDefaultGap]
      split
      · next hgap => exact ⟨hobj, by simpa [HasGap, get?, Fields.contains] using hgap⟩
      · have hzero : ({ within := some .zero } : Constraints).IsProper := by
          intro l hl
          cases hl
        refine ⟨hobj.apply hzero, .inl ?_⟩
        rw [get?, Fields.get?_insert_self, Option.isSome_some]

end Json

namespace Switch

open Json

theorem isEvent_of_encodeGroup {g : List Condition} {j : Json} (hg : ∀ c ∈ g, c.isBound = false)
    (hj : encodeGroup g = some j) : j.IsEvent := by
  induction g generalizing j with
  | nil => cases hj
  | cons c rest ih =>
      have hc := Condition.isFieldTest_of_isBound (hg c List.mem_cons_self)
      rcases rightFold_cons_eq_some.1 hj with ⟨-, rfl⟩ | ⟨tail, htail, rfl⟩
      · exact .last hc
      · exact .cons hc (ih (fun b hb => hg b (List.mem_cons_of_mem _ hb)) htail)

/-- Each of the events of a complete switch has a document. -/
theorem IsProper.length_filterMap {s : Switch} (hs : s.IsProper) :
    (s.groups.filterMap encodeGroup).length = s.groups.length := by
  refine List.filterMap_length_eq_length.2 fun g hg => ?_
  have hne : g.map Condition.encode ≠ [] := by simpa using (hs.2 g hg).1
  obtain ⟨ast, hast⟩ := rightFold_isSome "&&" hne
  rw [encodeGroup, hast, Option.isSome_some]

theorem IsProper.isCore {s : Switch} (hs : s.IsProper) (stream : Stream) :
    IsCore .switch [("conds", .arr (s.groups.filterMap encodeGroup)),
      ("stream", stream.reference), ("type", .str "switch")] := by
  refine .switch (hs.length_filterMap ▸ hs.1) (fun j hj => ?_)
    (stream.isReference_referenceWith none)
  obtain ⟨g, hg, hgj⟩ := List.mem_filterMap.1 hj
  exact isEvent_of_encodeGroup (hs.2 g hg).2 hgj

end Switch

namespace Node

open Json

/-- What is written for a pattern of canonical form is the document of a pattern. -/
theorem isPattern_of_canonical {n : Node} {j : Json} (hn : Throughout Canonical n)
    (h : n.encode = .ok j) : j.IsPattern := by
  induction n using inductionOnParts generalizing j with
  | _ n ih =>
      have hparts : ∀ c ∈ n.parts, ∀ j, encode c = .ok j → j.IsPattern := by
        intro c hc j hj
        exact ih c hc (hn.of_mem_parts hc) hj
      cases n with
      | condition c =>
          rw [encode_condition] at h
          cases h
          exact (IsCore.condition c.isCondition_fields).isPattern
      | and children k =>
          obtain ⟨asts, ast, hasts, hast, rfl⟩ := encode_and_eq_ok.1 h
          exact (isPattern_rightFold (.inl rfl) (forall_of_encodeAll hasts hparts) hast).apply hn.self.1
      | or children =>
          obtain ⟨asts, hasts, hast⟩ := encode_or_eq_ok.1 h
          exact isPattern_rightFold (.inr rfl) (forall_of_encodeAll hasts hparts) hast
      | group mode children =>
          obtain ⟨hne, asts, hasts, rfl⟩ := encode_group_eq_ok.1 h
          have hmode : mode.name ∈ ["any", "all", "during"] := by cases mode <;> decide
          refine (IsCore.group hmode ?_ (forall_of_encodeAll hasts hparts)).isPattern
          rintro rfl
          exact hne (List.eq_nil_of_length_eq_zero (length_encodeAll hasts).symm)
      | serial steps =>
          rcases encode_serial_eq_ok.1 h with hasts | ⟨first, second, rest, hasts, rfl⟩
          · exact forall_of_encodeAll hasts hparts j List.mem_cons_self
          · have hsteps := forall_of_encodeAll hasts hparts
            have hgap : ∀ ast ∈ (second :: rest).map withDefaultGap,
                ast.IsPattern ∧ ast.HasGap := by
              intro ast hast
              obtain ⟨step, hstep, rfl⟩ := List.mem_map.1 hast
              exact (hsteps step (List.mem_cons_of_mem _ hstep)).withDefaultGap
            exact (IsCore.serial (by simp) (hsteps first List.mem_cons_self)
              (fun ast hast => (hgap ast hast).1) fun ast hast => (hgap ast hast).2).isPattern
      | switch s =>
          obtain ⟨stream, -, rfl⟩ := encode_switch_eq_ok.1 h
          exact (Switch.IsProper.isCore hn.self stream).isPattern

end Node

namespace Select

theorem window_eq_error {s : Select} {e : QueryError} (h : s.window = .error e) :
    ∃ after before, e = .emptyWindow after before := by
  unfold window at h
  split at h
  · split at h
    · cases h
    · cases h
      exact ⟨_, _, rfl⟩
  all_goals cases h

theorem addWindow_eq_error {object : Fields Json} {key : WindowKey} {value : Json}
    {e : QueryError} (h : addWindow object key value = .error e) :
    ∃ present, e = .windowClash key present := by
  unfold addWindow at h
  split at h
  · cases h
    exact ⟨_, rfl⟩
  · cases h

theorem exists_obj_of_pattern {s : Select} {j : Json} (h : s.pattern = .ok j) :
    ∃ members, j = .obj members := by
  unfold pattern at h
  split at h
  · exact Node.exists_obj_of_encode h
  · exact ⟨[], (Except.ok.inj h).symm⟩

theorem pattern_eq_error {s : Select} {e : QueryError} (h : s.pattern = .error e) :
    (∃ c, e = .emptyCombinator c) ∨ e = .unboundSwitch := by
  unfold pattern at h
  split at h
  · exact Node.encode_eq_error h
  · cases h

/-- The root of a select is an object, whatever pattern it is given. -/
theorem encode_ne_rootNotObject (s : Select) : s.encode ≠ .error .rootNotObject := by
  intro h
  rcases bind_eq_error.1 h with h | ⟨j, hj, h⟩
  · rcases pattern_eq_error h with ⟨c, hc⟩ | hc <;> cases hc
  · obtain ⟨members, rfl⟩ := exists_obj_of_pattern hj
    rcases bind_eq_error.1 h with h | ⟨stated, -, h⟩
    · obtain ⟨after, before, hwindow⟩ := window_eq_error h
      cases hwindow
    · split at h
      · rcases bind_eq_error.1 h with h | ⟨_, -, h⟩
        · obtain ⟨present, hclash⟩ := addWindow_eq_error h
          cases hclash
        · cases h
      · cases h

end Select

namespace Node

open Json

/-- What is written for a pattern that can be built is the document of a pattern at every depth,
with a core of one kind only, and no select is at fault for a root that is not an object. -/
theorem Reachable.isPattern_of_encode :
    (∀ n j, Reachable n → n.encode = .ok j →
      j.IsPattern ∧ ∃ kind members, j = .obj members ∧ IsCore kind (core members) ∧
        ∀ other, IsCore other (core members) → other = kind) ∧
    ∀ s : Select, s.encode ≠ .error .rootNotObject := by
  refine ⟨fun n j hn h => ?_, Select.encode_ne_rootNotObject⟩
  have hj := isPattern_of_canonical (hn.throughout preserved_canonical) h
  refine ⟨hj, ?_⟩
  cases hj with
  | @mk kind members hincreasing hstates hcore =>
      exact ⟨kind, members, rfl, hcore, fun other ho => ho.kindOf_eq.symm.trans hcore.kindOf_eq⟩

/-- The start is written as a sequence of two steps. -/
theorem isPattern_start : ∃ first second,
    start.encode = .ok (typed "serial" [first, second]) ∧
      (typed "serial" [first, second]).IsPattern ∧
      IsCore .serial [("conds", .arr [first, second]), ("type", .str "serial")] := by
  obtain ⟨first, second, h⟩ : ∃ first second,
      start.encode = .ok (typed "serial" [first, second]) := ⟨_, _, rfl⟩
  obtain ⟨hpattern, kind, members, hmembers, hcore, -⟩ :=
    Reachable.isPattern_of_encode.1 start _ reachable_start h
  cases hmembers
  cases (IsCore.kindOf_eq hcore : CoreKind.serial = kind)
  exact ⟨first, second, h, hpattern, hcore⟩

end Node

end EventSearch
