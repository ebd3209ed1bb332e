import EventSearch.Proofs.Node.Encoding
import EventSearch.Proofs.Query.Encoding
import EventSearch.Proofs.Query.Role
import EventSearch.Proofs.Span.Statement

/-!
# Tests in documents

Each test that a query asks for is found in its document, in a place of its own kind: a condition
stands among the patterns, an event of a switch among these events, and a filter in the reference
to its stream. Constraints, gaps and the window leave the members alone that state a test.
-/
namespace EventSearch

open Json

/-- The members of an object that state a test of the field that a path leads to. -/
structure Json.States (c : Json) (path : EventPath) (t : Test) : Prop where
  op : c.get? "op" = some (.str t.op.text)
  arg : c.get? "arg" = some t.arg.encode
  path : c.get? "path" = some path.encode

/-- Somewhere in a value, the test is stated where a condition can stand. -/
def Json.Poses (role : Role) (j : Json) (place : Role) (path : EventPath) (t : Test) : Prop :=
  place.HoldsCondition ∧ ∃ c, Json.Occurs role j place c ∧ c.States path t

variable {role place : Role} {path : EventPath} {t : Test}

/-! ## Values -/

namespace Json

theorem Poses.of_mem {items : List Json} {i : Json} (hi : i ∈ items)
    (h : Poses role i place path t) : Poses role (.arr items) place path t := by
  obtain ⟨hplace, c, hc, hstates⟩ := h
  exact ⟨hplace, c, .item hi hc, hstates⟩

theorem Poses.of_get? {owner : Fields Json} {value : Json} (name : String)
    (hmember : Fields.get? name owner = some value)
    (h : Poses (role.ofMember owner name) value place path t) :
    Poses role (.obj owner) place path t := by
  obtain ⟨hplace, c, hc, hstates⟩ := h
  exact ⟨hplace, c, occurs_of_get? name hmember hc, hstates⟩

/-- A member of no reserved name can be set, as what it replaces states no test. -/
theorem Poses.insert {owner : Fields Json} {name : String} (hname : name ∉ Role.reserved)
    (value : Json) (h : Poses .pattern (.obj owner) place path t) :
    Poses .pattern (.obj (Fields.insert name value owner)) place path t := by
  have hop := Role.get?_insert hname (by decide : "op" ∈ Role.reserved) value owner
  have harg := Role.get?_insert hname (by decide : "arg" ∈ Role.reserved) value owner
  have hpath := Role.get?_insert hname (by decide : "path" ∈ Role.reserved) value owner
  have htype := Role.get?_insert hname (by decide : "type" ∈ Role.reserved) value owner
  obtain ⟨hplace, c, hc, hstates⟩ := h
  cases hc with
  | here =>
      exact ⟨hplace, _, .here _ _, hop.trans hstates.op, harg.trans hstates.arg,
        hpath.trans hstates.path⟩
  | @member _ _ _ other v _ hm hc =>
      by_cases hother : other = name
      · rw [hother, Role.ofMember_pattern hname] at hc
        rw [hc.role_eq fun _ _ => rfl] at hplace
        exact absurd hplace (by decide)
      · refine ⟨hplace, c, .member (Fields.mem_insert_of_ne hm hother value) ?_, hstates⟩
        rwa [Role.ofMember_congr htype]

theorem Poses.insertAll {owner new : Fields Json} (hnew : ∀ m ∈ new, m.1 ∉ Role.reserved)
    (h : Poses .pattern (.obj owner) place path t) :
    Poses .pattern (.obj (Fields.insertAll owner new)) place path t := by
  induction new generalizing owner with
  | nil => exact h
  | cons m rest ih =>
      rw [Fields.insertAll_cons]
      exact ih (fun p hp => hnew p (List.mem_cons_of_mem m hp))
        (h.insert (hnew m List.mem_cons_self) m.2)

theorem Poses.of_mem_args {op : String} {left right i : Json}
    (hrole : role = .pattern ∨ role = .event) (hi : i ∈ [left, right])
    (h : Poses role i place path t) : Poses role (binary op left right) place path t := by
  have hargs : Poses role (.arr [left, right]) place path t := h.of_mem hi
  rcases hrole with rfl | rfl
  all_goals exact hargs.of_get? "args" rfl

theorem Poses.rightFold {op : String} (hrole : role = .pattern ∨ role = .event)
    {asts : List Json} {ast i : Json} (hast : rightFold op asts = some ast) (hi : i ∈ asts)
    (h : Poses role i place path t) : Poses role ast place path t := by
  induction asts generalizing ast with
  | nil => cases hi
  | cons first rest ih =>
      rcases rightFold_cons_eq_some.1 hast with ⟨hrest, hfirst⟩ | ⟨tail, htail, hjoin⟩
      · subst hrest hfirst
        exact List.mem_singleton.1 hi ▸ h
      · subst hjoin
        rcases List.mem_cons.1 hi with hi | hi
        · exact (hi ▸ h).of_mem_args hrole List.mem_cons_self
        · exact (ih htail hi).of_mem_args hrole (List.mem_cons_of_mem _ (List.mem_singleton_self _))

end Json

theorem Constraints.not_mem_reserved {k : Constraints} {m : String × Json} (h : m ∈ k.fields) :
    m.1 ∉ Role.reserved := by
  have hall : ∀ name ∈ Role.reserved, isKey name = false := by decide
  intro hreserved
  have hkey := hall m.1 hreserved
  rw [isKey_of_mem_fields h] at hkey
  cases hkey

theorem Json.Poses.apply {k : Constraints} {j : Json} (h : Poses .pattern j place path t) :
    Poses .pattern (k.apply j) place path t := by
  cases j with
  | obj members => exact h.insertAll fun m hm => Constraints.not_mem_reserved hm
  | _ => exact h

/-! ## Conditions and patterns -/

theorem Stream.poses_referenceWith {s : Stream} {filter : EventCondition}
    (h : s.filter = some filter) (offset : Option Offset) :
    Poses .reference (s.referenceWith offset) .filter filter.path filter.test := by
  have hfilter : Poses .filter (.obj filter.fields) .filter filter.path filter.test :=
    ⟨.inr (.inr rfl), _, .here _ _, rfl, rfl, rfl⟩
  refine hfilter.of_get? "filter" ?_
  rw [h]
  rfl

theorem Condition.poses_encode (c : Condition) (hrole : role.HoldsCondition) :
    Poses role c.encode role c.path.eventPath c.test :=
  ⟨hrole, _, .here _ _, rfl, rfl, rfl⟩

theorem Condition.poses_filter {c : Condition} {stream : Stream} {filter : EventCondition}
    (hstream : c.stream? = some stream) (h : stream.filter = some filter) :
    Poses .pattern c.encode .filter filter.path filter.test := by
  refine (stream.poses_referenceWith h c.test.arg.offset?).of_get? "stream" ?_
  rw [Condition.fields, hstream]
  rfl

namespace Node

/-- The tests that a pattern asks for, and the places where they belong. -/
inductive Asks (n : Node) : Role → EventPath → Test → Prop
  | condition {c : Condition} : Occurs (.condition c) n → Asks n .pattern c.path.eventPath c.test
  | conditionFilter {c : Condition} {stream : Stream} {filter : EventCondition} :
      Occurs (.condition c) n → c.stream? = some stream → stream.filter = some filter →
      Asks n .filter filter.path filter.test
  | event {s : Switch} {g : List Condition} {c : Condition} :
      Occurs (.switch s) n → g ∈ s.groups → c ∈ g → Asks n .event c.path.eventPath c.test
  | switchFilter {s : Switch} {stream : Stream} {filter : EventCondition} :
      Occurs (.switch s) n → s.stream = some stream → stream.filter = some filter →
      Asks n .filter filter.path filter.test

theorem poses_typed {type : String} {members : List Json} {i : Json} (htype : type ≠ "switch")
    (hi : i ∈ members) (h : Poses .pattern i place path t) :
    Poses .pattern (typed type members) place path t := by
  refine Poses.of_get? "conds" rfl ?_
  rw [Role.ofMember_conds htype]
  exact h.of_mem hi

theorem poses_withDefaultGap {j : Json} (h : Poses .pattern j place path t) :
    Poses .pattern (withDefaultGap j) place path t := by
  cases j with
  | obj members =>
      rw [withDefaultGap]
      split
      · exact h
      · exact h.insert (by decide) _
  | _ => exact h

/-- A part is written, and the tests in it are kept by the whole. -/
theorem poses_of_mem_parts {n c : Node} {j : Json} (h : n.encode = .ok j) (hc : c ∈ n.parts) :
    ∃ i, c.encode = .ok i ∧ ∀ place path t, Poses .pattern i place path t →
      Poses .pattern j place path t := by
  cases n with
  | condition _ => cases hc
  | switch _ => cases hc
  | and children k =>
      obtain ⟨asts, ast, hasts, hast, rfl⟩ := encode_and_eq_ok.1 h
      obtain ⟨i, hi, hci⟩ := exists_encode_of_mem hasts hc
      exact ⟨i, hci, fun _ _ _ hposes => (hposes.rightFold (.inl rfl) hast hi).apply⟩
  | or children =>
      obtain ⟨asts, hasts, hast⟩ := encode_or_eq_ok.1 h
      obtain ⟨i, hi, hci⟩ := exists_encode_of_mem hasts hc
      exact ⟨i, hci, fun _ _ _ hposes => hposes.rightFold (.inl rfl) hast hi⟩
  | group mode children =>
      obtain ⟨-, asts, hasts, rfl⟩ := encode_group_eq_ok.1 h
      obtain ⟨i, hi, hci⟩ := exists_encode_of_mem hasts hc
      have htype : mode.name ≠ "switch" := by cases mode <;> decide
      exact ⟨i, hci, fun _ _ _ hposes => poses_typed htype hi hposes⟩
  | serial steps =>
      rcases encode_serial_eq_ok.1 h with hasts | ⟨first, second, rest, hasts, rfl⟩
      · obtain ⟨i, hi, hci⟩ := exists_encode_of_mem hasts hc
        exact ⟨i, hci, fun _ _ _ hposes => List.mem_singleton.1 hi ▸ hposes⟩
      · obtain ⟨i, hi, hci⟩ := exists_encode_of_mem hasts hc
        refine ⟨i, hci, fun _ _ _ hposes => ?_⟩
        rcases List.mem_cons.1 hi with hi | hi
        · exact poses_typed (by decide) List.mem_cons_self (hi ▸ hposes)
        · exact poses_typed (by decide) (List.mem_cons_of_mem _ (List.mem_map_of_mem hi))
            (poses_withDefaultGap hposes)

theorem poses_of_occurs {m n : Node} {j : Json} (hm : Occurs m n) (h : n.encode = .ok j) :
    ∃ i, m.encode = .ok i ∧ ∀ place path t, Poses .pattern i place path t →
      Poses .pattern j place path t := by
  induction hm generalizing j with
  | here => exact ⟨j, h, fun _ _ _ hposes => hposes⟩
  | deeper hc _ ih =>
      obtain ⟨i, hci, hwhole⟩ := poses_of_mem_parts h hc
      obtain ⟨k, hmk, hpart⟩ := ih hci
      exact ⟨k, hmk, fun _ _ _ hposes => hwhole _ _ _ (hpart _ _ _ hposes)⟩

/-- The document of a pattern poses all tests that the pattern asks for. -/
theorem poses_of_asks {n : Node} {j : Json} (h : n.encode = .ok j) (hasks : n.Asks place path t) :
    Poses .pattern j place path t := by
  cases hasks with
  | @condition c hc =>
      obtain ⟨i, hi, hwhole⟩ := poses_of_occurs hc h
      cases hi
      exact hwhole _ _ _ (c.poses_encode (.inl rfl))
  | conditionFilter hc hstream hfilter =>
      obtain ⟨i, hi, hwhole⟩ := poses_of_occurs hc h
      cases hi
      exact hwhole _ _ _ (Condition.poses_filter hstream hfilter)
  | @event s g c hs hg hc =>
      obtain ⟨i, hi, hwhole⟩ := poses_of_occurs hs h
      obtain ⟨stream, -, rfl⟩ := encode_switch_eq_ok.1 hi
      have hmem : c.encode ∈ g.map Condition.encode := List.mem_map_of_mem hc
      obtain ⟨e, he⟩ := rightFold_isSome "&&" (List.ne_nil_of_mem hmem)
      have hevent : Poses .event e .event c.path.eventPath c.test :=
        (c.poses_encode (.inr (.inl rfl))).rightFold (.inr rfl) he hmem
      have he' : e ∈ s.groups.filterMap Switch.encodeGroup := List.mem_filterMap.2 ⟨g, hg, he⟩
      exact hwhole _ _ _ ((hevent.of_mem he').of_get? "conds" rfl)
  | @switchFilter s stream filter hs hstream hfilter =>
      obtain ⟨i, hi, hwhole⟩ := poses_of_occurs hs h
      obtain ⟨bound, hbound, rfl⟩ := encode_switch_eq_ok.1 hi
      rw [hstream] at hbound
      cases hbound
      have hreference := stream.poses_referenceWith hfilter none
      exact hwhole _ _ _ (hreference.of_get? "stream" rfl)

end Node

/-! ## Queries -/

namespace Select

/-- The window goes by a name that no pattern depends on. -/
theorem name_not_mem_reserved (key : WindowKey) : key.name ∉ Role.reserved := by
  cases key <;> decide

theorem poses_of_asks {s : Select} {n : Node} {j : Json} (hroot : s.root = some n)
    (h : s.encode = .ok j) (hasks : n.Asks place path t) : Poses .pattern j place path t := by
  obtain ⟨members, hpattern, hj⟩ := encode_eq_ok h
  rw [pattern, hroot] at hpattern
  have hposes : Poses .pattern (.obj members) place path t := Node.poses_of_asks hpattern hasks
  rcases hj with hj | ⟨key, value, -, hj⟩
  · exact hj ▸ hposes
  · exact hj ▸ hposes.insert (name_not_mem_reserved key) value

end Select

theorem Projection.poses_filter {p : Projection} {entry : StreamOutput}
    {filter : EventCondition} {j : Json} (h : p.encode = .ok j) (hentry : entry ∈ p.outputs)
    (hfilter : entry.stream.filter = some filter) :
    Poses .projections j .filter filter.path filter.test := by
  obtain ⟨outputs, houtputs, rfl⟩ := Projection.encode_eq_ok.1 h
  obtain ⟨output, houtput, hencode⟩ := exists_of_mapM_eq_ok houtputs hentry
  obtain ⟨fields, -, rfl⟩ := Projection.encodeOutput_eq_ok.1 hencode
  have hreference := entry.stream.poses_referenceWith hfilter none
  have hposes : Poses .output (.arr outputs) .filter filter.path filter.test :=
    Poses.of_mem houtput (hreference.of_get? "stream" rfl)
  refine Poses.of_get? "explicit" ?_ hposes
  have hne : outputs.isEmpty = false := List.isEmpty_eq_false_iff.2 (List.ne_nil_of_mem houtput)
  simp [Fields.get?_append, hne]

namespace Query

/-- The tests that a query asks for, those of filters of streams included. -/
inductive Asks (q : Query) : Role → EventPath → Test → Prop
  | root {n : Node} {place : Role} {path : EventPath} {t : Test} :
      q.select.root = some n → n.Asks place path t → Asks q place path t
  | outputFilter {p : Projection} {entry : StreamOutput} {filter : EventCondition} :
      q.projection = some p → entry ∈ p.outputs → entry.stream.filter = some filter →
      Asks q .filter filter.path filter.test

/-- The document of a query poses all tests that the query asks for. -/
theorem poses_of_asks {q : Query} {document : Json} (h : q.encode = .ok document)
    (hasks : q.Asks place path t) : Poses .document document place path t := by
  obtain ⟨select, hselect, hdocument⟩ := encode_eq_ok h
  cases hasks with
  | root hroot hasks =>
      have hposes : Poses .pattern select place path t := Select.poses_of_asks hroot hselect hasks
      rcases hdocument with ⟨-, rfl⟩ | ⟨p, projections, -, -, rfl⟩
      · exact hposes.of_get? "select" rfl
      · exact hposes.of_get? "select" rfl
  | outputFilter hp hentry hfilter =>
      rcases hdocument with ⟨hnone, -⟩ | ⟨p, projections, hsome, hprojections, rfl⟩
      · rw [hnone] at hp
        cases hp
      · rw [hsome] at hp
        cases hp
        exact (Projection.poses_filter hprojections hentry hfilter).of_get? "projections" rfl

end Query

end EventSearch
