import EventSearch.Proofs.Node.Draft
import EventSearch.Proofs.Query.Assembly
import EventSearch.Proofs.Query.Listing

/-!
# Queries made by calls

A query is put together from patterns and projections that refer to streams. Whatever order
metadata, the members of objects and the fields of outputs are given in, and whenever a default
is set, the text is the same, and when there is none the reason is.
-/
namespace EventSearch

/-- A statement as it is given, with a projection that is referred to. -/
inductive Statement.Draft where
  | select (root : Option (Node.Draft Nat)) (after before : Option DateTime)
  | returning (projection : Nat)

/-- A call on a builder as it is given, with a projection that is referred to. -/
inductive QueryBuilder.CallDraft where
  | after (bound : DateTime)
  | before (bound : DateTime)
  | between (low high : DateTime)
  | returning (projection : Nat)

/-- How a query is put together: from statements, or by a builder. -/
inductive Query.Plan where
  | statements (given : List Statement.Draft)
  | builder (root : Option (Node.Draft Nat)) (calls : List QueryBuilder.CallDraft)

section Build

variable (streams : Nat → Except QueryError Stream)
  (projections : Nat → Except QueryError Projection)

def Statement.Draft.build : Statement.Draft → Except QueryError Statement
  | .select root after before => do .ok (.select ⟨← root.mapM (·.build streams), after, before⟩)
  | .returning projection => do .ok (.returning (← projections projection))

def QueryBuilder.CallDraft.build : QueryBuilder.CallDraft → Except QueryError QueryBuilder.Call
  | .after bound => .ok (.after bound)
  | .before bound => .ok (.before bound)
  | .between low high => .ok (.between low high)
  | .returning projection => do .ok (.returning (← projections projection))

def Query.Plan.build : Query.Plan → Except QueryError Query
  | .statements given => do Query.ofStatements (← given.mapM (·.build streams projections))
  | .builder root calls => do
      let root ← root.mapM (·.build streams)
      let calls ← calls.mapM (·.build projections)
      (QueryBuilder.ofCalls root calls).build

end Build

namespace Query

/-- A query by all the calls that make it: those on its streams, those on its projections and
those that put it together. -/
structure Draft where
  streams : Stream.Drafts
  projections : Nat → Projection.Draft
  plan : Plan

namespace Draft

def build (d : Draft) : Except QueryError Query :=
  d.plan.build d.streams.stream fun n => (d.projections n).build d.streams.stream

def text (d : Draft) : Except QueryError String := do (← d.build).text

/-- Drafts with the same calls, but for the order of metadata, of members of objects and of fields
of outputs, and for when a default is set. -/
structure Reordered (a b : Draft) : Prop where
  streams : ∀ n, (a.streams n).Reordered (b.streams n)
  projections : ∀ n, (a.projections n).Reordered (b.projections n)
  plan : a.plan = b.plan

variable {a b : Draft}

/-- Queries that differ in such an order only have the same text, or fail for the same reason, be
it that they cannot be made or that they cannot be written. -/
theorem text_eq_of_reordered (h : a.Reordered b) : a.build = b.build ∧ a.text = b.text := by
  have hstreams : a.streams.stream = b.streams.stream :=
    Stream.Drafts.stream_eq_of_reordered h.streams
  have hprojections : (fun n => (a.projections n).build b.streams.stream) =
      fun n => (b.projections n).build b.streams.stream :=
    funext fun n => (h.projections n).build_eq b.streams.stream
  have hbuild : a.build = b.build := by
    rw [build, build, hstreams, hprojections, h.plan]
  refine ⟨hbuild, ?_⟩
  rw [text, text, hbuild]

/-- The speed of cars in a high gear, where metadata and outputs are given by calls. -/
def ofCars (cars : (n : Nat) → List (Stream.Call (Fin n)))
    (outputs : List Projection.Draft.Call) : Draft where
  streams n := ⟨"cars", cars n⟩
  projections _ := ⟨outputs⟩
  plan := .builder
    (some (.condition
      { stream := some 0, path := ⟨["speed"]⟩, op := .gt, arg := .value (.int 50) }))
    [.returning 0]

/-- Metadata with a filter in between, and outputs of which neither can be written. -/
def speeds : Draft :=
  ofCars
    (fun _ =>
      [.metadata "region" (.obj [("city", .str "Kiel"), ("area", .str "north")]),
        .filter { path := ⟨["gear"]⟩, op := .ge, arg := .value (.int 4) },
        .metadata "fleet" (.str "taxi")])
    [.includeDefault false,
      .stream 0 [("mph", .literal (.double (.infinity false))),
        ("kmh", .literal (.double .notANumber))]]

def speedsReordered : Draft :=
  ofCars
    (fun _ =>
      [.metadata "fleet" (.str "taxi"),
        .metadata "region" (.obj [("area", .str "north"), ("city", .str "Kiel")]),
        .filter { path := ⟨["gear"]⟩, op := .ge, arg := .value (.int 4) }])
    [.stream 0 [("kmh", .literal (.double .notANumber)),
        ("mph", .literal (.double (.infinity false)))],
      .includeDefault false]

/-- In either order the output whose name comes first is at fault. -/
theorem text_speeds : speeds.text = speedsReordered.text ∧
    speeds.text = .error (.nonFiniteDouble .notANumber) := by
  have hreordered : speeds.Reordered speedsReordered := by
    refine ⟨fun n => ⟨rfl, ?_, rfl⟩, fun _ => ⟨rfl, ?_⟩, rfl⟩
    · exact .trans
        (.member [] [("fleet", .str "taxi")] "region" (.members [] [] (.swap _ _ []) (by decide)))
        (.members [] [] (.swap _ _ []) (by decide))
    · exact .cons (.stream 0 (.fields [] [] (.swap _ _ []) (by decide))) .nil
  exact ⟨(text_eq_of_reordered hreordered).2, rfl⟩

end Draft

end Query

end EventSearch
