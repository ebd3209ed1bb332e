import EventSearch.Proofs.Node.Reachable
import EventSearch.Proofs.Stream.Draft

/-!
# Patterns made by calls

The calls that make a pattern, as a tree. They refer to streams that are made elsewhere. What
such a tree makes can be built, and whatever can be built is made by one.
-/
namespace EventSearch

/-- A test passes the checks again that it was made with. -/
theorem Test.make_eq_self (path : String) (t : Test) : make path t.op t.arg = .ok t := by
  have hfinite : t.arg.values.findSome? Value.finiteFault? = none :=
    List.findSome?_eq_none_iff.2 fun v hv =>
      (Value.finiteFault?_eq_none_iff v).2 (t.admissible.finite v hv)
  have hregion : regionFault? path t.op t.arg.values = none := by
    unfold regionFault?
    split
    · rfl
    · next hop =>
        rw [Option.map_eq_none_iff, List.find?_eq_none]
        exact fun v hv hr => hop (t.admissible.region v hv hr)
  unfold make
  rw [dif_pos t.admissible.shape]
  split
  · next e he => simp [hfinite] at he
  · split
    · next e he => simp [hregion] at he
    · rfl

theorem Condition.make_eq_self (c : Condition) : make c.path c.test.op c.test.arg = .ok c := by
  rw [make, dif_pos c.grounded, Test.make_eq_self]
  rfl

namespace Node

/-- A pattern by the calls that make it. -/
inductive Draft (σ : Type) where
  | condition (c : Condition.Draft σ)
  | conjunction (members : List (Draft σ))
  | wrap (n : Draft σ)
  | constrain (n : Draft σ) (extra : Constraints)
  | disjunction (members : List (Draft σ))
  | group (mode : GroupMode) (members : List (Draft σ))
  | sequence (members : List (Draft σ))
  | thenWithGap (first : Draft σ) (gap : Constraints) (next : Draft σ)
  | switch (groups : List (List (Condition.Draft σ)))
  | bind (n : Draft σ) (stream : σ)

/-- Further constraints on a conjunction. Anything else is put into one. -/
def withConstraints (n : Node) (extra : Constraints) : Except QueryError Node :=
  match n with
  | .and children own => constrain children own extra
  | other => other.constrained extra

/-- Binds a switch. Anything else is left alone. -/
def bindTo (n : Node) (stream : Stream) : Except QueryError Node :=
  match n with
  | .switch s => do .ok (.switch (← s.bind stream))
  | other => .ok other

namespace Draft

variable {σ : Type} (streams : σ → Except QueryError Stream)

mutual

def build : Draft σ → Except QueryError Node
  | .condition c => do .ok (.condition (← c.build streams))
  | .conjunction members => do .ok (Node.conjunction (← buildAll members))
  | .wrap n => do .ok (← build n).wrap
  | .constrain n extra => do (← build n).withConstraints extra
  | .disjunction members => do .ok (Node.disjunction (← buildAll members))
  | .group mode members => do .ok (.group mode (← buildAll members))
  | .sequence members => do .ok (Node.sequence (← buildAll members))
  | .thenWithGap first gap next => do
      let first ← build first
      let next ← build next
      first.thenWithGap gap next
  | .switch groups => do
      .ok (.switch (← Switch.make (← groups.mapM (·.mapM (·.build streams)))))
  | .bind n stream => do
      let n ← build n
      n.bindTo (← streams stream)

def buildAll : List (Draft σ) → Except QueryError (List Node)
  | [] => .ok []
  | d :: rest => do
      let n ← build d
      .ok (n :: (← buildAll rest))

end

end Draft

namespace Reachable

variable {n m : Node}

theorem withConstraints {extra : Constraints} (h : Reachable n)
    (hm : n.withConstraints extra = .ok m) : Reachable m := by
  unfold Node.withConstraints at hm
  split at hm
  · exact h.constrain hm
  · exact h.constrained hm

theorem bindTo {stream : Stream} (h : Reachable n) (hm : n.bindTo stream = .ok m) :
    Reachable m := by
  unfold Node.bindTo at hm
  split at hm
  · obtain ⟨bound, hbound, hm⟩ := bind_eq_ok.1 hm
    cases hm
    exact h.bind hbound
  · cases hm
    exact h

end Reachable

namespace Draft

variable {σ : Type} {streams : σ → Except QueryError Stream}

mutual

theorem reachable_of_build : ∀ {d : Draft σ} {n : Node}, d.build streams = .ok n → Reachable n
  | .condition c, n, h => by
      obtain ⟨c, -, h⟩ := bind_eq_ok.1 h
      cases h
      exact .condition c
  | .conjunction members, n, h => by
      obtain ⟨ns, hns, h⟩ := bind_eq_ok.1 h
      cases h
      exact .conjunction ns (reachable_of_buildAll hns)
  | .wrap d, n, h => by
      obtain ⟨m, hm, h⟩ := bind_eq_ok.1 h
      cases h
      exact (reachable_of_build hm).wrap
  | .constrain d extra, n, h => by
      obtain ⟨m, hm, h⟩ := bind_eq_ok.1 h
      exact (reachable_of_build hm).withConstraints h
  | .disjunction members, n, h => by
      obtain ⟨ns, hns, h⟩ := bind_eq_ok.1 h
      cases h
      exact .disjunction ns (reachable_of_buildAll hns)
  | .group mode members, n, h => by
      obtain ⟨ns, hns, h⟩ := bind_eq_ok.1 h
      cases h
      exact .group mode ns (reachable_of_buildAll hns)
  | .sequence members, n, h => by
      obtain ⟨ns, hns, h⟩ := bind_eq_ok.1 h
      cases h
      exact .sequence ns (reachable_of_buildAll hns)
  | .thenWithGap first gap next, n, h => by
      obtain ⟨m, hm, h⟩ := bind_eq_ok.1 h
      obtain ⟨m', hm', h⟩ := bind_eq_ok.1 h
      exact (reachable_of_build hm).thenWithGap (reachable_of_build hm') h
  | .switch groups, n, h => by
      obtain ⟨groups, -, h⟩ := bind_eq_ok.1 h
      obtain ⟨s, hs, h⟩ := bind_eq_ok.1 h
      cases h
      exact .switch hs
  | .bind d stream, n, h => by
      obtain ⟨m, hm, h⟩ := bind_eq_ok.1 h
      obtain ⟨s, -, h⟩ := bind_eq_ok.1 h
      exact (reachable_of_build hm).bindTo h

theorem reachable_of_buildAll : ∀ {ds : List (Draft σ)} {ns : List Node},
    buildAll streams ds = .ok ns → ∀ n ∈ ns, Reachable n
  | [], ns, h => by
      cases h
      exact List.forall_mem_nil _
  | d :: rest, ns, h => by
      obtain ⟨n, hn, h⟩ := bind_eq_ok.1 h
      obtain ⟨others, hothers, h⟩ := bind_eq_ok.1 h
      cases h
      exact List.forall_mem_cons.2 ⟨reachable_of_build hn, reachable_of_buildAll hothers⟩

end

/-- A draft of a condition. -/
def ofCondition (c : Condition) : Condition.Draft Stream where
  stream := c.stream?
  path := c.path.eventPath
  op := c.test.op
  arg := c.test.arg

theorem build_ofCondition (c : Condition) : (ofCondition c).build .ok = .ok c := by
  obtain ⟨path | path, test, grounded⟩ := c
  · exact Condition.make_eq_self ⟨.event path, test, grounded⟩
  · exact Condition.make_eq_self ⟨.stream path, test, grounded⟩

theorem exists_buildAll {ns : List Node}
    (h : ∀ n ∈ ns, ∃ d : Draft Stream, d.build .ok = .ok n) :
    ∃ ds : List (Draft Stream), buildAll .ok ds = .ok ns := by
  induction ns with
  | nil => exact ⟨[], rfl⟩
  | cons n rest ih =>
      obtain ⟨⟨d, hd⟩, hrest⟩ := List.forall_mem_cons.1 h
      obtain ⟨ds, hds⟩ := ih hrest
      exact ⟨d :: ds, bind_eq_ok.2 ⟨n, hd, bind_eq_ok.2 ⟨rest, hds, rfl⟩⟩⟩

end Draft

/-- The patterns that can be built are those that drafts make. -/
theorem reachable_iff_draft {n : Node} :
    Reachable n ↔ ∃ d : Draft Stream, d.build .ok = .ok n := by
  refine ⟨fun h => ?_, fun ⟨_, hd⟩ => Draft.reachable_of_build hd⟩
  induction h with
  | condition c =>
      exact ⟨.condition (Draft.ofCondition c),
        bind_eq_ok.2 ⟨c, Draft.build_ofCondition c, rfl⟩⟩
  | conjunction members _ ih =>
      obtain ⟨ds, hds⟩ := Draft.exists_buildAll ih
      exact ⟨.conjunction ds, bind_eq_ok.2 ⟨members, hds, rfl⟩⟩
  | wrap _ ih =>
      obtain ⟨d, hd⟩ := ih
      exact ⟨.wrap d, bind_eq_ok.2 ⟨_, hd, rfl⟩⟩
  | @constrain children own extra m _ hm ih =>
      obtain ⟨d, hd⟩ := ih
      exact ⟨.constrain d extra, bind_eq_ok.2 ⟨_, hd, hm⟩⟩
  | disjunction members _ ih =>
      obtain ⟨ds, hds⟩ := Draft.exists_buildAll ih
      exact ⟨.disjunction ds, bind_eq_ok.2 ⟨members, hds, rfl⟩⟩
  | group mode members _ ih =>
      obtain ⟨ds, hds⟩ := Draft.exists_buildAll ih
      exact ⟨.group mode ds, bind_eq_ok.2 ⟨members, hds, rfl⟩⟩
  | sequence members _ ih =>
      obtain ⟨ds, hds⟩ := Draft.exists_buildAll ih
      exact ⟨.sequence ds, bind_eq_ok.2 ⟨members, hds, rfl⟩⟩
  | @thenWithGap first next m gap _ _ hm ihfirst ihnext =>
      obtain ⟨d, hd⟩ := ihfirst
      obtain ⟨d', hd'⟩ := ihnext
      exact ⟨.thenWithGap d gap d', bind_eq_ok.2 ⟨_, hd, bind_eq_ok.2 ⟨_, hd', hm⟩⟩⟩
  | @switch groups s hs =>
      refine ⟨.switch (groups.map (·.map Draft.ofCondition)), bind_eq_ok.2 ⟨groups, ?_, ?_⟩⟩
      · exact mapM_map_eq_ok (mapM_map_eq_ok Draft.build_ofCondition) groups
      · exact bind_eq_ok.2 ⟨s, hs, rfl⟩
  | @bind s bound stream _ hbound ih =>
      obtain ⟨d, hd⟩ := ih
      exact ⟨.bind d stream,
        bind_eq_ok.2 ⟨_, hd, bind_eq_ok.2 ⟨stream, rfl, bind_eq_ok.2 ⟨bound, hbound, rfl⟩⟩⟩⟩

end Node

end EventSearch
