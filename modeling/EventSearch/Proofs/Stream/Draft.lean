import EventSearch.Condition.Basic
import EventSearch.Proofs.Json.Listing
import EventSearch.Proofs.Outcome

/-!
# Streams made by calls

A stream is made by one call after the other. Calls that set metadata can change places with any
others, and with each other when they set different keys, and the values that they set can be
listed in another order: the stream is the same, and so is the error when a call fails.
-/
namespace EventSearch

/-- A condition as it is given, on the current event or on a stream that is referred to. -/
structure Condition.Draft (σ : Type) where
  stream : Option σ := none
  path : EventPath
  op : Operator
  arg : Argument

def Condition.Draft.build {σ : Type} (streams : σ → Except QueryError Stream) (d : Draft σ) :
    Except QueryError Condition :=
  match d.stream with
  | none => make (.event d.path) d.op d.arg
  | some reference => do make (.stream ⟨← streams reference, d.path⟩) d.op d.arg

namespace Stream

/-- A call on a stream. Metadata is given as it is listed. -/
inductive Call (σ : Type) where
  | metadata (key : String) (value : Json)
  | filter (c : Condition.Draft σ)
  | offset (o : Offset)

/-- A stream by its name and the calls that make it. -/
structure Draft (σ : Type) where
  name : String
  calls : List (Call σ)

variable {σ : Type} (streams : σ → Except QueryError Stream)

namespace Call

def apply (s : Stream) : Call σ → Except QueryError Stream
  | .metadata key value => .ok (s.withMetadata key value.sorted)
  | .filter c => do s.withFilter (← c.build streams)
  | .offset o => .ok (s.withOffset o)

/-- The metadata that a call sets. -/
def entry? : Call σ → Option (String × Json)
  | .metadata key value => some (key, value)
  | _ => none

def isMetadata (c : Call σ) : Bool := c.entry?.isSome

end Call

namespace Draft

def build (d : Draft σ) : Except QueryError Stream :=
  d.calls.foldlM (Call.apply streams) (.named d.name)

/-- The metadata in the order in which it is set. -/
def entries (d : Draft σ) : List (String × Json) := d.calls.filterMap Call.entry?

def others (d : Draft σ) : List (Call σ) := d.calls.filter fun c => !c.isMetadata

/-- Drafts with the same calls, but for the order of different metadata among themselves and
among the other calls and the order in which it is listed. -/
structure Reordered (a b : Draft σ) : Prop where
  name : a.name = b.name
  metadata : Json.Reordered (.obj a.entries) (.obj b.entries)
  others : a.others = b.others

end Draft

/-! ## Calls in another order -/

theorem apply_exchange (s : Stream) (c d : Call σ) (hc : c.isMetadata = true)
    (hd : d.isMetadata = false) :
    (d.apply streams s >>= (c.apply streams ·)) = (c.apply streams s >>= (d.apply streams ·)) := by
  cases c with
  | filter _ => cases hc
  | offset _ => cases hc
  | metadata key value =>
      cases d with
      | metadata _ _ => cases hd
      | offset o => rfl
      | filter c =>
          simp only [Call.apply]
          cases c.build streams with
          | error e => rfl
          | ok condition =>
              obtain ⟨path | path, test, grounded⟩ := condition <;> rfl

/-- Calls that set metadata cannot fail. -/
theorem foldlM_metadata (calls : List (Call σ)) (s : Stream) :
    (calls.filter Call.isMetadata).foldlM (Call.apply streams) s = .ok { s with
      metadata :=
        Fields.insertAll s.metadata (Json.sortedMembers (calls.filterMap Call.entry?)) } := by
  induction calls generalizing s with
  | nil => rfl
  | cons c rest ih =>
      cases c with
      | metadata key value => exact ih (s.withMetadata key value.sorted)
      | filter _ => exact ih s
      | offset _ => exact ih s

namespace Draft

theorem build_eq_foldlM_others (d : Draft σ) :
    d.build streams = d.others.foldlM (Call.apply streams)
      { name := d.name, metadata := Fields.ofList (Json.sortedMembers d.entries) } := by
  rw [build, foldlM_eq_filter_bind (apply_exchange streams), foldlM_metadata]
  rfl

variable {streams} {a b : Draft σ}

/-- What is made does not depend on the order of metadata. -/
theorem Reordered.build_eq (h : a.Reordered b) : a.build streams = b.build streams := by
  rw [build_eq_foldlM_others, build_eq_foldlM_others, h.name, h.others,
    h.metadata.ofList_sortedMembers]

end Draft

/-- Streams that are made one after the other, of which each may refer to those before. -/
abbrev Drafts := (n : Nat) → Draft (Fin n)

namespace Drafts

/-- The streams before the one with the given number. -/
def before (drafts : Drafts) : (n : Nat) → Fin n → Except QueryError Stream
  | 0, k => k.elim0
  | n + 1, k => if h : k < n then drafts.before n ⟨k, h⟩ else (drafts n).build (drafts.before n)

def stream (drafts : Drafts) (n : Nat) : Except QueryError Stream :=
  (drafts n).build (drafts.before n)

theorem before_succ (drafts : Drafts) (n : Nat) (k : Fin (n + 1)) :
    drafts.before (n + 1) k =
      if h : k < n then drafts.before n ⟨k, h⟩ else (drafts n).build (drafts.before n) := rfl

variable {a b : Drafts}

theorem before_eq_of_reordered (h : ∀ n, (a n).Reordered (b n)) (n : Nat) :
    a.before n = b.before n := by
  induction n with
  | zero => exact funext fun k => k.elim0
  | succ n ih =>
      funext k
      rw [before_succ, before_succ, ih, (h n).build_eq]

theorem stream_eq_of_reordered (h : ∀ n, (a n).Reordered (b n)) : a.stream = b.stream := by
  funext n
  rw [stream, stream, before_eq_of_reordered h, (h n).build_eq]

end Drafts

end Stream

end EventSearch
