import EventSearch.Proofs.Query.Encoding
import EventSearch.Proofs.Stream.Equality

/-!
# Outputs of projections

A projection is made by calls that set the fields of a stream or the default for other streams.
However many calls there are, it has one entry for each stream that they mention. The entries
are in the order in which the streams are mentioned first, each with the fields that its stream
is given last, and they are written in this order.
-/
namespace EventSearch

/-- The fields hold what is given last for each name, and nothing else. -/
structure Fields.KeepsLast {α : Type} (fields : Fields α) (given : List (String × α)) : Prop where
  increasing : fields.Increasing
  get? : ∀ name, fields.get? name = Fields.get? name given.reverse

theorem Fields.keepsLast_ofList {α : Type} (given : List (String × α)) :
    (ofList given).KeepsLast given where
  increasing := increasing_nil.insertAll given
  get? name := by rw [ofList, get?_insertAll, Fields.get?, Option.or_none]

namespace Projection

/-- A call on a projection. -/
inductive Call where
  | includeDefault (returned : Bool)
  | stream (s : Stream) (fields : List (String × Expr))

namespace Call

def apply (p : Projection) : Call → Projection
  | .includeDefault returned => p.withDefault returned
  | .stream s fields => p.withStream s fields

/-- The default that a call sets. -/
def default? : Call → Option Bool
  | .includeDefault returned => some returned
  | .stream _ _ => none

/-- The fields that a call gives to a stream. -/
def fieldsFor? (s : Stream) : Call → Option (List (String × Expr))
  | .includeDefault _ => none
  | .stream t fields => if t.same s then some fields else none

def mentions (s : Stream) (c : Call) : Bool := (c.fieldsFor? s).isSome

theorem mentions_stream (s t : Stream) (fields : List (String × Expr)) :
    (stream t fields).mentions s = t.same s := by
  cases h : t.same s <;> simp [mentions, fieldsFor?, h]

end Call

/-- The projection that calls make, one after the other. -/
def ofCalls (calls : List Call) : Projection := calls.foldl Call.apply .empty

def streams (p : Projection) : List Stream := p.outputs.map StreamOutput.stream

/-- Where a stream, or one that is the same, is mentioned first. -/
def firstMention (calls : List Call) (s : Stream) : Nat := calls.findIdx (Call.mentions s)

/-- The streams that are mentioned, one for each, in the order in which they are mentioned first. -/
structure FirstMentions (streams : List Stream) (calls : List Call) : Prop where
  distinct : streams.Pairwise fun s t => s.same t = false
  ordered : streams.Pairwise fun s t => firstMention calls s < firstMention calls t
  mentioned : ∀ s ∈ streams, ∃ fields, calls[firstMention calls s]? = some (.stream s fields)
  complete : ∀ s fields, Call.stream s fields ∈ calls → ∃ t ∈ streams, t.same s = true

/-- The entries are for the streams that are mentioned, each with the fields that its stream is
given last. -/
structure Records (p : Projection) (calls : List Call) : Prop where
  includeDefault : p.includeDefault = (calls.filterMap Call.default?).getLast?
  streams : FirstMentions p.streams calls
  fields : ∀ entry ∈ p.outputs, ∃ given,
    (calls.filterMap (Call.fieldsFor? entry.stream)).getLast? = some given ∧
      entry.fields.KeepsLast given

variable {p : Projection} {calls : List Call} {streams : List Stream} {s : Stream}

/-! ## Entries -/

theorem setFields_of_new {outputs : List StreamOutput} (fields : Fields Expr)
    (h : ∀ entry ∈ outputs, entry.stream.same s = false) :
    setFields s fields outputs = outputs ++ [⟨s, fields⟩] := by
  induction outputs with
  | nil => rfl
  | cons entry rest ih =>
      have hrest := ih fun e he => h e (List.mem_cons_of_mem entry he)
      simp [setFields, h entry List.mem_cons_self, hrest]

/-- Fields that are set for a stream with an entry add no other one. -/
theorem map_stream_setFields {outputs : List StreamOutput} (fields : Fields Expr)
    (h : ∃ entry ∈ outputs, entry.stream.same s = true) :
    (setFields s fields outputs).map StreamOutput.stream = outputs.map StreamOutput.stream := by
  induction outputs with
  | nil => simp at h
  | cons entry rest ih =>
      rw [setFields]
      split
      · rfl
      · next hne =>
          have hrest : ∃ e ∈ rest, e.stream.same s = true := by simpa [hne] using h
          rw [List.map_cons, List.map_cons, ih hrest]

theorem streams_withStream (p : Projection) (s : Stream) (fields : List (String × Expr)) :
    (∃ t ∈ p.streams, t.same s = true) ∧ (p.withStream s fields).streams = p.streams ∨
      (∀ t ∈ p.streams, t.same s = false) ∧
        (p.withStream s fields).streams = p.streams ++ [s] := by
  by_cases h : ∃ entry ∈ p.outputs, entry.stream.same s = true
  · refine .inl ⟨?_, map_stream_setFields _ h⟩
    obtain ⟨entry, hentry, hsame⟩ := h
    exact ⟨entry.stream, List.mem_map_of_mem hentry, hsame⟩
  · have hnew : ∀ entry ∈ p.outputs, entry.stream.same s = false := by simpa using h
    refine .inr ⟨by simpa [streams] using hnew, ?_⟩
    rw [streams, withStream, setFields_of_new _ hnew, List.map_append]
    rfl

/-- Only the entry of the stream takes the fields. -/
theorem mem_setFields {outputs : List StreamOutput} {fields : Fields Expr} {entry : StreamOutput}
    (hdistinct : (outputs.map StreamOutput.stream).Pairwise fun s t => s.same t = false)
    (h : entry ∈ setFields s fields outputs) :
    entry ∈ outputs ∧ entry.stream.same s = false ∨
      entry.stream.same s = true ∧ entry.fields = fields := by
  induction outputs with
  | nil =>
      cases List.mem_singleton.1 h
      exact .inr ⟨Stream.equivalence_same.refl s, rfl⟩
  | cons first rest ih =>
      rw [List.map_cons, List.pairwise_cons, List.forall_mem_map] at hdistinct
      rw [setFields] at h
      split at h
      · next hfirst =>
          rcases List.mem_cons.1 h with rfl | h
          · exact .inr ⟨hfirst, rfl⟩
          · -- An entry for this stream behind the first one would be one for the same as that.
            have hother : first.stream.same entry.stream = false := hdistinct.1 entry h
            rw [Stream.same_comm, Stream.same_congr hfirst] at hother
            exact .inl ⟨List.mem_cons_of_mem first h, hother⟩
      · next hfirst =>
          rcases List.mem_cons.1 h with rfl | h
          · exact .inl ⟨List.mem_cons_self, by simpa using hfirst⟩
          · exact (ih hdistinct.2 h).imp_left fun hr => ⟨List.mem_cons_of_mem first hr.1, hr.2⟩

/-! ## Mentions -/

theorem firstMention_lt_iff :
    firstMention calls s < calls.length ↔ ∃ c ∈ calls, c.mentions s = true :=
  List.findIdx_lt_length

theorem firstMention_append (h : ∃ c ∈ calls, c.mentions s = true) (more : List Call) :
    firstMention (calls ++ more) s = firstMention calls s := by
  rw [firstMention, List.findIdx_append]
  exact if_pos (firstMention_lt_iff.2 h)

/-- A stream that has not been mentioned before is mentioned first by the call for it. -/
theorem firstMention_of_new (h : ¬ ∃ c ∈ calls, c.mentions s = true)
    (fields : List (String × Expr)) :
    firstMention (calls ++ [.stream s fields]) s = calls.length := by
  have hself : (Call.stream s fields).mentions s = true := by
    rw [Call.mentions_stream]
    exact Stream.equivalence_same.refl s
  have hnone : ¬ calls.findIdx (Call.mentions s) < calls.length :=
    fun hlt => h (firstMention_lt_iff.1 hlt)
  rw [firstMention, List.findIdx_append, if_neg hnone, List.findIdx_cons, hself]
  exact Nat.zero_add _

namespace FirstMentions

theorem nil : FirstMentions [] [] where
  distinct := List.Pairwise.nil
  ordered := List.Pairwise.nil
  mentioned := List.forall_mem_nil _
  complete _ _ := List.not_mem_nil.elim

theorem exists_mentions (h : FirstMentions streams calls) (hs : s ∈ streams) :
    ∃ c ∈ calls, c.mentions s = true := by
  obtain ⟨fields, hget⟩ := h.mentioned s hs
  refine ⟨_, List.mem_of_getElem? hget, ?_⟩
  rw [Call.mentions_stream]
  exact Stream.equivalence_same.refl s

/-- Without a stream that is the same there has been no mention of it. -/
theorem not_mentions (h : FirstMentions streams calls) (hs : ∀ t ∈ streams, t.same s = false) :
    ¬ ∃ c ∈ calls, c.mentions s = true := by
  rintro ⟨c, hc, hmentions⟩
  cases c with
  | includeDefault returned => cases hmentions
  | stream t fields =>
      rw [Call.mentions_stream] at hmentions
      obtain ⟨u, hu, hut⟩ := h.complete t fields hc
      have hus : u.same s = true := Stream.equivalence_same.trans hut hmentions
      rw [hs u hu] at hus
      cases hus

theorem ordered_append (h : FirstMentions streams calls) (more : List Call) :
    streams.Pairwise fun s t =>
      firstMention (calls ++ more) s < firstMention (calls ++ more) t := by
  refine h.ordered.imp_of_mem fun hs ht hlt => ?_
  rw [firstMention_append (h.exists_mentions hs), firstMention_append (h.exists_mentions ht)]
  exact hlt

theorem mentioned_append (h : FirstMentions streams calls) (more : List Call) :
    ∀ s ∈ streams, ∃ fields,
      (calls ++ more)[firstMention (calls ++ more) s]? = some (.stream s fields) := by
  intro s hs
  have hmentions := h.exists_mentions hs
  obtain ⟨fields, hget⟩ := h.mentioned s hs
  rw [firstMention_append hmentions,
    List.getElem?_append_left (firstMention_lt_iff.2 hmentions)]
  exact ⟨fields, hget⟩

/-- Calls that mention no other stream change nothing. -/
theorem append_known (h : FirstMentions streams calls) {more : List Call}
    (hmore : ∀ s fields, Call.stream s fields ∈ more → ∃ t ∈ streams, t.same s = true) :
    FirstMentions streams (calls ++ more) where
  distinct := h.distinct
  ordered := h.ordered_append more
  mentioned := h.mentioned_append more
  complete s fields hc := (List.mem_append.1 hc).elim (h.complete s fields) (hmore s fields)

/-- A stream that is mentioned for the first time comes last. -/
theorem append_new (h : FirstMentions streams calls) (hnew : ∀ t ∈ streams, t.same s = false)
    (fields : List (String × Expr)) :
    FirstMentions (streams ++ [s]) (calls ++ [.stream s fields]) := by
  have hfirst := firstMention_of_new (h.not_mentions hnew) fields
  refine ⟨?_, ?_, ?_, ?_⟩
  · exact List.pairwise_append.2 ⟨h.distinct, List.pairwise_singleton _ s, by simpa using hnew⟩
  · refine List.pairwise_append.2 ⟨h.ordered_append _, List.pairwise_singleton _ s, ?_⟩
    intro t ht u hu
    cases List.mem_singleton.1 hu
    rw [hfirst, firstMention_append (h.exists_mentions ht)]
    exact firstMention_lt_iff.2 (h.exists_mentions ht)
  · refine List.forall_mem_append.2 ⟨h.mentioned_append _, List.forall_mem_singleton.2 ?_⟩
    refine ⟨fields, ?_⟩
    rw [hfirst, List.getElem?_concat_length]
  · intro t given hc
    rcases List.mem_append.1 hc with hc | hc
    · obtain ⟨u, hu, hut⟩ := h.complete t given hc
      exact ⟨u, List.mem_append_left _ hu, hut⟩
    · cases List.mem_singleton.1 hc
      exact ⟨s, by simp, Stream.equivalence_same.refl s⟩

end FirstMentions

namespace Records

theorem empty : Records .empty [] where
  includeDefault := rfl
  streams := .nil
  fields := List.forall_mem_nil _

theorem withDefault (h : Records p calls) (returned : Bool) :
    Records (p.withDefault returned) (calls ++ [.includeDefault returned]) where
  includeDefault := by simp [Projection.withDefault, Call.default?]
  streams := h.streams.append_known (by simp)
  fields entry hentry := by simpa [Call.fieldsFor?] using h.fields entry hentry

theorem withStream (h : Records p calls) (s : Stream) (fields : List (String × Expr)) :
    Records (p.withStream s fields) (calls ++ [.stream s fields]) where
  includeDefault := by simpa [Projection.withStream, Call.default?] using h.includeDefault
  streams := by
    rcases streams_withStream p s fields with ⟨hold, hstreams⟩ | ⟨hnew, hstreams⟩
    · rw [hstreams]
      refine h.streams.append_known fun t given ht => ?_
      cases List.mem_singleton.1 ht
      exact hold
    · rw [hstreams]
      exact h.streams.append_new hnew fields
  fields entry hentry := by
    rcases mem_setFields h.streams.distinct hentry with ⟨hold, hother⟩ | ⟨hsame, hset⟩
    · rw [Stream.same_comm] at hother
      simpa [Call.fieldsFor?, hother] using h.fields entry hold
    · rw [Stream.same_comm] at hsame
      refine ⟨fields, by simp [Call.fieldsFor?, hsame], ?_⟩
      rw [hset]
      exact Fields.keepsLast_ofList fields

/-- One more call keeps the entries as they are recorded. -/
theorem apply (h : Records p calls) (c : Call) : Records (c.apply p) (calls ++ [c]) := by
  cases c with
  | includeDefault returned => exact h.withDefault returned
  | stream s fields => exact h.withStream s fields

end Records

theorem records_foldl (h : Records p calls) (more : List Call) :
    Records (more.foldl Call.apply p) (calls ++ more) := by
  induction more generalizing p calls with
  | nil => simpa using h
  | cons c rest ih => simpa using ih (h.apply c)

/-! ## Documents -/

/-- The document of an entry. -/
structure StatedOutput (entry : StreamOutput) (item : Json) : Prop where
  stream : item.get? "stream" = some entry.stream.reference
  projection : ∃ fields, (Expr.object entry.fields).encode = .ok fields ∧
    item.get? "projection" = some fields

/-- The document of a projection lists the entries in their order. -/
structure Stated (p : Projection) (j : Json) : Prop where
  includeDefault : j.get? "..." = p.includeDefault.map .bool
  outputs : ∃ items, List.Forall₂ StatedOutput p.outputs items ∧
    j.get? "explicit" = if items.isEmpty then none else some (.arr items)

theorem statedOutput_of_encode {entry : StreamOutput} {item : Json}
    (h : encodeOutput entry = .ok item) : StatedOutput entry item := by
  obtain ⟨members, hmembers, rfl⟩ := encodeOutput_eq_ok.1 h
  exact ⟨rfl, .obj members, Expr.encode_object_eq_ok.2 ⟨members, hmembers, rfl⟩, rfl⟩

theorem exists_encodeOutput_iff (entry : StreamOutput) :
    (∃ item, encodeOutput entry = .ok item) ↔
      ∃ fields, (Expr.object entry.fields).encode = .ok fields := by
  simp only [encodeOutput_eq_ok, Expr.encode_object_eq_ok]
  constructor
  · rintro ⟨_, members, hmembers, -⟩
    exact ⟨_, members, hmembers, rfl⟩
  · rintro ⟨_, members, hmembers, -⟩
    exact ⟨_, members, hmembers, rfl⟩

theorem stated_of_encode {j : Json} (h : p.encode = .ok j) : p.Stated j := by
  obtain ⟨items, hitems, rfl⟩ := encode_eq_ok.1 h
  refine ⟨?_, items, (mapM_eq_ok.1 hitems).imp fun _ _ => statedOutput_of_encode, ?_⟩
  · rw [Json.get?, Fields.get?_append]
    simp
  · rw [Json.get?, Fields.get?_append]
    simp

/-- A projection has one entry for each stream that the calls on it mention. -/
theorem records_ofCalls (calls : List Call) :
    (Equivalence fun s t : Stream => s.same t = true) ∧ (ofCalls calls).Records calls ∧
    ((∃ j, (ofCalls calls).encode = .ok j) ↔
      ∀ entry ∈ (ofCalls calls).outputs, ∃ fields, (Expr.object entry.fields).encode = .ok fields) ∧
    ∀ j, (ofCalls calls).encode = .ok j → (ofCalls calls).Stated j := by
  refine ⟨Stream.equivalence_same, records_foldl .empty calls, ?_, fun j => stated_of_encode⟩
  have hoks : (∃ items, (ofCalls calls).outputs.mapM encodeOutput = .ok items) ↔
      ∀ entry ∈ (ofCalls calls).outputs, ∃ item, encodeOutput entry = .ok item :=
    exists_mapM_eq_ok
  simp only [encode_eq_ok, exists_encodeOutput_iff] at hoks ⊢
  rw [← hoks]
  constructor
  · rintro ⟨j, items, hitems, -⟩
    exact ⟨items, hitems⟩
  · rintro ⟨items, hitems⟩
    exact ⟨_, items, hitems, rfl⟩

end Projection

end EventSearch
