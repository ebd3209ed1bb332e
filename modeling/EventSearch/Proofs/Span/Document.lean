import EventSearch.Proofs.Span.Intersection
import EventSearch.Proofs.Span.Statement
import Mathlib.Data.Option.Basic

/-!
# Documents of durations and lengths

The form of what is written for durations and for lengths. A duration is an object of positive
counts, or of no seconds at all, and can be read back unit by unit. Of two bounds that
are written together, the lower one is not the longer one. An object states one set of
constraints only.
-/
namespace EventSearch

/-- The number of a document, if it is a whole one. -/
def Json.count? : Json → Option UInt64
  | .int n _ => some (UInt64.ofNat n.toNat)
  | _ => none

theorem Json.count?_ofUInt64 (n : UInt64) : (Json.ofUInt64 n).count? = some n := by
  simp [ofUInt64, count?]

/-- The counts of seconds, of other units, or of none. -/
inductive Json.IsDuration : Json → Prop
  | zero : IsDuration (.obj [("seconds", .ofUInt64 0)])
  | counts {members : Fields Json} : members ≠ [] → members.Increasing →
      (∀ m ∈ members, ∃ (unit : TimeUnit) (n : UInt64), 0 < n ∧ m = (unit.name, .ofUInt64 n)) →
      IsDuration (.obj members)

theorem TimeUnit.name_injective {a b : TimeUnit} (h : a.name = b.name) : a = b := by
  cases a <;> cases b <;> first | rfl | exact absurd h (by decide)

namespace Duration

/-- What an object counts of each unit, which is nothing where it does not say. -/
def ofDocument (j : Json) : Duration :=
  ofCounts fun unit => ((j.get? unit.name).bind Json.count?).getD 0

theorem ofCounts_count (d : Duration) : ofCounts d.count = d := rfl

theorem mem_present {d : Duration} {unit : TimeUnit} : unit ∈ d.present ↔ 0 < d.count unit := by
  rw [present, List.mem_filter, decide_eq_true_iff]
  refine and_iff_right ?_
  cases unit <;> decide

theorem count_eq_zero_of_not_mem_present {d : Duration} {unit : TimeUnit}
    (h : unit ∉ d.present) : d.count unit = 0 := by
  rw [mem_present, UInt64.pos_iff_ne_zero] at h
  exact Decidable.not_not.1 h

theorem eq_zero_of_present_eq_nil {d : Duration} (h : d.present = []) : d = zero := by
  have hcount : d.count = zero.count := by
    funext unit
    rw [count_eq_zero_of_not_mem_present (by simp [h])]
    cases unit <;> rfl
  rw [← ofCounts_count d, hcount, ofCounts_count]

theorem get?_map_name (g : TimeUnit → Json) (units : List TimeUnit) (unit : TimeUnit) :
    Fields.get? unit.name (units.map fun u => (u.name, g u)) =
      if unit ∈ units then some (g unit) else none := by
  induction units with
  | nil => rfl
  | cons u rest ih =>
      rw [List.map_cons, Fields.get?]
      by_cases hu : unit = u
      · simp [hu]
      · rw [if_neg fun hname => hu (TimeUnit.name_injective hname), ih]
        simp [hu]

theorem encode_of_present_ne_nil {d : Duration} (hd : d.present ≠ []) :
    d.encode =
      .obj (Fields.ofList (d.present.map fun unit => (unit.name, .ofUInt64 (d.count unit)))) := by
  refine if_neg fun hzero => hd ?_
  rw [eq_of_beq hzero]
  rfl

/-- The count of a unit stands in the document unless it is zero. -/
theorem get?_encode {d : Duration} (hd : d.present ≠ []) (unit : TimeUnit) :
    d.encode.get? unit.name =
      if unit ∈ d.present then some (.ofUInt64 (d.count unit)) else none := by
  rw [encode_of_present_ne_nil hd, Json.get?, Fields.ofList, Fields.get?_insertAll,
    ← List.map_reverse, get?_map_name]
  simp [Fields.get?]

theorem ofDocument_encode (d : Duration) : ofDocument d.encode = d := by
  by_cases hd : d.present = []
  · rw [eq_zero_of_present_eq_nil hd]
    rfl
  · rw [← ofCounts_count d, ofDocument]
    congr 1
    funext unit
    rw [ofCounts_count, get?_encode hd]
    split
    · simp [Json.count?_ofUInt64]
    · next hunit => simp [count_eq_zero_of_not_mem_present hunit]

theorem encode_injective : Function.Injective encode := by
  intro a b h
  rw [← ofDocument_encode a, h, ofDocument_encode]

theorem isDuration_encode (d : Duration) : d.encode.IsDuration := by
  by_cases hd : d.present = []
  · rw [eq_zero_of_present_eq_nil hd]
    exact .zero
  · obtain ⟨unit, hunit⟩ := List.exists_mem_of_ne_nil _ hd
    have hget := get?_encode hd unit
    rw [encode_of_present_ne_nil hd] at hget ⊢
    refine .counts (fun hnil => ?_) (Fields.increasing_nil.insertAll _) fun m hm => ?_
    · simp [hnil, hunit, Json.get?, Fields.get?] at hget
    · rcases Fields.mem_insertAll hm with hm | hm
      · obtain ⟨u, hu, rfl⟩ := List.mem_map.1 hm
        exact ⟨u, d.count u, mem_present.1 hu, rfl⟩
      · cases hm

end Duration

/-- An exact duration, or bounds in order. -/
inductive Json.IsLength : Json → Prop
  | exactly {d : Json} : d.IsDuration → IsLength (.obj [("exactly", d)])
  | atLeast {low : Json} : low.IsDuration → IsLength (.obj [("at_least", low)])
  | atMost {high : Json} : high.IsDuration → IsLength (.obj [("at_most", high)])
  | between {low high : Json} : low.IsDuration → high.IsDuration →
      (Duration.ofDocument low).compareLength (.ofDocument high) ≠ .gt →
      IsLength (.obj [("at_least", low), ("at_most", high)])

theorem Length.isLength_encode {l : Length} (h : l.IsProper) : l.encode.IsLength := by
  match l with
  | .exactly d => exact .exactly d.isDuration_encode
  | .range none none => simp [IsProper] at h
  | .range (some low) none => exact .atLeast low.isDuration_encode
  | .range none (some high) => exact .atMost high.isDuration_encode
  | .range (some low) (some high) =>
      refine .between low.isDuration_encode high.isDuration_encode ?_
      rw [Duration.ofDocument_encode, Duration.ofDocument_encode, Duration.compareLength_ne_gt]
      exact h.2 low rfl high rfl

theorem Length.encode_injective : Function.Injective encode := by
  intro a b h
  cases a with
  | exactly d =>
      cases b with
      | exactly d' =>
          simp only [encode, Json.obj.injEq, List.cons.injEq, Prod.mk.injEq, true_and,
            and_true] at h
          rw [Duration.encode_injective h]
      | range low high => cases low <;> cases high <;> simp [encode, Fields.optional] at h
  | range low high =>
      cases b with
      | exactly d => cases low <;> cases high <;> simp [encode, Fields.optional] at h
      | range low' high' =>
          have hlow : low.map Duration.encode = low'.map Duration.encode := by
            simpa [encode, Json.get?, Fields.get?_append] using congrArg (Json.get? "at_least") h
          have hhigh : high.map Duration.encode = high'.map Duration.encode := by
            simpa [encode, Json.get?, Fields.get?_append] using congrArg (Json.get? "at_most") h
          rw [Option.map_injective Duration.encode_injective hlow,
            Option.map_injective Duration.encode_injective hhigh]

/-- The constraints can be told from the object in which they are stated. -/
theorem Constraints.StatedIn.eq {k k' : Constraints} {members : Fields Json}
    (h : k.StatedIn members) (h' : k'.StatedIn members) : k = k' := by
  have hwithin := Option.map_injective Duration.encode_injective (h.within.symm.trans h'.within)
  have hafter := Option.map_injective Duration.encode_injective (h.after.symm.trans h'.after)
  have hlength := Option.map_injective Length.encode_injective (h.length.symm.trans h'.length)
  cases k
  cases k'
  simp_all

end EventSearch
