import EventSearch.Proofs.Span.Intersection
import Mathlib.Data.List.Perm.Basic
import Mathlib.Data.Option.Basic
import Mathlib.Logic.OpClass

/-!
# Constraints up to spelling

Equally long durations can be written in different units, and a merge keeps the left one of two
that are equally long, so the order of merges can be seen in the result. It cannot be seen
in the bounds in seconds that the result sets: those of a merge are the tighter ones of both
sides, and a merge fails when they are in the wrong order. Taking the tighter bounds is
associative and commutative, and a conflict stays one whatever comes after it. So any two orders
of the same merges both fail, or lead to constraints of the same kind with equally long durations.
-/
namespace EventSearch

namespace Duration

def size (d : Duration) : Nat := d.length.toNat

def EquallyLong (a b : Duration) : Prop := a.compareLength b = .eq

theorem equallyLong_of_size_eq {a b : Duration} (h : a.size = b.size) : a.EquallyLong b := by
  have hlength : a.length = b.length := UInt64.toNat_inj.1 h
  rw [EquallyLong, compareLength, hlength]
  exact Std.ReflCmp.compare_self

theorem rel_of_map_size_eq {a b : Option Duration} (h : a.map size = b.map size) :
    Option.Rel EquallyLong a b := by
  cases a with
  | none =>
      cases b with
      | none => exact .none
      | some _ => cases h
  | some x =>
      cases b with
      | none => cases h
      | some y => exact .some (equallyLong_of_size_eq (Option.some.inj h))

theorem size_shortest (a b : Duration) : (a.shortest b).size = min a.size b.size := by
  unfold shortest size
  split
  · next h =>
      have hlt := UInt64.lt_iff_toNat_lt.1 h
      omega
  · next h =>
      have hle := UInt64.le_iff_toNat_le.1 (UInt64.not_lt.1 h)
      omega

theorem size_longest (a b : Duration) : (a.longest b).size = max a.size b.size := by
  unfold longest size
  split
  · next h =>
      have hlt := UInt64.lt_iff_toNat_lt.1 h
      omega
  · next h =>
      have hle := UInt64.le_iff_toNat_le.1 (UInt64.not_lt.1 h)
      omega

end Duration

/-- The same kind of length, with equally long durations. -/
inductive Length.Alike : Length → Length → Prop
  | exactly {d d' : Duration} : d.EquallyLong d' → Alike (.exactly d) (.exactly d')
  | range {low low' high high' : Option Duration} : Option.Rel Duration.EquallyLong low low' →
      Option.Rel Duration.EquallyLong high high' → Alike (.range low high) (.range low' high')

/-- The same fields, with equally long durations. -/
structure Constraints.Alike (a b : Constraints) : Prop where
  within : Option.Rel Duration.EquallyLong a.within b.within
  after : Option.Rel Duration.EquallyLong a.after b.after
  length : Option.Rel Length.Alike a.length b.length

/-! ## Bounds on lengths -/

/-- The seconds between which a length lies, and whether they were asked for as one length. -/
structure Extent where
  low : Option Nat
  high : Option Nat
  exact : Bool

namespace Extent

def meet (a b : Extent) : Extent where
  low := Option.merge max a.low b.low
  high := Option.merge min a.high b.high
  exact := a.exact || b.exact

def Ordered (e : Extent) : Prop := ∀ low ∈ e.low, ∀ high ∈ e.high, low ≤ high

def Contains (e : Extent) (n : Nat) : Prop :=
  (∀ low ∈ e.low, low ≤ n) ∧ ∀ high ∈ e.high, n ≤ high

theorem meet_comm (a b : Extent) : a.meet b = b.meet a := by
  have hlow : Option.merge max a.low b.low = Option.merge max b.low a.low :=
    Std.Commutative.comm _ _
  have hhigh : Option.merge min a.high b.high = Option.merge min b.high a.high :=
    Std.Commutative.comm _ _
  rw [meet, meet, hlow, hhigh, Bool.or_comm]

theorem meet_right_comm (a b c : Extent) : (a.meet b).meet c = (a.meet c).meet b := by
  have hlow : Option.merge max (Option.merge max a.low b.low) c.low =
      Option.merge max (Option.merge max a.low c.low) b.low := RightCommutative.right_comm _ _ _
  have hhigh : Option.merge min (Option.merge min a.high b.high) c.high =
      Option.merge min (Option.merge min a.high c.high) b.high := RightCommutative.right_comm _ _ _
  simp only [meet, hlow, hhigh, Bool.or_right_comm]

/-- What lies within both bounds lies within the tighter one. -/
theorem forall_mem_merge {choose : Nat → Nat → Nat} {P : Nat → Prop}
    (h : ∀ x y, P (choose x y) ↔ P x ∧ P y) (a b : Option Nat) :
    (∀ x ∈ Option.merge choose a b, P x) ↔ (∀ x ∈ a, P x) ∧ ∀ x ∈ b, P x := by
  cases a <;> cases b <;> simp [Option.merge, h]

/-- A tighter bound is one of both. -/
theorem mem_or_mem_of_mem_merge {choose : Nat → Nat → Nat}
    (h : ∀ x y, choose x y = x ∨ choose x y = y) {a b : Option Nat} {n : Nat}
    (hn : n ∈ Option.merge choose a b) : n ∈ a ∨ n ∈ b := by
  cases a with
  | none => cases b <;> simp_all [Option.merge]
  | some x =>
      cases b with
      | none => exact .inl hn
      | some y =>
          have hxy : choose x y = n := Option.some.inj hn
          rcases h x y with h | h
          · exact .inl (congrArg some (h.symm.trans hxy))
          · exact .inr (congrArg some (h.symm.trans hxy))

theorem contains_meet (a b : Extent) (n : Nat) :
    (a.meet b).Contains n ↔ a.Contains n ∧ b.Contains n := by
  have hlow : (∀ x ∈ Option.merge max a.low b.low, x ≤ n) ↔ _ :=
    forall_mem_merge (fun x y => by omega) a.low b.low
  have hhigh : (∀ x ∈ Option.merge min a.high b.high, n ≤ x) ↔ _ :=
    forall_mem_merge (fun x y => by omega) a.high b.high
  unfold Contains
  rw [meet, hlow, hhigh]
  exact and_and_and_comm

theorem Contains.ordered {e : Extent} {n : Nat} (h : e.Contains n) : e.Ordered := by
  intro low hlow high hhigh
  exact Nat.le_trans (h.1 low hlow) (h.2 high hhigh)

/-- Bounds in the right order contain the lower one, or the upper one if it is the only one. -/
theorem Ordered.exists_contains {e : Extent} (h : e.Ordered) :
    ∃ n, e.Contains n ∧ (n ∈ e.low ∨ n ∈ e.high ∨ e.low = none ∧ e.high = none) := by
  obtain ⟨low, high, exact⟩ := e
  cases low with
  | some l =>
      refine ⟨l, ⟨?_, ?_⟩, .inl (Option.mem_some_self l)⟩
      · intro low hlow
        cases hlow
        exact Nat.le_refl l
      · exact h l rfl
  | none =>
      cases high with
      | some u =>
          refine ⟨u, ⟨by simp, ?_⟩, .inr (.inl (Option.mem_some_self u))⟩
          intro high hhigh
          cases hhigh
          exact Nat.le_refl u
      | none => exact ⟨0, ⟨by simp, by simp⟩, .inr (.inr ⟨rfl, rfl⟩)⟩

/-- Tighter bounds in the right order come from bounds in the right order. -/
theorem Ordered.of_meet {a b : Extent} (h : (a.meet b).Ordered) : a.Ordered := by
  obtain ⟨n, hn, -⟩ := h.exists_contains
  exact ((contains_meet a b n).1 hn).1.ordered

end Extent

/-- The seconds between which a length that may be missing lies. -/
def Length.extent : Option Length → Extent
  | none => ⟨none, none, false⟩
  | some (.exactly d) => ⟨some d.size, some d.size, true⟩
  | some (.range low high) => ⟨low.map Duration.size, high.map Duration.size, false⟩

namespace Length

open Duration

theorem admitted_iff_contains (l : Option Length) (d : Duration) :
    Admitted l d ↔ (extent l).Contains d.size := by
  match l with
  | none => simp [extent, Extent.Contains]
  | some (.exactly exact) =>
      have heq : exact.length = d.length ↔ exact.size = d.size := UInt64.toNat_inj.symm
      rw [admitted_exactly, heq]
      simp only [extent, Extent.Contains, Option.mem_some_iff, forall_eq']
      omega
  | some (.range low high) =>
      rw [admitted_range]
      cases low <;> cases high <;>
        simp [extent, Extent.Contains, size, UInt64.le_iff_toNat_le]

/-- Every bound is the number of seconds of some duration. -/
theorem exists_size_of_mem_extent {l : Option Length} {n : Nat}
    (h : n ∈ (extent l).low ∨ n ∈ (extent l).high) : ∃ d : Duration, d.size = n := by
  match l with
  | none => simp [extent] at h
  | some (.exactly d) => exact ⟨d, by simpa [extent] using h⟩
  | some (.range low high) =>
      rcases h with h | h
      · obtain ⟨d, -, hd⟩ := Option.map_eq_some_iff.1 h
        exact ⟨d, hd⟩
      · obtain ⟨d, -, hd⟩ := Option.map_eq_some_iff.1 h
        exact ⟨d, hd⟩

/-- Some length is admitted by both sides when the tighter bounds are in the right order. -/
theorem exists_admitted_of_ordered {l r : Option Length}
    (h : ((extent l).meet (extent r)).Ordered) : ∃ d, Admitted l d ∧ Admitted r d := by
  obtain ⟨n, hn, hmem⟩ := h.exists_contains
  have hcontains := (Extent.contains_meet _ _ n).1 hn
  have hsize : ∃ d : Duration, (extent l).Contains d.size ∧ (extent r).Contains d.size := by
    rcases hmem with hlow | hhigh | ⟨hlow, hhigh⟩
    · have hside := Extent.mem_or_mem_of_mem_merge (fun x y => by omega) hlow
      obtain ⟨d, rfl⟩ := hside.elim (fun h => exists_size_of_mem_extent (.inl h))
        fun h => exists_size_of_mem_extent (.inl h)
      exact ⟨d, hcontains⟩
    · have hside := Extent.mem_or_mem_of_mem_merge (fun x y => by omega) hhigh
      obtain ⟨d, rfl⟩ := hside.elim (fun h => exists_size_of_mem_extent (.inr h))
        fun h => exists_size_of_mem_extent (.inr h)
      exact ⟨d, hcontains⟩
    · have hall : ((extent l).meet (extent r)).Contains (Duration.zero).size := by
        simp [Extent.Contains, hlow, hhigh]
      exact ⟨.zero, (Extent.contains_meet _ _ _).1 hall⟩
  obtain ⟨d, hd⟩ := hsize
  exact ⟨d, (admitted_iff_contains l d).2 hd.1, (admitted_iff_contains r d).2 hd.2⟩

/-! ## The bounds of a merge -/

theorem extent_of_normalize {l l' : Option Length} (h : normalize l = .ok l') :
    extent l' = extent l := by
  match l with
  | none =>
      cases h
      rfl
  | some (.exactly d) =>
      cases h
      rfl
  | some (.range none none) =>
      cases h
      rfl
  | some (.range (some low) none) =>
      cases h
      rfl
  | some (.range none (some high)) =>
      cases h
      rfl
  | some (.range (some low) (some high)) =>
      rw [normalize] at h
      split at h
      · cases h
      · cases h
        rfl

theorem map_size_combine {choose : Duration → Duration → Duration} {f : Nat → Nat → Nat}
    (h : ∀ a b, (choose a b).size = f a.size b.size) (a b : Option Duration) :
    (combine choose a b).map size = Option.merge f (a.map size) (b.map size) := by
  cases a <;> cases b <;> simp [combine, Option.merge, h]

/-- An exact length within the bounds of a range leaves nothing of them. -/
theorem extent_of_keepExact {exact : Duration} {low high : Option Duration} {both : Option Length}
    (h : keepExact exact (.range low high) = .ok both) :
    extent both = (extent (some (.exactly exact))).meet (extent (some (.range low high))) := by
  unfold keepExact at h
  split at h
  · next hadmits =>
      cases h
      have hrange := (admitted_some _ _).2 hadmits
      rw [admitted_iff_contains] at hrange
      obtain ⟨hlow, hhigh⟩ := hrange
      simp only [extent, Extent.meet, Bool.or_false] at hlow hhigh ⊢
      congr 1
      · cases low with
        | none => rfl
        | some l =>
            have hle : l.size ≤ exact.size := by simpa using hlow
            simp [Option.merge, Nat.max_eq_left hle]
      · cases high with
        | none => rfl
        | some u =>
            have hle : exact.size ≤ u.size := by simpa using hhigh
            simp [Option.merge, Nat.min_eq_left hle]
  · cases h

theorem intersect_eq_ok {left right : Length} {low high : Option Duration} {both : Option Length}
    (h : intersect left right low high = .ok both) : both = some (.range low high) := by
  unfold intersect at h
  split at h
  · split at h
    · cases h
    · cases h
      rfl
  · cases h
    rfl

theorem extent_of_meet {l r both : Option Length} (h : meet l r = .ok both) :
    extent both = (extent l).meet (extent r) := by
  match l, r with
  | none, r =>
      cases h
      rcases hr : extent both with ⟨low, high, exact⟩
      cases low <;> cases high <;> simp [extent, Extent.meet, Option.merge]
  | some l, none =>
      cases h
      rcases hl : extent (some l) with ⟨low, high, exact⟩
      cases low <;> cases high <;> simp [extent, Extent.meet, Option.merge]
  | some (.exactly a), some (.exactly b) =>
      rw [meet] at h
      split at h
      · next heq =>
          cases h
          have hsize : a.size = b.size := congrArg UInt64.toNat heq
          simp [extent, Extent.meet, Option.merge, hsize]
      · cases h
  | some (.exactly a), some (.range low high) => exact extent_of_keepExact h
  | some (.range low high), some (.exactly b) =>
      rw [Extent.meet_comm]
      exact extent_of_keepExact h
  | some (.range low high), some (.range low' high') =>
      have hboth := intersect_eq_ok h
      rw [hboth]
      simp only [extent, Extent.meet, map_size_combine size_longest, map_size_combine size_shortest,
        Bool.or_self]

theorem extent_of_merge {l r both : Option Length} (h : merge l r = .ok both) :
    extent both = (extent l).meet (extent r) := by
  obtain ⟨l', hl, h⟩ := bind_eq_ok.1 h
  obtain ⟨r', hr, h⟩ := bind_eq_ok.1 h
  rw [extent_of_meet h, extent_of_normalize hl, extent_of_normalize hr]

/-- A proper range sets a bound. -/
theorem IsProper.extent_ne {low high : Option Duration} (h : IsProper (.range low high)) :
    extent (some (.range low high)) ≠ extent none := by
  intro he
  have hlow : low = none := Option.map_eq_none_iff.1 (congrArg Extent.low he)
  have hhigh : high = none := Option.map_eq_none_iff.1 (congrArg Extent.high he)
  rcases h.1 with hsome | hsome
  · simp [hlow] at hsome
  · simp [hhigh] at hsome

/-- Proper lengths with the same bounds differ in spelling only. -/
theorem Alike.of_extent_eq {a b : Option Length} (ha : ∀ l ∈ a, l.IsProper)
    (hb : ∀ l ∈ b, l.IsProper) (h : extent a = extent b) : Option.Rel Alike a b := by
  match a, b with
  | none, none => exact .none
  | some (.exactly d), some (.exactly d') =>
      have hsize : d.size = d'.size := Option.some.inj (congrArg Extent.low h)
      exact .some (.exactly (equallyLong_of_size_eq hsize))
  | some (.range low high), some (.range low' high') =>
      have hlow : low.map size = low'.map size := congrArg Extent.low h
      have hhigh : high.map size = high'.map size := congrArg Extent.high h
      exact .some (.range (rel_of_map_size_eq hlow) (rel_of_map_size_eq hhigh))
  | none, some (.range _ _) => exact absurd h.symm (hb _ rfl).extent_ne
  | some (.range _ _), none => exact absurd h (ha _ rfl).extent_ne
  -- Only one side is exact.
  | none, some (.exactly _) => cases congrArg Extent.exact h
  | some (.exactly _), none => cases congrArg Extent.exact h
  | some (.exactly _), some (.range _ _) => cases congrArg Extent.exact h
  | some (.range _ _), some (.exactly _) => cases congrArg Extent.exact h

end Length

/-! ## Constraints one after the other -/

/-- The bounds in seconds that constraints set. -/
structure Bounds where
  within : Option Nat
  after : Option Nat
  length : Extent

namespace Bounds

def meet (a b : Bounds) : Bounds where
  within := Option.merge min a.within b.within
  after := Option.merge max a.after b.after
  length := a.length.meet b.length

theorem meet_right_comm (a b c : Bounds) : (a.meet b).meet c = (a.meet c).meet b := by
  have hwithin : Option.merge min (Option.merge min a.within b.within) c.within =
      Option.merge min (Option.merge min a.within c.within) b.within :=
    RightCommutative.right_comm _ _ _
  have hafter : Option.merge max (Option.merge max a.after b.after) c.after =
      Option.merge max (Option.merge max a.after c.after) b.after :=
    RightCommutative.right_comm _ _ _
  simp only [meet, hwithin, hafter, Extent.meet_right_comm a.length b.length]

/-- Bounds that are in the wrong order stay so. -/
theorem ordered_of_foldl {bs : List Bounds} {b : Bounds}
    (h : (bs.foldl meet b).length.Ordered) : b.length.Ordered := by
  induction bs generalizing b with
  | nil => exact h
  | cons c rest ih => exact Extent.Ordered.of_meet (ih h)

theorem foldl_meet_perm {bs cs : List Bounds} (h : bs.Perm cs) (b : Bounds) :
    bs.foldl meet b = cs.foldl meet b := by
  apply h.foldl_eq'
  intro c _ d _ b
  exact meet_right_comm b c d

end Bounds

namespace Constraints

open Duration Length

def bounds (k : Constraints) : Bounds where
  within := k.within.map size
  after := k.after.map size
  length := extent k.length

theorem Alike.of_bounds_eq {a b : Constraints} (ha : ∀ l ∈ a.length, l.IsProper)
    (hb : ∀ l ∈ b.length, l.IsProper) (h : a.bounds = b.bounds) : a.Alike b where
  within := rel_of_map_size_eq (congrArg Bounds.within h)
  after := rel_of_map_size_eq (congrArg Bounds.after h)
  length := Length.Alike.of_extent_eq ha hb (congrArg Bounds.length h)

theorem bounds_of_merge {a b m : Constraints} (h : a.merge b = .ok m) :
    m.bounds = a.bounds.meet b.bounds := by
  obtain ⟨both, hboth, hm⟩ := bind_eq_ok.1 h
  cases hm
  simp only [bounds, Bounds.meet, map_size_combine size_shortest, map_size_combine size_longest,
    extent_of_merge hboth]

/-- A merge fails exactly when the tighter bounds are in the wrong order. -/
theorem ordered_meet_iff (a b : Constraints) :
    (a.bounds.meet b.bounds).length.Ordered ↔ ∃ m, a.merge b = .ok m := by
  constructor
  · intro h
    cases hmerge : a.merge b with
    | ok m => exact ⟨m, rfl⟩
    | error e =>
        obtain ⟨d, hd⟩ := exists_admitted_of_ordered h
        exact absurd hd ((merge_eq_error hmerge).disjoint d)
  · rintro ⟨m, hm⟩
    obtain ⟨d, ha, hb⟩ := (merge_eq_ok hm).exists_admitted
    have hcontains := (Extent.contains_meet _ _ _).2
      ⟨(admitted_iff_contains _ d).1 ha, (admitted_iff_contains _ d).1 hb⟩
    exact hcontains.ordered

/-- All the constraints merged into the first ones, from left to right. -/
def mergeAll (k : Constraints) (ks : List Constraints) : Except QueryError Constraints :=
  ks.foldlM merge k

/-- What is merged takes the tightest of all bounds. -/
theorem bounds_of_mergeAll {k m : Constraints} {ks : List Constraints}
    (h : k.mergeAll ks = .ok m) : m.bounds = (ks.map bounds).foldl Bounds.meet k.bounds := by
  induction ks generalizing k with
  | nil =>
      cases h
      rfl
  | cons first rest ih =>
      obtain ⟨merged, hmerged, h⟩ := bind_eq_ok.1 h
      rw [ih h, bounds_of_merge hmerged]
      rfl

/-- One merge after the other succeeds when the tightest of all bounds are in the right order. -/
theorem exists_mergeAll {k : Constraints} {ks : List Constraints}
    (h : ((ks.map bounds).foldl Bounds.meet k.bounds).length.Ordered) :
    ∃ m, k.mergeAll ks = .ok m := by
  induction ks generalizing k with
  | nil => exact ⟨k, rfl⟩
  | cons first rest ih =>
      have hfirst : (k.bounds.meet first.bounds).length.Ordered := Bounds.ordered_of_foldl h
      obtain ⟨merged, hmerged⟩ := (ordered_meet_iff k first).1 hfirst
      rw [List.map_cons, List.foldl_cons, ← bounds_of_merge hmerged] at h
      obtain ⟨m, hm⟩ := ih h
      exact ⟨m, bind_eq_ok.2 ⟨merged, hmerged, hm⟩⟩

theorem isProper_of_mergeAll {k m : Constraints} {ks : List Constraints}
    (hk : ∀ l ∈ k.length, l.IsProper) (h : k.mergeAll ks = .ok m) : ∀ l ∈ m.length, l.IsProper := by
  induction ks generalizing k with
  | nil =>
      cases h
      exact hk
  | cons first rest ih =>
      obtain ⟨merged, hmerged, h⟩ := bind_eq_ok.1 h
      exact ih (merge_eq_ok hmerged).length.proper h

theorem ordered_of_isProper {k : Constraints} (hk : ∀ l ∈ k.length, l.IsProper) :
    k.bounds.length.Ordered := by
  obtain ⟨d, hd⟩ := exists_admitted hk
  exact ((admitted_iff_contains _ d).1 hd).ordered

/-- In any order, the same sets of constraints are merged into the same one up to spelling. -/
theorem mergeAll_perm {k m : Constraints} {ks ks' : List Constraints}
    (hk : ∀ l ∈ k.length, l.IsProper) (hperm : ks.Perm ks') (hm : k.mergeAll ks = .ok m) :
    ∃ m', k.mergeAll ks' = .ok m' ∧ m.Alike m' := by
  have hproper := isProper_of_mergeAll hk hm
  have hbounds : m.bounds = (ks'.map bounds).foldl Bounds.meet k.bounds :=
    (bounds_of_mergeAll hm).trans (Bounds.foldl_meet_perm (hperm.map bounds) k.bounds)
  have hordered : ((ks'.map bounds).foldl Bounds.meet k.bounds).length.Ordered :=
    hbounds ▸ ordered_of_isProper hproper
  obtain ⟨m', hm'⟩ := exists_mergeAll hordered
  have hproper' := isProper_of_mergeAll hk hm'
  exact ⟨m', hm', .of_bounds_eq hproper hproper' (hbounds.trans (bounds_of_mergeAll hm').symm)⟩

end Constraints

end EventSearch
