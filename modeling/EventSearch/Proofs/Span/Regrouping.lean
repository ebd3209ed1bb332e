import EventSearch.Proofs.Span.Bounds

/-!
# Merging in either grouping

Three sets of constraints are merged two at a time, the first two or the last two of them first.
Either way there is a result exactly when all three admit some length. The result does not
depend on the grouping either: an exact length goes before a range, the first of several exact
lengths is kept, and of equally long bounds the first one. So even the spelling is the same.
-/
namespace EventSearch

namespace Duration

/-- The first of the durations that no other one goes before is chosen in either grouping. -/
theorem choose_assoc {before : Duration → Duration → Prop} [DecidableRel before]
    {choose : Duration → Duration → Duration}
    (hchoose : ∀ a b, choose a b = if before b a then b else a)
    (htrans : ∀ a b c, before a b → before b c → before a c)
    (hnot : ∀ a b c, ¬ before a b → ¬ before b c → ¬ before a c) (a b c : Duration) :
    choose (choose a b) c = choose a (choose b c) := by
  simp only [hchoose]
  by_cases hba : before b a
  · by_cases hcb : before c b
    · have hca : before c a := htrans c b a hcb hba
      simp [hba, hcb, hca]
    · simp [hba, hcb]
  · by_cases hcb : before c b
    · simp [hba, hcb]
    · have hca : ¬ before c a := hnot c b a hcb hba
      simp [hba, hcb, hca]

theorem shortest_assoc (a b c : Duration) :
    (a.shortest b).shortest c = a.shortest (b.shortest c) := by
  refine @choose_assoc (fun b a => b.length < a.length) _ shortest (fun _ _ => rfl) ?_ ?_ a b c
  · intro x y z hxy hyz
    exact UInt64.lt_trans hxy hyz
  · intro x y z hxy hyz
    rw [UInt64.not_lt] at hxy hyz ⊢
    exact UInt64.le_trans hyz hxy

theorem longest_assoc (a b c : Duration) :
    (a.longest b).longest c = a.longest (b.longest c) := by
  refine @choose_assoc (fun b a => a.length < b.length) _ longest (fun _ _ => rfl) ?_ ?_ a b c
  · intro x y z hxy hyz
    exact UInt64.lt_trans hyz hxy
  · intro x y z hxy hyz
    rw [UInt64.not_lt] at hxy hyz ⊢
    exact UInt64.le_trans hxy hyz

end Duration

namespace Length

open Duration

theorem combine_assoc {choose : Duration → Duration → Duration}
    (h : ∀ a b c, choose (choose a b) c = choose a (choose b c)) (x y z : Option Duration) :
    combine choose (combine choose x y) z = combine choose x (combine choose y z) := by
  cases x <;> cases y <;> cases z <;> simp [combine, h]

theorem combine_none (choose : Duration → Duration → Duration) (x : Option Duration) :
    combine choose x none = x := by
  cases x <;> rfl

/-- A length that is not constrained as a range without bounds. -/
def ofOption (l : Option Length) : Length := l.getD (.range none none)

/-- The length, unless it is a range without bounds. -/
def toOption (l : Length) : Option Length := if l.isUnbounded then none else some l

/-- What two lengths that have one in common are merged into. -/
def join : Length → Length → Length
  | .exactly a, _ => .exactly a
  | .range _ _, .exactly b => .exactly b
  | .range low high, .range low' high' =>
      .range (combine longest low low') (combine shortest high high')

theorem join_assoc (a b c : Length) : (a.join b).join c = a.join (b.join c) := by
  cases a with
  | exactly a => rfl
  | range low high =>
      cases b with
      | exactly b => rfl
      | range low' high' =>
          cases c with
          | exactly c => rfl
          | range low'' high'' =>
              simp only [join, combine_assoc longest_assoc, combine_assoc shortest_assoc]

theorem join_unbounded (l : Length) : l.join (.range none none) = l := by
  cases l with
  | exactly d => rfl
  | range low high => rw [join, combine_none, combine_none]

theorem unbounded_join (l : Length) : (range none none).join l = l := by
  cases l <;> rfl

theorem toOption_range {low high : Option Duration} (h : low.isSome ∨ high.isSome) :
    (range low high).toOption = some (.range low high) := by
  refine if_neg fun hunbounded => ?_
  cases eq_of_beq hunbounded
  simp at h

theorem ofOption_toOption (l : Length) : ofOption l.toOption = l := by
  unfold toOption
  split
  · next hunbounded => exact (eq_of_beq hunbounded).symm
  · rfl

theorem IsProper.toOption_eq {l : Length} (h : l.IsProper) : l.toOption = some l := by
  cases l with
  | exactly d => rfl
  | range low high => exact toOption_range h.1

/-- What is proper or missing is not changed by leaving out ranges without bounds. -/
theorem toOption_ofOption {l : Option Length} (h : ∀ r ∈ l, r.IsProper) :
    (ofOption l).toOption = l := by
  cases l with
  | none => rfl
  | some r => exact (h r rfl).toOption_eq

theorem ofOption_of_normalize {l l' : Option Length} (h : normalize l = .ok l') :
    ofOption l' = ofOption l := by
  unfold normalize at h
  split at h
  · split at h
    · cases h
    · cases h
      rfl
  · cases h
    rfl
  · cases h
    rfl

theorem eq_of_keepExact {exact : Duration} {other : Length} {both : Option Length}
    (h : keepExact exact other = .ok both) : both = some (.exactly exact) := by
  unfold keepExact at h
  split at h
  · cases h
    rfl
  · cases h

/-- The checks decide whether there is a result, but not what it is. -/
theorem eq_of_meet {l r both : Option Length} (hl : ∀ n ∈ l, n.IsProper)
    (hr : ∀ n ∈ r, n.IsProper) (h : meet l r = .ok both) :
    both = ((ofOption l).join (ofOption r)).toOption := by
  match l, r with
  | none, r =>
      cases h
      exact ((congrArg toOption (unbounded_join _)).trans (toOption_ofOption hr)).symm
  | some l, none =>
      cases h
      exact ((congrArg toOption (join_unbounded l)).trans (toOption_ofOption hl)).symm
  | some (.exactly a), some (.exactly b) =>
      rw [meet] at h
      split at h
      · cases h
        rfl
      · cases h
  | some (.exactly a), some (.range low high) => exact eq_of_keepExact h
  | some (.range low high), some (.exactly b) => exact eq_of_keepExact h
  | some (.range low high), some (.range low' high') =>
      -- A bound on the left is left over, so the result is no range without bounds.
      have hbound : (combine longest low low').isSome ∨ (combine shortest high high').isSome :=
        (hl _ rfl).1.imp (combine_isSome · low') (combine_isSome · high')
      rw [intersect_eq_ok h]
      exact (toOption_range hbound).symm

theorem isProper_of_normalize {l l' : Option Length} (h : normalize l = .ok l') :
    ∀ n ∈ l', n.IsProper := by
  have hintersects := normalize_intersects l
  rw [h] at hintersects
  exact hintersects.proper

theorem eq_of_merge {l r both : Option Length} (h : merge l r = .ok both) :
    both = ((ofOption l).join (ofOption r)).toOption := by
  obtain ⟨l', hl, h⟩ := bind_eq_ok.1 h
  obtain ⟨r', hr, h⟩ := bind_eq_ok.1 h
  rw [eq_of_meet (isProper_of_normalize hl) (isProper_of_normalize hr) h,
    ofOption_of_normalize hl, ofOption_of_normalize hr]

end Length

namespace Constraints

open Duration Length

/-- What two sets of constraints are merged into, if there is a length that both admit. -/
def join (a b : Constraints) : Constraints where
  within := combine shortest a.within b.within
  after := combine longest a.after b.after
  length := ((ofOption a.length).join (ofOption b.length)).toOption

theorem join_assoc (a b c : Constraints) : (a.join b).join c = a.join (b.join c) := by
  simp only [join, ofOption_toOption, Length.join_assoc, combine_assoc shortest_assoc,
    combine_assoc longest_assoc]

theorem join_empty {k : Constraints} (hk : ∀ l ∈ k.length, l.IsProper) : k.join .empty = k := by
  have hlength : ((ofOption k.length).join (ofOption none)).toOption = k.length :=
    (congrArg toOption (join_unbounded _)).trans (toOption_ofOption hk)
  rw [join, empty, hlength, combine_none, combine_none]

theorem empty_join {k : Constraints} (hk : ∀ l ∈ k.length, l.IsProper) :
    empty.join k = k := by
  have hlength : ((ofOption none).join (ofOption k.length)).toOption = k.length :=
    (congrArg toOption (unbounded_join _)).trans (toOption_ofOption hk)
  rw [join, empty, hlength]
  rfl

/-- Sets of constraints can be merged when they admit a length together. -/
theorem merge_eq_ok_iff {a b m : Constraints} :
    a.merge b = .ok m ↔
      (∃ d, Admitted a.length d ∧ Admitted b.length d) ∧ m = a.join b := by
  have hjoin : ∀ {m}, a.merge b = .ok m → m = a.join b := by
    intro m h
    obtain ⟨both, hboth, hm⟩ := bind_eq_ok.1 h
    cases hm
    rw [eq_of_merge hboth, join]
  constructor
  · intro h
    exact ⟨(merge_eq_ok h).exists_admitted, hjoin h⟩
  · rintro ⟨⟨d, hd⟩, rfl⟩
    cases h : a.merge b with
    | ok m => rw [hjoin h]
    | error e => exact absurd hd ((merge_eq_error h).disjoint d)

theorem merge_empty {k : Constraints} (hk : ∀ l ∈ k.length, l.IsProper) :
    k.merge .empty = .ok k := by
  obtain ⟨d, hd⟩ := exists_admitted hk
  exact merge_eq_ok_iff.2 ⟨⟨d, hd, admitted_none d⟩, (join_empty hk).symm⟩

theorem empty_merge {k : Constraints} (hk : ∀ l ∈ k.length, l.IsProper) :
    empty.merge k = .ok k := by
  obtain ⟨d, hd⟩ := exists_admitted hk
  exact merge_eq_ok_iff.2 ⟨⟨d, admitted_none d, hd⟩, (empty_join hk).symm⟩

theorem admitted_join {a b : Constraints} (h : ∃ d, Admitted a.length d ∧ Admitted b.length d)
    (d : Duration) :
    Admitted (a.join b).length d ↔ Admitted a.length d ∧ Admitted b.length d :=
  (merge_eq_ok (merge_eq_ok_iff.2 ⟨h, rfl⟩)).length.admitted d

theorem merge_merge_eq_ok_iff {a b c m : Constraints} :
    (do (← a.merge b).merge c) = .ok m ↔
      (∃ d, Admitted a.length d ∧ Admitted b.length d ∧ Admitted c.length d) ∧
        m = (a.join b).join c := by
  rw [bind_eq_ok]
  constructor
  · rintro ⟨ab, hab, hm⟩
    obtain ⟨hfirst, rfl⟩ := merge_eq_ok_iff.1 hab
    obtain ⟨⟨d, hd, hc⟩, rfl⟩ := merge_eq_ok_iff.1 hm
    obtain ⟨ha, hb⟩ := (admitted_join hfirst d).1 hd
    exact ⟨⟨d, ha, hb, hc⟩, rfl⟩
  · rintro ⟨⟨d, ha, hb, hc⟩, rfl⟩
    have hab : ∃ d, Admitted a.length d ∧ Admitted b.length d := ⟨d, ha, hb⟩
    exact ⟨a.join b, merge_eq_ok_iff.2 ⟨hab, rfl⟩,
      merge_eq_ok_iff.2 ⟨⟨d, (admitted_join hab d).2 ⟨ha, hb⟩, hc⟩, rfl⟩⟩

theorem merge_of_merge_eq_ok_iff {a b c m : Constraints} :
    (do a.merge (← b.merge c)) = .ok m ↔
      (∃ d, Admitted a.length d ∧ Admitted b.length d ∧ Admitted c.length d) ∧
        m = a.join (b.join c) := by
  rw [bind_eq_ok]
  constructor
  · rintro ⟨bc, hbc, hm⟩
    obtain ⟨hlast, rfl⟩ := merge_eq_ok_iff.1 hbc
    obtain ⟨⟨d, ha, hd⟩, rfl⟩ := merge_eq_ok_iff.1 hm
    exact ⟨⟨d, ha, (admitted_join hlast d).1 hd⟩, rfl⟩
  · rintro ⟨⟨d, ha, hbc⟩, rfl⟩
    have hbc' : ∃ d, Admitted b.length d ∧ Admitted c.length d := ⟨d, hbc⟩
    exact ⟨b.join c, merge_eq_ok_iff.2 ⟨hbc', rfl⟩,
      merge_eq_ok_iff.2 ⟨⟨d, ha, (admitted_join hbc' d).2 hbc⟩, rfl⟩⟩

/-- In either grouping, three sets of constraints are merged into the same set or cannot be merged.
The empty set leaves a proper one as it is, on either side. -/
theorem merge_regroup (a b c : Constraints) :
    (∀ m, (do (← a.merge b).merge c) = .ok m ↔ (do a.merge (← b.merge c)) = .ok m) ∧
    ∀ k : Constraints, (∀ l ∈ k.length, l.IsProper) →
      k.merge .empty = .ok k ∧ empty.merge k = .ok k := by
  constructor
  · intro m
    rw [merge_merge_eq_ok_iff, merge_of_merge_eq_ok_iff, join_assoc]
  · intro k hk
    exact ⟨merge_empty hk, empty_merge hk⟩

/-- A minute, by two bounds that are spelled differently. -/
def minute : Constraints := { length := some (.between { seconds := 60 } { minutes := 1 }) }

/-- Of several spellings of a minute and an hour, either grouping keeps the first exact minute and the
first hour. -/
theorem merge_regroup_minute :
    let hour : Constraints :=
      { within := some { hours := 1 }, length := some (.exactly { seconds := 60 }) }
    let minutes : Constraints :=
      { within := some { minutes := 60 }, length := some (.exactly { minutes := 1 }) }
    (do (← minute.merge hour).merge minutes) = .ok hour ∧
      (do minute.merge (← hour.merge minutes)) = .ok hour ∧
      (∀ l ∈ minute.length, l.IsProper) ∧
      minute.merge .empty = .ok minute ∧ empty.merge minute = .ok minute := by
  intro hour minutes
  obtain ⟨hregroup, hempty⟩ := merge_regroup minute hour minutes
  have hmerged : (do (← minute.merge hour).merge minutes) = .ok hour := rfl
  have hproper : ∀ l ∈ minute.length, l.IsProper := by
    intro l hl
    cases hl
    exact ⟨.inl rfl, by decide⟩
  exact ⟨hmerged, (hregroup hour).1 hmerged, hproper, hempty minute hproper⟩

end Constraints

end EventSearch
