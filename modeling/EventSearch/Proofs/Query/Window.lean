import EventSearch.Proofs.Node.Document

/-!
# Windows of selects

The window is stated in the object of the pattern, next to the members of the pattern. It takes
none of their names but one: a lower bound alone goes by the name of a gap, and is refused when
the pattern states one. Whatever window is stated, what is left without it is the pattern.
-/
namespace EventSearch

namespace Json

/-- No pattern uses a name that is neither one of a core nor one of constraints. -/
theorem IsPattern.get?_eq_none {members : Fields Json} (h : (obj members).IsPattern)
    {name : String} (hcore : ∀ names ∈ coreNames, name ∉ names)
    (hkey : Constraints.isKey name = false) : Fields.get? name members = none := by
  cases h with
  | @mk kind _ _ _ hkind =>
      refine Fields.get?_eq_none fun m hm heq => hcore _ hkind.names ?_
      have hkept : m ∈ core members := List.mem_filter.2 ⟨hm, by rw [heq, hkey]; rfl⟩
      exact heq ▸ List.mem_map_of_mem hkept

/-- The gap of a pattern is written as an object. -/
theorem IsPattern.exists_obj_of_after {members : Fields Json} (h : (obj members).IsPattern)
    {gap : Json} (hgap : Fields.get? "after" members = some gap) : ∃ counts, gap = .obj counts := by
  cases h with
  | mk _ hstates _ =>
      cases hstates.after gap hgap with
      | zero => exact ⟨_, rfl⟩
      | counts _ _ _ => exact ⟨_, rfl⟩

end Json

theorem WindowKey.name_injective {a b : WindowKey} (h : a.name = b.name) : a = b := by
  cases a <;> cases b <;> first | rfl | exact absurd h (by decide)

namespace Select

/-- The key of the window that the bounds make up. -/
def windowKey? (s : Select) : Option WindowKey :=
  match s.after, s.before with
  | some _, some _ => some .between
  | some _, none => some .after
  | none, some _ => some .before
  | none, none => none

/-- When both bounds are set, there is some time between them. -/
def IsOpen (s : Select) : Prop :=
  ∀ after ∈ s.after, ∀ before ∈ s.before, after.instant.before before.instant = true

/-- The object states a window by this key. What is an object itself is a gap and no window. -/
def StatesWindow (members : Fields Json) (key : WindowKey) : Prop :=
  ∃ value, Fields.get? key.name members = some value ∧ ∀ counts, value ≠ .obj counts

/-- The members that are left without the window. -/
def withoutWindow (s : Select) (members : Fields Json) : Fields Json :=
  match s.windowKey? with
  | some key => Fields.erase key.name members
  | none => members

/-- The object holds the members of a pattern, which it leaves as they are, and the window. -/
structure IsWindowed (s : Select) (base members : Fields Json) : Prop where
  windows : ∀ key, StatesWindow members key ↔ s.windowKey? = some key
  free : ∀ key ∈ s.windowKey?, Fields.get? key.name base = none
  rest : s.withoutWindow members = base

variable {s : Select} {base : Fields Json}

theorem window_of_isOpen (h : s.IsOpen) : ∃ stated, s.window = .ok stated ∧
    stated.map Prod.fst = s.windowKey? ∧ ∀ p ∈ stated, ∀ counts, p.2 ≠ .obj counts := by
  unfold window windowKey?
  match hafter : s.after, hbefore : s.before with
  | some after, some before =>
      have hopen := h after hafter before hbefore
      exact ⟨_, if_pos hopen, rfl, by simp⟩
  | some after, none => exact ⟨_, rfl, rfl, by simp⟩
  | none, some before => exact ⟨_, rfl, rfl, by simp⟩
  | none, none => exact ⟨_, rfl, rfl, by simp⟩

theorem window_of_not_before {after before : DateTime} (hafter : s.after = some after)
    (hbefore : s.before = some before) (h : after.instant.before before.instant = false) :
    s.window = .error (.emptyWindow after before) := by
  simp [window, hafter, hbefore, h]

theorem isOpen_of_window {stated : Option (WindowKey × Json)} (h : s.window = .ok stated) :
    s.IsOpen := by
  intro after hafter before hbefore
  cases hopen : after.instant.before before.instant with
  | true => rfl
  | false =>
      rw [window_of_not_before hafter hbefore hopen] at h
      cases h

/-- What is written of the pattern is nothing for no root and else the form of a pattern. -/
theorem isPattern_of_pattern (hroot : ∀ n ∈ s.root, n.Reachable)
    (h : s.pattern = .ok (.obj base)) : base = [] ∨ (Json.obj base).IsPattern := by
  unfold pattern at h
  split at h
  · next n hn =>
      exact .inr (Node.isPattern_of_canonical
        ((hroot n hn).throughout Node.preserved_canonical) h)
  · cases h
    exact .inl rfl

/-- Members of a pattern and a window have no name in common, but for a gap of the pattern and
a lower bound alone. -/
theorem get?_name_eq_none (hroot : ∀ n ∈ s.root, n.Reachable)
    (h : s.pattern = .ok (.obj base)) {key : WindowKey} (hkey : key ≠ .after) :
    Fields.get? key.name base = none := by
  rcases isPattern_of_pattern hroot h with rfl | hbase
  · rfl
  · cases key with
    | after => exact absurd rfl hkey
    | between => exact hbase.get?_eq_none (by decide) rfl
    | before => exact hbase.get?_eq_none (by decide) rfl

/-- A pattern by itself states no window. -/
theorem not_statesWindow (hroot : ∀ n ∈ s.root, n.Reachable)
    (h : s.pattern = .ok (.obj base)) (key : WindowKey) : ¬ StatesWindow base key := by
  rintro ⟨value, hvalue, hobj⟩
  by_cases hkey : key = .after
  · subst hkey
    rcases isPattern_of_pattern hroot h with rfl | hbase
    · cases hvalue
    · obtain ⟨counts, hcounts⟩ := hbase.exists_obj_of_after hvalue
      exact hobj counts hcounts
  · rw [get?_name_eq_none hroot h hkey] at hvalue
    cases hvalue

/-- Once a window is set in the object of a pattern, it is the only one. -/
theorem statesWindow_insert (hnone : ∀ key, ¬ StatesWindow base key) {key : WindowKey}
    {value : Json} (hvalue : ∀ counts, value ≠ .obj counts) (other : WindowKey) :
    StatesWindow (Fields.insert key.name value base) other ↔ key = other := by
  by_cases h : key = other
  · subst h
    exact iff_of_true ⟨value, Fields.get?_insert_self _ _ _, hvalue⟩ rfl
  · have hname : other.name ≠ key.name := fun heq => h (WindowKey.name_injective heq.symm)
    rw [StatesWindow, Fields.get?_insert_of_ne hname]
    exact iff_of_false (hnone other) h

section Encoding

variable {key : WindowKey} {value present : Json}

theorem encode_of_pattern (hpattern : s.pattern = .ok (.obj base)) :
    s.encode = s.window >>= fun
      | some (key, value) => do .ok (.obj (← addWindow base key value))
      | none => .ok (.obj base) := by
  rw [encode, hpattern]
  rfl

theorem encode_of_window_none (hpattern : s.pattern = .ok (.obj base))
    (hwindow : s.window = .ok none) : s.encode = .ok (.obj base) := by
  rw [encode_of_pattern hpattern, hwindow]
  rfl

theorem encode_of_window_some (hpattern : s.pattern = .ok (.obj base))
    (hwindow : s.window = .ok (some (key, value))) :
    s.encode = (addWindow base key value).map Json.obj := by
  rw [encode_of_pattern hpattern, hwindow]
  change (addWindow base key value >>= fun members => Except.ok (Json.obj members)) = _
  cases addWindow base key value <;> rfl

theorem encode_of_free (hpattern : s.pattern = .ok (.obj base))
    (hwindow : s.window = .ok (some (key, value))) (hfree : Fields.get? key.name base = none) :
    s.encode = .ok (.obj (Fields.insert key.name value base)) := by
  rw [encode_of_window_some hpattern hwindow, addWindow, hfree]
  rfl

theorem encode_of_taken (hpattern : s.pattern = .ok (.obj base))
    (hwindow : s.window = .ok (some (key, value)))
    (htaken : Fields.get? key.name base = some present) :
    s.encode = .error (.windowClash key present) := by
  rw [encode_of_window_some hpattern hwindow, addWindow, htaken]
  rfl

/-- A window that leaves some time is stated, unless a lower bound alone meets a gap. -/
theorem encode_of_isOpen (hroot : ∀ n ∈ s.root, n.Reachable)
    (hpattern : s.pattern = .ok (.obj base)) (hopen : s.IsOpen) :
    (∃ members, s.encode = .ok (.obj members) ∧ s.IsWindowed base members) ∨
      ∃ present, s.windowKey? = some .after ∧ Fields.get? "after" base = some present ∧
        s.encode = .error (.windowClash .after present) := by
  obtain ⟨stated, hwindow, hkey, hvalue⟩ := window_of_isOpen hopen
  have hnone : ∀ key, ¬ StatesWindow base key := not_statesWindow hroot hpattern
  cases stated with
  | none =>
      refine .inl ⟨base, encode_of_window_none hpattern hwindow, ?_, ?_, ?_⟩
      · intro key
        rw [← hkey]
        exact iff_of_false (hnone key) (Option.some_ne_none key).symm
      · intro key hmem
        rw [← hkey] at hmem
        cases hmem
      · rw [withoutWindow, ← hkey]
        rfl
  | some p =>
      obtain ⟨key, value⟩ := p
      cases hget : Fields.get? key.name base with
      | none =>
          refine .inl ⟨_, encode_of_free hpattern hwindow hget, ?_, ?_, ?_⟩
          · intro other
            rw [← hkey, statesWindow_insert hnone (hvalue _ rfl)]
            exact (Option.some_inj (a := key)).symm
          · intro other hmem
            rw [← hkey] at hmem
            cases hmem
            exact hget
          · rw [withoutWindow, ← hkey]
            exact Fields.erase_insert hget value
      | some present =>
          have hafter : key = .after := by
            by_contra hne
            rw [get?_name_eq_none hroot hpattern hne] at hget
            cases hget
          subst hafter
          exact .inr ⟨present, hkey.symm, hget, encode_of_taken hpattern hwindow hget⟩

end Encoding

theorem encode_of_pattern_error {e : QueryError} (h : s.pattern = .error e) :
    s.encode = .error e := by
  rw [encode, h]
  rfl

theorem isOpen_of_encode {j : Json} (h : s.encode = .ok j) :
    ∃ base, s.pattern = .ok (.obj base) ∧ s.IsOpen := by
  cases hpattern : s.pattern with
  | error e =>
      rw [encode_of_pattern_error hpattern] at h
      cases h
  | ok i =>
      obtain ⟨base, rfl⟩ := exists_obj_of_pattern hpattern
      rw [encode_of_pattern hpattern] at h
      obtain ⟨stated, hwindow, -⟩ := bind_eq_ok.1 h
      exact ⟨base, rfl, isOpen_of_window hwindow⟩

/-- A window is in the way of a member only once the pattern and the bounds are in order. -/
theorem isOpen_of_clash {key : WindowKey} {present : Json}
    (h : s.encode = .error (.windowClash key present)) :
    ∃ base, s.pattern = .ok (.obj base) ∧ s.IsOpen := by
  cases hpattern : s.pattern with
  | error e =>
      rw [encode_of_pattern_error hpattern] at h
      cases h
      rcases pattern_eq_error hpattern with ⟨c, hc⟩ | hc <;> cases hc
  | ok i =>
      obtain ⟨base, rfl⟩ := exists_obj_of_pattern hpattern
      rw [encode_of_pattern hpattern] at h
      rcases bind_eq_error.1 h with hwindow | ⟨stated, hwindow, -⟩
      · obtain ⟨after, before, hempty⟩ := window_eq_error hwindow
        cases hempty
      · exact ⟨base, rfl, isOpen_of_window hwindow⟩

/-- A select is written exactly when its pattern is, the window leaves some time, and a lower
bound alone does not meet a gap at the start of the pattern. Then one window is stated if there
is a bound, and without it the pattern is left. The fault of the pattern comes first, that of
an empty window next, and no window but a lower bound alone is ever in the way of a gap. -/
theorem encode_window (hroot : ∀ n ∈ s.root, n.Reachable) :
    ((∃ j, s.encode = .ok j) ↔ (∃ j, s.pattern = .ok j) ∧ s.IsOpen ∧
      (s.windowKey? = some .after →
        ∀ base, s.pattern = .ok (.obj base) → Fields.get? "after" base = none)) ∧
    (∀ j, s.encode = .ok j → ∃ base members, s.pattern = .ok (.obj base) ∧ j = .obj members ∧
      s.IsWindowed base members) ∧
    (∀ key present, s.encode = .error (.windowClash key present) →
      s.windowKey? = some .after) ∧
    (∀ e, s.pattern = .error e → s.encode = .error e) ∧
    ∀ j after before, s.pattern = .ok j → s.after = some after → s.before = some before →
      after.instant.before before.instant = false →
      s.encode = .error (.emptyWindow after before) := by
  refine ⟨⟨?_, ?_⟩, ?_, ?_, fun e => encode_of_pattern_error, ?_⟩
  · rintro ⟨j, h⟩
    obtain ⟨base, hpattern, hopen⟩ := isOpen_of_encode h
    refine ⟨⟨_, hpattern⟩, hopen, fun hkey other hother => ?_⟩
    cases hpattern.symm.trans hother
    rcases encode_of_isOpen hroot hpattern hopen with ⟨members, -, hwindowed⟩ | ⟨_, -, -, hclash⟩
    · exact hwindowed.free .after hkey
    · rw [h] at hclash
      cases hclash
  · rintro ⟨⟨j, hpattern⟩, hopen, hfree⟩
    obtain ⟨base, rfl⟩ := exists_obj_of_pattern hpattern
    rcases encode_of_isOpen hroot hpattern hopen with ⟨members, h, -⟩ | ⟨present, hkey, hget, -⟩
    · exact ⟨_, h⟩
    · rw [hfree hkey base hpattern] at hget
      cases hget
  · intro j h
    obtain ⟨base, hpattern, hopen⟩ := isOpen_of_encode h
    rcases encode_of_isOpen hroot hpattern hopen with ⟨members, hj, hwindowed⟩ | ⟨_, -, -, hclash⟩
    · exact ⟨base, members, hpattern, Except.ok.inj (h.symm.trans hj), hwindowed⟩
    · rw [h] at hclash
      cases hclash
  · intro key present h
    obtain ⟨base, hpattern, hopen⟩ := isOpen_of_clash h
    rcases encode_of_isOpen hroot hpattern hopen with ⟨members, hj, -⟩ | ⟨_, hkey, -, -⟩
    · rw [h] at hj
      cases hj
    · exact hkey
  · intro j after before hpattern hafter hbefore hempty
    obtain ⟨base, rfl⟩ := exists_obj_of_pattern hpattern
    rw [encode_of_pattern hpattern, window_of_not_before hafter hbefore hempty]
    rfl

/-- Noon of the first day of the year 2024. -/
def noon : DateTime := ⟨⟨2024, 1, 1, by decide⟩, ⟨12, 0, 0, 0, by decide⟩, .utc⟩

/-- Cruises that start an hour after something else, up to noon. -/
def cruisesToNoon : Select := { root := some Node.cruise, before := some noon }

/-- Cruises that start an hour after something else, from noon on. -/
def cruisesFromNoon : Select := { root := some Node.cruise, after := some noon }

/-- An upper bound is stated next to the gap of the cruise, and a lower bound is refused. -/
theorem encode_cruises : Node.cruise.Reachable ∧
    (∃ base members, Node.cruise.encode = .ok (.obj base) ∧
      cruisesToNoon.encode = .ok (.obj members) ∧ cruisesToNoon.IsWindowed base members ∧
      Fields.get? "after" base = some (Duration.encode { hours := 1 })) ∧
    ∀ j, cruisesFromNoon.encode ≠ .ok j := by
  have hroot : ∀ n ∈ some Node.cruise, n.Reachable := by
    rintro n ⟨⟩
    exact Node.reachable_cruise
  have hgap : ∀ base, Node.cruise.encode = .ok (.obj base) →
      Fields.get? "after" base = some (Duration.encode { hours := 1 }) := by
    intro base h
    exact (Node.statedIn_effective
      (Node.reachable_cruise.throughout Node.preserved_canonical) h).after
  refine ⟨Node.reachable_cruise, ?_, ?_⟩
  · obtain ⟨⟨-, hok⟩, hwindowed, -⟩ := @encode_window cruisesToNoon hroot
    have hopen : cruisesToNoon.IsOpen := fun after h => nomatch h
    obtain ⟨j, hj⟩ := hok ⟨⟨_, rfl⟩, hopen, fun h => nomatch h⟩
    obtain ⟨base, members, hpattern, rfl, hbase⟩ := hwindowed j hj
    exact ⟨base, members, hpattern, hj, hbase, hgap base hpattern⟩
  · obtain ⟨⟨hok, -⟩, -⟩ := @encode_window cruisesFromNoon hroot
    intro j hj
    obtain ⟨⟨pattern, hpattern⟩, -, hfree⟩ := hok ⟨j, hj⟩
    obtain ⟨base, rfl⟩ := exists_obj_of_pattern hpattern
    have hnone := hfree rfl base hpattern
    rw [hgap base hpattern] at hnone
    cases hnone

end Select

end EventSearch
