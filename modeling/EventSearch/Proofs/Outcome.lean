import Mathlib.Data.List.Forall2

/-!
# Steps that may fail

Two steps in a row give a result when both do, and an error when the first one fails or the
second one does on the result of the first.
-/
namespace EventSearch

variable {ε α β : Type}

theorem bind_eq_ok {x : Except ε α} {f : α → Except ε β} {b : β} :
    (x >>= f) = .ok b ↔ ∃ a, x = .ok a ∧ f a = .ok b := by
  cases x <;> simp [bind, Except.bind]

theorem bind_eq_error {x : Except ε α} {f : α → Except ε β} {e : ε} :
    (x >>= f) = .error e ↔ x = .error e ∨ ∃ a, x = .ok a ∧ f a = .error e := by
  cases x <;> simp [bind, Except.bind]

/-- A list of steps gives the results of the steps in their order. -/
theorem mapM_eq_ok {f : α → Except ε β} {xs : List α} {ys : List β} :
    xs.mapM f = .ok ys ↔ List.Forall₂ (fun x y => f x = .ok y) xs ys := by
  induction xs generalizing ys with
  | nil =>
      rw [List.mapM_nil, List.forall₂_nil_left_iff]
      change Except.ok [] = Except.ok ys ↔ ys = []
      rw [Except.ok.injEq]
      exact eq_comm
  | cons x rest ih =>
      simp only [List.mapM_cons, bind_eq_ok, ih, List.forall₂_cons_left_iff]
      constructor
      · rintro ⟨first, hfirst, others, hothers, he⟩
        cases he
        exact ⟨first, others, hfirst, hothers, rfl⟩
      · rintro ⟨first, others, hfirst, hothers, rfl⟩
        exact ⟨first, hfirst, others, hothers, rfl⟩

/-- Steps that give back what they are made from. -/
theorem mapM_map_eq_ok {f : β → Except ε α} {g : α → β} (h : ∀ x, f (g x) = .ok x)
    (xs : List α) : (xs.map g).mapM f = .ok xs := by
  rw [mapM_eq_ok, List.forall₂_map_left_iff, List.forall₂_same]
  exact fun x _ => h x

/-- A list of steps gives results when each step does. -/
theorem exists_mapM_eq_ok {f : α → Except ε β} {xs : List α} :
    (∃ ys, xs.mapM f = .ok ys) ↔ ∀ x ∈ xs, ∃ y, f x = .ok y := by
  simp only [mapM_eq_ok]
  induction xs with
  | nil => simp
  | cons x rest ih => simp [List.forall₂_cons_left_iff, ← ih]

/-- What holds of each step that gives a result holds of all results of a list of steps. -/
theorem forall_of_mapM_eq_ok {P : β → Prop} {f : α → Except ε β} {xs : List α} {ys : List β}
    (h : xs.mapM f = .ok ys) (hP : ∀ x ∈ xs, ∀ y, f x = .ok y → P y) : ∀ y ∈ ys, P y := by
  induction mapM_eq_ok.1 h with
  | nil => exact fun y hy => nomatch hy
  | cons hfirst hrest ih =>
      have hothers := ih (mapM_eq_ok.2 hrest) fun x hx => hP x (List.mem_cons_of_mem _ hx)
      exact List.forall_mem_cons.2 ⟨hP _ List.mem_cons_self _ hfirst, hothers⟩

/-- When all steps give a result, each of them is among the results. -/
theorem exists_of_mapM_eq_ok {f : α → Except ε β} {xs : List α} {ys : List β}
    (h : xs.mapM f = .ok ys) {x : α} (hx : x ∈ xs) : ∃ y ∈ ys, f x = .ok y := by
  induction mapM_eq_ok.1 h with
  | nil => cases hx
  | cons hfirst hrest ih =>
      rcases List.mem_cons.1 hx with rfl | hx
      · exact ⟨_, List.mem_cons_self, hfirst⟩
      · obtain ⟨y, hy, hxy⟩ := ih (mapM_eq_ok.2 hrest) hx
        exact ⟨y, List.mem_cons_of_mem _ hy, hxy⟩

/-- The same of steps that have no error to tell. -/
theorem forall_of_mapM_eq_some {P : β → Prop} {f : α → Option β} {xs : List α} {ys : List β}
    (h : xs.mapM f = some ys) (hP : ∀ x y, f x = some y → P y) : ∀ y ∈ ys, P y := by
  induction xs generalizing ys with
  | nil =>
      cases h
      exact fun y hy => nomatch hy
  | cons x rest ih =>
      rw [List.mapM_cons] at h
      obtain ⟨first, hfirst, h⟩ := Option.bind_eq_some_iff.1 h
      obtain ⟨others, hothers, h⟩ := Option.bind_eq_some_iff.1 h
      cases h
      exact List.forall_mem_cons.2 ⟨hP x first hfirst, ih hothers⟩

/-- Steps that hand a state on fail when one of them does in the state that those before it
lead to. -/
theorem foldlM_eq_error {f : β → α → Except ε β} {b : β} {xs : List α} {e : ε} :
    xs.foldlM f b = .error e ↔ ∃ front x rest state,
      xs = front ++ x :: rest ∧ front.foldlM f b = .ok state ∧ f state x = .error e := by
  induction xs generalizing b with
  | nil => simp [pure, Except.pure]
  | cons x rest ih =>
      simp only [List.foldlM_cons, bind_eq_error, ih]
      constructor
      · rintro (hx | ⟨next, hnext, front, y, more, state, rfl, hfront, hy⟩)
        · exact ⟨[], x, rest, b, rfl, rfl, hx⟩
        · exact ⟨x :: front, y, more, state, rfl, bind_eq_ok.2 ⟨next, hnext, hfront⟩, hy⟩
      · rintro ⟨front, y, more, state, heq, hfront, hy⟩
        cases front with
        | nil =>
            cases heq
            cases hfront
            exact .inl hy
        | cons z front =>
            cases heq
            obtain ⟨next, hnext, hfront⟩ := bind_eq_ok.1 hfront
            exact .inr ⟨next, hnext, front, y, more, state, rfl, hfront, hy⟩

section Exchange

variable {f : β → α → Except ε β} {p : α → Bool}
  (hexchange : ∀ b x y, p x = true → p y = false → (f b y >>= (f · x)) = (f b x >>= (f · y)))

include hexchange

/-- A step of one kind that comes before steps of the other kind can come behind them. -/
theorem bind_foldlM_of_exchange {xs : List α} (hxs : ∀ x ∈ xs, p x = true) {y : α}
    (hy : p y = false) (b : β) :
    (f b y >>= fun state => xs.foldlM f state) = xs.foldlM f b >>= (f · y) := by
  induction xs generalizing b with
  | nil => simp
  | cons x rest ih =>
      have hrest : ∀ x ∈ rest, p x = true := fun x hx => hxs x (List.mem_cons_of_mem _ hx)
      calc (f b y >>= fun state => (x :: rest).foldlM f state)
          = (f b y >>= (f · x)) >>= fun state => rest.foldlM f state := by
            simp only [List.foldlM_cons, bind_assoc]
        _ = f b x >>= fun state => f state y >>= fun next => rest.foldlM f next := by
            rw [hexchange b x y (hxs x List.mem_cons_self) hy, bind_assoc]
        _ = f b x >>= fun state => rest.foldlM f state >>= (f · y) :=
            bind_congr fun state => ih hrest state
        _ = (x :: rest).foldlM f b >>= (f · y) := by
            rw [List.foldlM_cons, bind_assoc]

/-- Steps of two kinds that can be exchanged lead where those of the one kind lead when they come
first. -/
theorem foldlM_eq_filter_bind (xs : List α) (b : β) :
    xs.foldlM f b =
      (xs.filter p).foldlM f b >>= fun state => (xs.filter fun x => !p x).foldlM f state := by
  induction xs generalizing b with
  | nil => simp
  | cons x rest ih =>
      rw [List.foldlM_cons, bind_congr fun state => ih state]
      cases hx : p x with
      | true => simp [hx]
      | false =>
          -- The first step is of the other kind and moves behind all that are kept.
          have hkept : ∀ y ∈ rest.filter p, p y = true := fun y hy => (List.mem_filter.1 hy).2
          simp only [List.filter_cons, hx, Bool.not_false, if_true, List.foldlM_cons]
          rw [← bind_assoc, bind_foldlM_of_exchange hexchange hkept hx, bind_assoc]
          simp

end Exchange

theorem foldlM_congr_forall₂ {R : α → α → Prop} {f : β → α → Except ε β}
    (hf : ∀ b x y, R x y → f b x = f b y) {xs ys : List α} (h : List.Forall₂ R xs ys) (b : β) :
    xs.foldlM f b = ys.foldlM f b := by
  induction h generalizing b with
  | nil => rfl
  | cons hxy _ ih => rw [List.foldlM_cons, List.foldlM_cons, hf b _ _ hxy, bind_congr ih]

/-- The error of a step that fails. -/
def fault? : Except ε α → Option ε
  | .error e => some e
  | .ok _ => none

theorem fault?_eq_some {x : Except ε α} {e : ε} : fault? x = some e ↔ x = .error e := by
  cases x <;> simp [fault?]

theorem exists_eq_error_iff {x : Except ε α} : (∃ e, x = .error e) ↔ ∀ a, x ≠ .ok a := by
  cases x <;> simp

end EventSearch
