/-!
# Named fields

A list of name and value pairs kept in increasing order of the names, which compare
by code point. Insertion replaces the value of a name that is already present, so a
name occurs at most once and equal contents have equal lists.
-/
namespace EventSearch

/-- Pairs of a name and a value. The operations below keep the names increasing. -/
abbrev Fields (α : Type) := List (String × α)

namespace Fields

variable {α β : Type}

def insert (name : String) (value : α) : Fields α → Fields α
  | [] => [(name, value)]
  | (k, v) :: rest =>
      if name < k then (name, value) :: (k, v) :: rest
      else if name = k then (name, value) :: rest
      else (k, v) :: insert name value rest

/-- The value of a name, which is that of the first pair if a list repeats it. -/
def get? (name : String) : Fields α → Option α
  | [] => none
  | (k, v) :: rest => if name = k then some v else get? name rest

def contains (name : String) (fields : Fields α) : Bool := (fields.get? name).isSome

def erase (name : String) : Fields α → Fields α
  | [] => []
  | (k, v) :: rest => if name = k then rest else (k, v) :: erase name rest

/-- One field or none. -/
def optional (name : String) (value : Option α) : Fields α :=
  match value with
  | some v => [(name, v)]
  | none => []

/-- Sets all the given fields in turn. -/
def insertAll (fields new : List (String × α)) : Fields α :=
  new.foldl (fun fields pair => insert pair.1 pair.2 fields) fields

/-- The last pair given for a name wins. -/
def ofList (pairs : List (String × α)) : Fields α := insertAll [] pairs

theorem get?_insert_self (name : String) (value : α) (fields : Fields α) :
    (fields.insert name value).get? name = some value := by
  induction fields with
  | nil => simp [insert, get?]
  | cons p rest ih =>
      rw [insert]
      split
      · simp [get?]
      · split
        · simp [get?]
        · rename_i h
          simp [get?, h, ih]

theorem get?_insert_of_ne {name other : String} (h : other ≠ name) (value : α)
    (fields : Fields α) : (fields.insert name value).get? other = fields.get? other := by
  induction fields with
  | nil => simp [insert, get?, h]
  | cons p rest ih =>
      rw [insert]
      split
      · simp [get?, h]
      · split
        · rename_i heq
          subst heq
          simp [get?, h]
        · simp [get?, ih]

theorem get?_insert (name other : String) (value : α) (fields : Fields α) :
    (fields.insert name value).get? other =
      if other = name then some value else fields.get? other := by
  split
  · next h => rw [h, get?_insert_self]
  · next h => exact get?_insert_of_ne h value fields

theorem get?_append (name : String) (fields more : Fields α) :
    get? name (fields ++ more) = (get? name fields).or (get? name more) := by
  induction fields with
  | nil => simp [get?]
  | cons p rest ih =>
      obtain ⟨k, v⟩ := p
      rw [List.cons_append, get?, get?]
      split
      · rfl
      · exact ih

theorem get?_eq_none {name : String} {fields : Fields α} (h : ∀ p ∈ fields, p.1 ≠ name) :
    get? name fields = none := by
  induction fields with
  | nil => rfl
  | cons p rest ih =>
      rw [get?, if_neg (h p List.mem_cons_self).symm]
      exact ih fun q hq => h q (List.mem_cons_of_mem _ hq)

theorem get?_ne_none_of_mem {p : String × α} {fields : Fields α} (h : p ∈ fields) :
    get? p.1 fields ≠ none := by
  induction fields with
  | nil => cases h
  | cons q rest ih =>
      rw [get?]
      split
      · exact Option.some_ne_none _
      · next hne =>
          rcases List.mem_cons.1 h with h | h
          · exact absurd (congrArg Prod.fst h) hne
          · exact ih h

theorem mem_of_get? {name : String} {value : α} {fields : Fields α}
    (h : get? name fields = some value) : (name, value) ∈ fields := by
  induction fields with
  | nil => cases h
  | cons q rest ih =>
      obtain ⟨k, v⟩ := q
      rw [get?] at h
      split at h
      · next heq =>
          cases h
          exact heq ▸ List.mem_cons_self
      · exact List.mem_cons_of_mem _ (ih h)

@[simp] theorem get?_optional (name other : String) (value : Option α) :
    get? other (optional name value) = if other = name then value else none := by
  cases value <;> simp [optional, get?]

theorem mem_optional {p : String × α} {name : String} {value : Option α}
    (h : p ∈ optional name value) : ∃ v, value = some v ∧ p = (name, v) := by
  cases value with
  | none => cases h
  | some v => exact ⟨v, rfl, List.mem_singleton.1 h⟩

@[simp] theorem reverse_optional (name : String) (value : Option α) :
    (optional name value).reverse = optional name value := by
  cases value <;> rfl

@[simp] theorem insertAll_nil (fields : Fields α) : insertAll fields [] = fields := rfl

theorem insertAll_cons (fields new : Fields α) (name : String) (value : α) :
    insertAll fields ((name, value) :: new) = insertAll (insert name value fields) new := rfl

/-- What is set last counts, and what is not set stays. -/
theorem get?_insertAll (name : String) (fields new : Fields α) :
    get? name (insertAll fields new) = (get? name new.reverse).or (get? name fields) := by
  induction new generalizing fields with
  | nil => simp [get?]
  | cons p rest ih =>
      obtain ⟨k, v⟩ := p
      rw [insertAll_cons, ih, get?_insert, List.reverse_cons, get?_append, Option.or_assoc]
      congr 1
      by_cases h : name = k <;> simp [get?, h]

theorem mem_insert {p : String × α} {name : String} {value : α} {fields : Fields α}
    (h : p ∈ insert name value fields) : p = (name, value) ∨ p ∈ fields := by
  induction fields with
  | nil => simpa [insert] using h
  | cons q rest ih =>
      rw [insert] at h
      split at h
      · simpa using h
      · split at h
        · rcases List.mem_cons.1 h with h | h
          · exact .inl h
          · exact .inr (List.mem_cons_of_mem _ h)
        · rcases List.mem_cons.1 h with h | h
          · exact .inr (h ▸ List.mem_cons_self)
          · exact (ih h).imp_right (List.mem_cons_of_mem _)

theorem mem_insert_of_ne {p : String × α} {fields : Fields α} (h : p ∈ fields) {name : String}
    (hne : p.1 ≠ name) (value : α) : p ∈ insert name value fields := by
  induction fields with
  | nil => cases h
  | cons q rest ih =>
      rw [insert]
      split
      · exact List.mem_cons_of_mem _ h
      · split
        · next heq =>
            rcases List.mem_cons.1 h with h | h
            · exact absurd (h ▸ heq.symm) hne
            · exact List.mem_cons_of_mem _ h
        · rcases List.mem_cons.1 h with h | h
          · exact h ▸ List.mem_cons_self
          · exact List.mem_cons_of_mem _ (ih h)

theorem mem_insertAll {p : String × α} {fields new : Fields α} (h : p ∈ insertAll fields new) :
    p ∈ new ∨ p ∈ fields := by
  induction new generalizing fields with
  | nil => exact .inr h
  | cons q rest ih =>
      obtain ⟨k, v⟩ := q
      rw [insertAll_cons] at h
      rcases ih h with h | h
      · exact .inl (List.mem_cons_of_mem _ h)
      · exact (mem_insert h).imp_left fun h => List.mem_cons.2 (.inl h)

/-- What is set by a new name is gone when it is erased. -/
theorem erase_insert {name : String} {fields : Fields α} (h : get? name fields = none)
    (value : α) : erase name (insert name value fields) = fields := by
  induction fields with
  | nil => simp [insert, erase]
  | cons p rest ih =>
      obtain ⟨k, v⟩ := p
      rw [get?] at h
      split at h
      · cases h
      · next hne =>
          rw [insert, if_neg hne]
          split
          · simp [erase]
          · rw [erase, if_neg hne, ih h]

/-- Fields that a test of the name drops can be set without a trace. -/
theorem filter_insert {keep : String → Bool} {name : String} (h : keep name = false) (value : α)
    (fields : Fields α) :
    (insert name value fields).filter (fun p => keep p.1) = fields.filter fun p => keep p.1 := by
  induction fields with
  | nil => simp [insert, h]
  | cons p rest ih =>
      rw [insert]
      split
      · simp [h]
      · split
        · next heq => simp [h, ← heq]
        · simp only [List.filter_cons, ih]

theorem filter_insertAll (keep : String → Bool) (fields : Fields α) {new : Fields α}
    (h : ∀ p ∈ new, keep p.1 = false) :
    (insertAll fields new).filter (fun p => keep p.1) = fields.filter fun p => keep p.1 := by
  induction new generalizing fields with
  | nil => rfl
  | cons p rest ih =>
      rw [insertAll_cons, ih _ fun q hq => h q (List.mem_cons_of_mem _ hq),
        filter_insert (h p List.mem_cons_self)]

/-- The names increase, so that each occurs once. -/
def Increasing (fields : Fields α) : Prop := (fields.map Prod.fst).Pairwise (· < ·)

theorem increasing_nil : Increasing ([] : Fields α) := List.Pairwise.nil

theorem increasing_cons {p : String × α} {fields : Fields α} :
    Increasing (p :: fields) ↔ (∀ q ∈ fields, p.1 < q.1) ∧ Increasing fields := by
  simp [Increasing]

theorem Increasing.insert {fields : Fields α} (h : Increasing fields) (name : String) (value : α) :
    Increasing (fields.insert name value) := by
  induction fields with
  | nil => simp [Fields.insert, Increasing]
  | cons p rest ih =>
      have hp := increasing_cons.1 h
      rw [Fields.insert]
      split
      · next hlt =>
          refine increasing_cons.2 ⟨fun q hq => ?_, h⟩
          rcases List.mem_cons.1 hq with hq | hq
          · exact hq ▸ hlt
          · exact String.lt_trans hlt (hp.1 q hq)
      · split
        · next heq => exact increasing_cons.2 ⟨fun q hq => heq ▸ hp.1 q hq, hp.2⟩
        · next hlt hne =>
            refine increasing_cons.2 ⟨fun q hq => ?_, ih hp.2⟩
            rcases mem_insert hq with hq | hq
            · subst hq
              grind
            · exact hp.1 q hq

theorem Increasing.insertAll {fields : Fields α} (h : Increasing fields) (new : Fields α) :
    Increasing (insertAll fields new) := by
  induction new generalizing fields with
  | nil => exact h
  | cons p rest ih => exact ih (h.insert p.1 p.2)

/-- Where no name occurs twice, each has the value that stands with it. -/
theorem get?_eq_some_iff_mem {fields : Fields α} (h : (fields.map Prod.fst).Nodup) {name : String}
    {value : α} : get? name fields = some value ↔ (name, value) ∈ fields := by
  refine ⟨mem_of_get?, fun hmem => ?_⟩
  induction fields with
  | nil => cases hmem
  | cons p rest ih =>
      obtain ⟨hp, hrest⟩ := List.nodup_cons.1 h
      rw [get?]
      rcases List.mem_cons.1 hmem with rfl | hmem
      · exact if_pos rfl
      · have hne : name ≠ p.1 := fun heq => hp (heq ▸ List.mem_map_of_mem (f := Prod.fst) hmem)
        rw [if_neg hne]
        exact ih hrest hmem

theorem get?_perm {given other : Fields α} (h : given.Perm other)
    (hnames : (given.map Prod.fst).Nodup) (name : String) :
    get? name given = get? name other := by
  refine Option.ext fun value => ?_
  rw [get?_eq_some_iff_mem hnames, get?_eq_some_iff_mem ((h.map Prod.fst).nodup hnames), h.mem_iff]

theorem Increasing.nodup {fields : Fields α} (h : Increasing fields) :
    (fields.map Prod.fst).Nodup :=
  List.Pairwise.imp String.ne_of_lt h

/-- Fields in order are determined by what they hold for each name. -/
theorem Increasing.ext {a b : Fields α} (ha : Increasing a) (hb : Increasing b)
    (h : ∀ name, get? name a = get? name b) : a = b := by
  have ha' : a.Pairwise fun p q => p.1 < q.1 := List.pairwise_map.1 ha
  have hb' : b.Pairwise fun p q => p.1 < q.1 := List.pairwise_map.1 hb
  have hne : ∀ {p q : String × α}, p.1 < q.1 → p ≠ q :=
    fun hlt heq => String.ne_of_lt hlt (congrArg Prod.fst heq)
  have hperm : a.Perm b := by
    refine (List.perm_ext_iff_of_nodup (ha'.imp hne) (hb'.imp hne)).2 fun p => ?_
    rw [← get?_eq_some_iff_mem ha.nodup, h, get?_eq_some_iff_mem hb.nodup]
  exact List.Perm.eq_of_pairwise
    (fun _ _ _ _ hlt hgt => absurd hgt (String.lt_asymm hlt)) ha' hb' hperm

theorem insertAll_append (fields front rest : Fields α) :
    insertAll fields (front ++ rest) = insertAll (insertAll fields front) rest :=
  List.foldl_append

/-- Fields with different names can be set in any order. -/
theorem Increasing.insertAll_perm {fields given other : Fields α} (hfields : Increasing fields)
    (h : given.Perm other) (hnames : (given.map Prod.fst).Nodup) :
    Fields.insertAll fields given = Fields.insertAll fields other := by
  refine (hfields.insertAll given).ext (hfields.insertAll other) fun name => ?_
  have hperm : given.reverse.Perm other.reverse :=
    (List.reverse_perm given).trans (h.trans (List.reverse_perm other).symm)
  have hreverse : (given.reverse.map Prod.fst).Nodup :=
    ((List.reverse_perm given).symm.map Prod.fst).nodup hnames
  rw [get?_insertAll, get?_insertAll, get?_perm hperm hreverse]

/-- Among fields that are set in turn, some with different names can be set in another order. -/
theorem ofList_perm (front : Fields α) {given other : Fields α} (rest : Fields α)
    (h : given.Perm other) (hnames : (given.map Prod.fst).Nodup) :
    ofList (front ++ given ++ rest) = ofList (front ++ other ++ rest) := by
  have hfront := increasing_nil.insertAll front
  simp only [ofList, insertAll_append, hfront.insertAll_perm h hnames]

/-- So can fields of which the values are computed one by one. -/
theorem ofList_map_perm (f : α → β) (front : Fields α) {given other : Fields α} (rest : Fields α)
    (h : given.Perm other) (hnames : (given.map Prod.fst).Nodup) :
    ofList ((front ++ given ++ rest).map fun p => (p.1, f p.2)) =
      ofList ((front ++ other ++ rest).map fun p => (p.1, f p.2)) := by
  simp only [List.map_append]
  refine ofList_perm _ _ (h.map _) ?_
  rw [List.map_map]
  exact hnames

end Fields

end EventSearch
