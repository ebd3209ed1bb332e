import EventSearch.Span.Constraints

/-!
# Constraints stated in objects

Constraints are stated by members of an object that no other use is made of. Stating them in an
object that has none of these members leaves an object in which exactly they are stated.
-/
namespace EventSearch.Constraints

/-- The members by which the object states constraints are those of the given ones. -/
structure StatedIn (k : Constraints) (members : Fields Json) : Prop where
  within : Fields.get? "within" members = k.within.map Duration.encode
  after : Fields.get? "after" members = k.after.map Duration.encode
  length : Fields.get? "for" members = k.length.map Length.encode

/-- What is set among the constraints is set in the object, and all else is as it was. -/
theorem get?_insertAll_fields (k : Constraints) (name : String) (members : Fields Json) :
    Fields.get? name (Fields.insertAll members k.fields) =
      (Fields.get? name k.fields).or (Fields.get? name members) := by
  rw [Fields.get?_insertAll]
  congr 1
  simp only [fields, List.reverse_append, Fields.reverse_optional, Fields.get?_append,
    Fields.get?_optional]
  by_cases hw : name = "within"
  · simp [hw]
  · by_cases ha : name = "after" <;> simp [hw, ha]

theorem get?_fields (k : Constraints) (name : String) :
    Fields.get? name k.fields =
      if name = "within" then k.within.map Duration.encode
      else if name = "after" then k.after.map Duration.encode
      else if name = "for" then k.length.map Length.encode
      else none := by
  simp only [fields, Fields.get?_append, Fields.get?_optional]
  by_cases hw : name = "within"
  · simp [hw]
  · by_cases ha : name = "after" <;> simp [hw, ha]

section Insertion

variable (k : Constraints) (members : Fields Json)

theorem get?_within_insertAll :
    Fields.get? "within" (Fields.insertAll members k.fields) =
      (k.within.map Duration.encode).or (Fields.get? "within" members) := by
  rw [get?_insertAll_fields, get?_fields]
  rfl

theorem get?_after_insertAll :
    Fields.get? "after" (Fields.insertAll members k.fields) =
      (k.after.map Duration.encode).or (Fields.get? "after" members) := by
  rw [get?_insertAll_fields, get?_fields]
  rfl

theorem get?_for_insertAll :
    Fields.get? "for" (Fields.insertAll members k.fields) =
      (k.length.map Length.encode).or (Fields.get? "for" members) := by
  rw [get?_insertAll_fields, get?_fields]
  rfl

end Insertion

theorem statedIn_fields (k : Constraints) {members : Fields Json} (h : empty.StatedIn members) :
    k.StatedIn (Fields.insertAll members k.fields) where
  within := by simp [get?_within_insertAll, h.within, empty]
  after := by simp [get?_after_insertAll, h.after, empty]
  length := by simp [get?_for_insertAll, h.length, empty]

theorem eq_empty_of_isEmpty {k : Constraints} (h : k.isEmpty = true) : k = empty := by
  obtain ⟨within, after, length⟩ := k
  simp only [isEmpty, Bool.and_eq_true, Option.isNone_iff_eq_none] at h
  obtain ⟨⟨rfl, rfl⟩, rfl⟩ := h
  rfl

theorem apply_empty (j : Json) : empty.apply j = j := by
  cases j <;> rfl

/-- The names of the members by which constraints are stated. -/
def isKey (name : String) : Bool := name == "within" || name == "after" || name == "for"

theorem isKey_of_mem_fields {k : Constraints} {m : String × Json} (h : m ∈ k.fields) :
    isKey m.1 = true := by
  simp only [fields, Fields.optional, List.mem_append] at h
  rcases h with (h | h) | h
  all_goals
    split at h
    · cases List.mem_singleton.1 h
      rfl
    · cases h

/-- An object without members of these names states no constraints. -/
theorem statedIn_empty {members : Fields Json} (h : ∀ m ∈ members, isKey m.1 = false) :
    empty.StatedIn members := by
  have hnone : ∀ name, isKey name = true → Fields.get? name members = none := by
    intro name hname
    refine Fields.get?_eq_none fun m hm he => ?_
    rw [← he, h m hm] at hname
    cases hname
  exact ⟨hnone _ rfl, hnone _ rfl, hnone _ rfl⟩

/-- None of these names is found in an object that states no constraints. -/
theorem get?_eq_none_of_isKey {members : Fields Json} (h : empty.StatedIn members) {name : String}
    (hname : isKey name = true) : Fields.get? name members = none := by
  simp only [isKey, Bool.or_eq_true, beq_iff_eq] at hname
  rcases hname with (rfl | rfl) | rfl
  · exact h.within
  · exact h.after
  · exact h.length

end EventSearch.Constraints
