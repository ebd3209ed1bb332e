import EventSearch.Json.Basic

/-!
# Objects listed in any order

The members of an object are in order of their names however they are listed. So a value does
not depend on the order in which its objects are listed, at whatever depth, as long as members
that change places have different names.
-/
namespace EventSearch.Json

mutual

/-- The value that is listed, with the members of all objects in order. -/
def sorted : Json → Json
  | .arr items => .arr (sortedItems items)
  | .obj members => .object (sortedMembers members)
  | other => other

def sortedItems : List Json → List Json
  | [] => []
  | item :: rest => item.sorted :: sortedItems rest

def sortedMembers : List (String × Json) → List (String × Json)
  | [] => []
  | (name, value) :: rest => (name, value.sorted) :: sortedMembers rest

end

/-- Listings of which one comes from the other when members with different names change places,
at any depth. -/
inductive Reordered : Json → Json → Prop
  | refl (j : Json) : Reordered j j
  | trans {a b c : Json} : Reordered a b → Reordered b c → Reordered a c
  | item (front rest : List Json) {a b : Json} :
      Reordered a b → Reordered (.arr (front ++ a :: rest)) (.arr (front ++ b :: rest))
  | member (front rest : List (String × Json)) (name : String) {a b : Json} :
      Reordered a b →
      Reordered (.obj (front ++ (name, a) :: rest)) (.obj (front ++ (name, b) :: rest))
  | members (front rest : List (String × Json)) {given other : List (String × Json)} :
      given.Perm other → (given.map Prod.fst).Nodup →
      Reordered (.obj (front ++ given ++ rest)) (.obj (front ++ other ++ rest))

theorem sortedItems_eq_map (items : List Json) : sortedItems items = items.map sorted := by
  induction items with
  | nil => rfl
  | cons item rest ih => exact congrArg (item.sorted :: ·) ih

theorem sortedMembers_eq_map (members : List (String × Json)) :
    sortedMembers members = members.map fun m => (m.1, m.2.sorted) := by
  induction members with
  | nil => rfl
  | cons m rest ih => exact congrArg ((m.1, m.2.sorted) :: ·) ih

theorem sorted_arr (items : List Json) : (arr items).sorted = .arr (items.map sorted) :=
  congrArg arr (sortedItems_eq_map items)

theorem sorted_obj (members : List (String × Json)) :
    (obj members).sorted = .object (members.map fun m => (m.1, m.2.sorted)) :=
  congrArg object (sortedMembers_eq_map members)

/-- Listings that differ in the order of members are of the same value. -/
theorem Reordered.sorted_eq {a b : Json} (h : Reordered a b) : a.sorted = b.sorted := by
  induction h with
  | refl j => rfl
  | trans _ _ ihfirst ihsecond => exact ihfirst.trans ihsecond
  | item front rest _ ih => simp only [sorted_arr, List.map_append, List.map_cons, ih]
  | member front rest name _ ih => simp only [sorted_obj, List.map_append, List.map_cons, ih]
  | members front rest hperm hnames =>
      rw [sorted_obj, sorted_obj, object, object,
        Fields.ofList_map_perm sorted front rest hperm hnames]

theorem Reordered.ofList_sortedMembers {given other : List (String × Json)}
    (h : Reordered (.obj given) (.obj other)) :
    Fields.ofList (sortedMembers given) = Fields.ofList (sortedMembers other) :=
  obj.inj h.sorted_eq

end EventSearch.Json
