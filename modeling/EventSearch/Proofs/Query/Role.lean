import EventSearch.Json.Basic
import Mathlib.Data.List.Basic

/-!
# Roles of values in documents

What a value in the document of a query stands for follows from the names that lead to it.
A document is sound when each condition in it, wherever it stands, is one that can be met, and
null occurs nowhere but in the metadata of a stream.
-/
namespace EventSearch

theorem forall_mem_pair {α : Type} {P : α → Prop} {a b : α} (ha : P a) (hb : P b) :
    ∀ x ∈ [a, b], P x := List.forall_mem_cons.2 ⟨ha, List.forall_mem_singleton.2 hb⟩

/-- What a value in a document stands for. Content is all that is read by its own form. -/
inductive Role where
  | document | pattern | event | filter | reference | metadata | projections | output | content
deriving DecidableEq, Repr

namespace Role

/-- Conditions stand among patterns, among the events of a switch, and as filters of streams. -/
def HoldsCondition (role : Role) : Prop := role = .pattern ∨ role = .event ∨ role = .filter

instance (role : Role) : Decidable role.HoldsCondition := inferInstanceAs (Decidable (_ ∨ _))

def isSwitch (owner : Fields Json) : Bool :=
  (Fields.get? "type" owner).bind Json.str? == some "switch"

/-- The members that are no content, by their names and in the objects of each role. -/
def members (owner : Fields Json) : Role → Fields Role
  | .document => [("projections", .projections), ("select", .pattern)]
  | .pattern =>
      [("args", .pattern), ("conds", if isSwitch owner then .event else .pattern),
        ("stream", .reference)]
  | .event => [("args", .event), ("stream", .reference)]
  | .filter => [("stream", .reference)]
  | .reference => [("filter", .filter), ("metadata", .metadata)]
  | .projections => [("explicit", .output)]
  | .output => [("stream", .reference)]
  | .metadata => []
  | .content => []

/-- The role of a member by its name. All that belongs to metadata is metadata. -/
def ofMember (owner : Fields Json) (role : Role) (name : String) : Role :=
  if role = .metadata then .metadata else (Fields.get? name (role.members owner)).getD .content

/-- The names that decide on the roles of members and on whether a condition can be met. -/
def reserved : List String := ["op", "arg", "path", "stream", "type", "args", "conds"]

/-- What is set by another name leaves the reserved members alone. -/
theorem get?_insert {name other : String} (hname : name ∉ reserved) (hother : other ∈ reserved)
    (value : Json) (owner : Fields Json) :
    Fields.get? other (Fields.insert name value owner) = Fields.get? other owner := by
  refine Fields.get?_insert_of_ne (fun heq => hname ?_) value owner
  exact heq ▸ hother

theorem ofMember_congr {owner other : Fields Json}
    (h : Fields.get? "type" owner = Fields.get? "type" other) (role : Role) (name : String) :
    ofMember owner role name = ofMember other role name := by
  have hswitch : isSwitch owner = isSwitch other := by rw [isSwitch, isSwitch, h]
  cases role <;> simp [ofMember, members, hswitch]

theorem ofMember_pattern {name : String} (h : name ∉ reserved) (owner : Fields Json) :
    ofMember owner .pattern name = .content := by
  have hnone : Fields.get? name (members owner .pattern) = none := by
    refine Fields.get?_eq_none fun p hp heq => h (heq ▸ ?_)
    simp only [members, List.mem_cons, List.not_mem_nil, or_false] at hp
    rcases hp with rfl | rfl | rfl <;> simp [reserved]
  rw [ofMember, if_neg (by decide), hnone]
  rfl

/-- The members of anything but a switch are patterns. -/
theorem ofMember_conds {type : String} (h : type ≠ "switch") (conds : Json) :
    ofMember [("conds", conds), ("type", .str type)] .pattern "conds" = .pattern := by
  simp [ofMember, members, isSwitch, Fields.get?, Json.str?, h]

end Role

namespace Json

/-- A value occurs in another one of a role, and has a role by the names that lead to it. The items
of an array have the role of the array. -/
inductive Occurs : Role → Json → Role → Json → Prop
  | here (role : Role) (j : Json) : Occurs role j role j
  | item {role r : Role} {items : List Json} {i j : Json} : i ∈ items →
      Occurs role i r j → Occurs role (.arr items) r j
  | member {role r : Role} {owner : Fields Json} {name : String} {value j : Json} :
      (name, value) ∈ owner → Occurs (role.ofMember owner name) value r j →
      Occurs role (.obj owner) r j

/-- An argument and, if it is a set, the values in it. -/
def literals (arg : Json) : List Json := arg :: ((arg.get? "val").bind arr?).getD []

def IsRegion (literal : Json) : Prop :=
  literal.get? "type" = some (.str "circle") ∨ literal.get? "type" = some (.str "polygon")

/-- A condition that can be met where it stands. Membership goes with a set, a region is compared
for equality only, and a stream is named only outside of switches and filters, and together with
a path of two segments or more. -/
structure CanBeMet (role : Role) (c : Json) : Prop where
  test : ∃ op arg, c.get? "op" = some (.str op) ∧ c.get? "arg" = some arg ∧
    (arg.get? "type" = some (.str "set") ↔ op = "in" ∨ op = "not in") ∧
    ∀ l ∈ arg.literals, l.IsRegion → l = arg ∧ op = "=="
  stream : (c.get? "stream").isSome → role = .pattern ∧
    ∃ segments, c.get? "path" = some (.arr segments) ∧ 2 ≤ segments.length

/-- Every condition in a value can be met, and there is no null in it but in metadata. -/
structure Sound (role : Role) (j : Json) : Prop where
  conditions : ∀ r c, Occurs role j r c → r.HoldsCondition → (c.get? "op").isSome → CanBeMet r c
  nulls : ∀ r, Occurs role j r .null → r = .metadata

variable {role : Role} {owner : Fields Json} {items : List Json} {j : Json}

theorem sound_obj
    (hself : role.HoldsCondition → (Fields.get? "op" owner).isSome → CanBeMet role (.obj owner))
    (hmembers : ∀ m ∈ owner, Sound (role.ofMember owner m.1) m.2) : Sound role (.obj owner) where
  conditions r c h hr hc := by
    cases h with
    | here => exact hself hr hc
    | member hm h => exact (hmembers _ hm).conditions r c h hr hc
  nulls r h := by
    cases h with
    | member hm h => exact (hmembers _ hm).nulls r h

theorem Sound.of_mem (h : Sound role (.obj owner)) {m : String × Json} (hm : m ∈ owner) :
    Sound (role.ofMember owner m.1) m.2 where
  conditions r c hc := h.conditions r c (.member hm hc)
  nulls r hr := h.nulls r (.member hm hr)

/-- What stands where there are no conditions is judged by its members. -/
theorem sound_record (hrole : ¬ role.HoldsCondition)
    (hmembers : ∀ m ∈ owner, Sound (role.ofMember owner m.1) m.2) : Sound role (.obj owner) :=
  sound_obj (fun h => absurd h hrole) hmembers

/-- What names no operator is no condition. -/
theorem sound_unconditional (hop : Fields.get? "op" owner = none)
    (hmembers : ∀ m ∈ owner, Sound (role.ofMember owner m.1) m.2) : Sound role (.obj owner) := by
  refine sound_obj (fun _ hsome => ?_) hmembers
  rw [hop] at hsome
  cases hsome

theorem occurs_of_get? {r : Role} {value : Json} (name : String)
    (hmember : Fields.get? name owner = some value)
    (h : Occurs (role.ofMember owner name) value r j) : Occurs role (.obj owner) r j :=
  .member (Fields.mem_of_get? hmember) h

theorem Sound.canBeMet (h : Sound role (.obj owner)) (hrole : role.HoldsCondition)
    (hop : (Fields.get? "op" owner).isSome) : CanBeMet role (.obj owner) :=
  h.conditions role _ (.here role _) hrole hop

theorem sound_arr (h : ∀ i ∈ items, Sound role i) : Sound role (.arr items) where
  conditions r c hc hr hop := by
    cases hc with
    | here => cases hop
    | item hi hc => exact (h _ hi).conditions r c hc hr hop
  nulls r hr := by
    cases hr with
    | item hi hr => exact (h _ hi).nulls r hr

def IsScalar : Json → Prop
  | .bool _ | .int _ _ | .double _ _ | .str _ => True
  | _ => False

theorem sound_of_isScalar (h : j.IsScalar) : Sound role j where
  conditions r c hc _ hop := by
    cases hc with
    | here => cases j <;> first | cases hop | exact h.elim
    | item _ _ => exact h.elim
    | member _ _ => exact h.elim
  nulls r hr := by
    cases hr with
    | here => exact h.elim
    | item _ _ => exact h.elim
    | member _ _ => exact h.elim

/-- Where all members keep the role of their owner, nothing has another role. -/
theorem Occurs.role_eq (hrole : ∀ owner name, role.ofMember owner name = role) {r : Role}
    {c : Json} (h : Occurs role j r c) : r = role := by
  induction h with
  | here => rfl
  | item _ _ ih => exact ih hrole
  | @member role r owner name value j _ _ ih =>
      rw [hrole owner name] at ih
      exact ih hrole

/-- Anything may be given as metadata. -/
theorem sound_metadata (j : Json) : Sound .metadata j where
  conditions r c hc hr _ := by
    cases hc.role_eq fun _ _ => rfl
    exact absurd hr (by decide)
  nulls r hr := hr.role_eq fun _ _ => rfl

theorem sound_content (h : ∀ m ∈ owner, Sound .content m.2) : Sound .content (.obj owner) :=
  sound_record (by decide) h

/-- A member of no reserved name does not matter to the other ones. -/
theorem Sound.insert (h : Sound .pattern (.obj owner)) {name : String} {value : Json}
    (hname : name ∉ Role.reserved) (hvalue : Sound .content value) :
    Sound .pattern (.obj (Fields.insert name value owner)) := by
  have hop := Role.get?_insert hname (by decide : "op" ∈ Role.reserved) value owner
  have harg := Role.get?_insert hname (by decide : "arg" ∈ Role.reserved) value owner
  have hpath := Role.get?_insert hname (by decide : "path" ∈ Role.reserved) value owner
  have hstream := Role.get?_insert hname (by decide : "stream" ∈ Role.reserved) value owner
  have htype := Role.get?_insert hname (by decide : "type" ∈ Role.reserved) value owner
  refine sound_obj (fun hrole hsome => ?_) fun m hm => ?_
  · rw [hop] at hsome
    have hmet := h.canBeMet hrole hsome
    constructor
    · simpa only [get?, hop, harg] using hmet.test
    · simpa only [get?, hstream, hpath] using hmet.stream
  · rw [Role.ofMember_congr htype]
    rcases Fields.mem_insert hm with hm | hm
    · subst hm
      rw [Role.ofMember_pattern hname]
      exact hvalue
    · exact h.of_mem hm

theorem Sound.insertAll (h : Sound .pattern (.obj owner)) {new : Fields Json}
    (hnew : ∀ m ∈ new, m.1 ∉ Role.reserved ∧ Sound .content m.2) :
    Sound .pattern (.obj (Fields.insertAll owner new)) := by
  induction new generalizing owner with
  | nil => exact h
  | cons m rest ih =>
      obtain ⟨hname, hvalue⟩ := hnew m List.mem_cons_self
      rw [Fields.insertAll_cons]
      exact ih (h.insert hname hvalue) fun p hp => hnew p (List.mem_cons_of_mem m hp)

end Json

end EventSearch
