import EventSearch.Proofs.Json.Reader
import Mathlib.Data.List.DropRight
import Mathlib.Data.List.Forall2

/-!
# Texts of arrays and objects

The text of an array or of an object is put together from the texts of its parts. It is read as
the array or the object of what its parts are read as, when there is one more level for them.
-/
namespace EventSearch.Json

/-- The text of an array of the given texts. -/
def arrayText (texts : List (List Char)) : List Char := '[' :: [','].intercalate texts ++ [']']

/-- The text of a member of an object, by the texts of its name and of its value. -/
structure MemberText where
  name : List Char
  value : List Char
deriving DecidableEq, Repr

def MemberText.text (m : MemberText) : List Char := m.name ++ ':' :: m.value

/-- The text of an object of the given members. -/
def objectText (members : List MemberText) : List Char :=
  '\x7b' :: [','].intercalate (members.map MemberText.text) ++ ['\x7d']

/-- The text is read as the member, whose value nests at most so deep. -/
def MemberText.Reads (levels : Nat) (m : MemberText) (member : String × Json) : Prop :=
  read? maxDepth m.name = some (.str member.1) ∧ read? levels m.value = some member.2

variable {levels depth fuel : Nat}

/-! ## Values in front of more text -/

theorem read?_eq_some {text : List Char} {v : Json} :
    read? depth text = some v ↔ ∃ blank, value? text.length depth (skipSpace text) =
      some (v, blank) ∧ skipSpace blank = [] := by
  unfold read?
  constructor
  · intro h
    obtain ⟨⟨value, blank⟩, hvalue, h⟩ := Option.bind_eq_some_iff.1 h
    dsimp only at h
    split at h
    · next hblank =>
        cases h
        exact ⟨blank, hvalue, List.isEmpty_iff.1 hblank⟩
    · cases h
  · rintro ⟨blank, hvalue, hblank⟩
    exact Option.bind_eq_some_iff.2 ⟨_, hvalue, if_pos (List.isEmpty_iff.2 hblank)⟩

theorem skipSpace_blank_append {blank : List Char} (h : skipSpace blank = [])
    (more : List Char) : skipSpace (blank ++ more) = skipSpace more := by
  have hempty : (blank.dropWhile isSpace).isEmpty = true := List.isEmpty_iff.2 h
  rw [skipSpace, List.dropWhile_append, hempty]
  rfl

theorem endsNumber_append {blank more : List Char} (h : skipSpace blank = [])
    (hmore : EndsNumber more) : EndsNumber (blank ++ more) := by
  cases blank with
  | nil => exact hmore
  | cons c blank =>
      refine endsNumber_cons ?_ (blank ++ more)
      have hc : isSpace c = true := List.dropWhile_eq_nil_iff.1 h c List.mem_cons_self
      exact extendsNumber_of_isSpace hc

/-- A text that is read as a value is read as that value wherever it stands. -/
theorem value?_of_read? {text more : List Char} {v : Json} (h : read? levels text = some v)
    (hmore : EndsNumber more) (hfuel : text.length ≤ fuel) (hdepth : levels ≤ depth) :
    ∃ blank, value? fuel depth (skipSpace (text ++ more)) = some (v, blank ++ more) ∧
      skipSpace blank = [] := by
  obtain ⟨blank, hvalue, hblank⟩ := read?_eq_some.1 h
  obtain ⟨part, rfl, hpart⟩ :=
    (value?_part hdepth).afterSpace (fun _ => value?_nil _ _) text v blank hvalue
  rw [List.length_append] at hfuel
  have hread := hpart fuel (by omega) (blank ++ more) (endsNumber_append hblank hmore)
  rw [← List.append_assoc] at hread
  exact ⟨blank, hread, hblank⟩

/-- With more levels the same is read. -/
theorem read?_mono {text : List Char} {v : Json} (h : read? levels text = some v)
    (hdepth : levels ≤ depth) : read? depth text = some v := by
  obtain ⟨blank, hvalue, hblank⟩ := value?_of_read? h endsNumber_nil (Nat.le_refl _) hdepth
  rw [List.append_nil, List.append_nil] at hvalue
  exact read?_eq_some.2 ⟨blank, hvalue, hblank⟩

/-- With fewer levels the same is read, if they are enough to read the text at all. -/
theorem read?_of_isSome {text : List Char} {v : Json} (h : read? depth text = some v)
    (hlevels : levels ≤ depth) (hsome : (read? levels text).isSome = true) :
    read? levels text = some v := by
  obtain ⟨w, hw⟩ := Option.isSome_iff_exists.1 hsome
  rw [read?_mono hw hlevels] at h
  rw [hw, h]

/-- White space around a text does not count. -/
theorem read?_padded {pre text post : List Char} {v : Json} (h : read? levels text = some v)
    (hpre : skipSpace pre = []) (hpost : skipSpace post = []) :
    read? levels (pre ++ (text ++ post)) = some v := by
  have hends : EndsNumber post := by
    have hspaces := endsNumber_append hpost endsNumber_nil
    rwa [List.append_nil] at hspaces
  have hfuel : text.length ≤ (pre ++ (text ++ post)).length := by
    simp only [List.length_append]
    omega
  obtain ⟨blank, hvalue, hblank⟩ := value?_of_read? h hends hfuel (Nat.le_refl levels)
  refine read?_eq_some.2 ⟨blank ++ post, ?_, ?_⟩
  · rw [skipSpace_blank_append hpre, hvalue]
  · rw [skipSpace_blank_append hblank, hpost]

/-- The text between braces. -/
def braced (inner : List Char) : List Char := '\x7b' :: (inner ++ ['\x7d'])

/-- The text of an object stands between braces, with white space around it. -/
theorem exists_braced_of_read? {text : List Char} {members : Fields Json}
    (h : read? levels text = some (.obj members)) : ∃ pre inner post,
      text = pre ++ (braced inner ++ post) ∧ skipSpace pre = [] ∧ skipSpace post = [] ∧
        read? levels (braced inner) = some (.obj members) := by
  obtain ⟨post, hvalue, hpost⟩ := read?_eq_some.1 h
  obtain ⟨inner, hinner⟩ := eq_braces_of_value? hvalue
  obtain ⟨part, hpart, hread⟩ := value?_part (Nat.le_refl levels) _ _ _ hvalue
  have hbraced : part = braced inner := by
    refine List.append_cancel_right (hpart.symm.trans (hinner.trans ?_))
    simp [braced]
  have hspaces : skipSpace (text.takeWhile isSpace) = [] :=
    List.dropWhile_eq_nil_iff.2 fun _ => List.mem_takeWhile_imp
  refine ⟨text.takeWhile isSpace, inner, post, ?_, hspaces, hpost, ?_⟩
  · rw [← hbraced, ← hpart, skipSpace, List.takeWhile_append_dropWhile]
  · rw [hbraced] at hread
    have hsole := hread _ (Nat.le_refl _) [] endsNumber_nil
    rw [List.append_nil] at hsole
    exact read?_eq_some.2 ⟨[], hsole, rfl⟩

/-! ## Parts between commas -/

/-- Behind a part there is a comma or the closing bracket. -/
theorem endsNumber_rest {close : Char} (hclose : extendsNumber close = false)
    (texts : List (List Char)) (rest : List Char) :
    EndsNumber (texts.flatMap (',' :: ·) ++ close :: rest) := by
  cases texts with
  | nil => exact endsNumber_cons hclose _
  | cons text texts => exact endsNumber_cons rfl _

/-- The text is read as the value, and what is left of it is white space. -/
def ReadsText {β : Type} (read : List Char → Option (β × List Char)) (text : List Char) (v : β) :
    Prop :=
  ∀ more, EndsNumber more →
    ∃ blank, read (text ++ more) = some (v, blank ++ more) ∧ skipSpace blank = []

section Parts

variable {α β : Type} {close : Char} {add : α → β → α} {read : List Char → Option (β × List Char)}
  {texts : List (List Char)} {values : List β} (hcloses : Closes close read)
  (h : List.Forall₂ (ReadsText read) texts values)
include hcloses h

theorem moreParts_texts {count : Nat} (hcount : texts.length < count) {blank : List Char}
    (hblank : skipSpace blank = []) (acc : α) (rest : List Char) :
    moreParts close add read count acc (blank ++ (texts.flatMap (',' :: ·) ++ close :: rest)) =
      some (values.foldl add acc, rest) := by
  induction h generalizing count blank acc with
  | nil =>
      obtain ⟨count, rfl⟩ : ∃ n, count = n + 1 := ⟨count - 1, by omega⟩
      refine moreParts_close ((skipSpace_blank_append hblank _).trans ?_)
      exact List.dropWhile_cons_of_neg (by simp [hcloses.space])
  | @cons text v texts values hv _ ih =>
      obtain ⟨count, rfl⟩ : ∃ n, count = n + 1 := ⟨count - 1, by omega⟩
      obtain ⟨left, hvalue, hleft⟩ := hv _ (endsNumber_rest hcloses.ends texts rest)
      have hrest := ih (Nat.lt_of_succ_lt_succ hcount) hleft (add acc v)
      rw [List.flatMap_cons, List.append_assoc]
      exact (moreParts_comma hcloses.ne_comma (skipSpace_blank_append hblank _)).trans
        (Option.bind_eq_some_iff.2 ⟨_, hvalue, hrest⟩)

/-- The parts between brackets are read one by one from their texts. -/
theorem parts_texts {fuel : Nat} (hcount : texts.length ≤ fuel) (acc : α) (rest : List Char) :
    parts close add read fuel acc ([','].intercalate texts ++ close :: rest) =
      some (values.foldl add acc, rest) := by
  cases h with
  | nil => exact parts_close (List.dropWhile_cons_of_neg (by simp [hcloses.space]))
  | cons hv hvalues =>
      obtain ⟨left, hvalue, hleft⟩ := hv _ (endsNumber_rest hcloses.ends _ rest)
      rw [Text.intercalate_cons, List.append_assoc, hcloses.parts_of_read hvalue]
      exact moreParts_texts hcloses hvalues hcount hleft _ rest

end Parts

/-- A text between commas is long enough for the fuel that its parts need. -/
theorem lengths_le_intercalate (texts : List (List Char)) :
    texts.length ≤ ([','].intercalate texts).length + 1 ∧
      ∀ text ∈ texts, text.length ≤ ([','].intercalate texts).length := by
  have hrest (texts : List (List Char)) : texts.length ≤ (texts.flatMap (',' :: ·)).length ∧
      ∀ text ∈ texts, text.length ≤ (texts.flatMap (',' :: ·)).length := by
    induction texts with
    | nil => simp
    | cons text texts ih =>
        rw [List.flatMap_cons, List.length_append, List.length_cons, List.length_cons]
        refine ⟨by omega, List.forall_mem_cons.2 ⟨by omega, fun t ht => ?_⟩⟩
        have := ih.2 t ht
        omega
  cases texts with
  | nil => simp
  | cons text texts =>
      rw [Text.intercalate_cons, List.length_append, List.length_cons]
      have hlengths := hrest texts
      refine ⟨by omega, List.forall_mem_cons.2 ⟨by omega, fun t ht => ?_⟩⟩
      have := hlengths.2 t ht
      omega

/-! ## Arrays -/

theorem foldl_addItem (values acc : List Json) : values.foldl addItem acc = values.reverse ++ acc := by
  induction values generalizing acc with
  | nil => rfl
  | cons v values ih =>
      rw [List.foldl_cons, ih, List.reverse_cons, List.append_assoc]
      rfl

theorem readsText_item {text : List Char} {v : Json} (h : read? levels text = some v)
    (hfuel : text.length ≤ fuel) :
    ReadsText (fun cs => value? fuel levels (skipSpace cs)) text v := fun _ hmore =>
  value?_of_read? h hmore hfuel (Nat.le_refl levels)

/-- An array is read from the texts of its items. -/
theorem read?_arrayText {texts : List (List Char)} {values : List Json}
    (h : List.Forall₂ (fun text v => read? levels text = some v) texts values) :
    read? (levels + 1) (arrayText texts) = some (.arr values) := by
  have hlength : (arrayText texts).length = ([','].intercalate texts).length + 2 := by
    simp [arrayText]
  obtain ⟨hcount, hparts⟩ := lengths_le_intercalate texts
  have hitems : List.Forall₂ (ReadsText fun cs =>
      value? (arrayText texts).length levels (skipSpace cs)) texts values := by
    refine ((List.forall₂_and_left texts values).2 ⟨hparts, h⟩).imp fun text v hv => ?_
    exact readsText_item hv.2 (by omega)
  have hfuel : texts.length ≤ (arrayText texts).length := by omega
  have hread := @parts_texts _ _ _ addItem _ _ _ (closes_bracket _ levels) hitems _ hfuel [] []
  have hstart : skipSpace (arrayText texts) = '[' :: ([','].intercalate texts ++ [']']) := rfl
  refine read?_eq_some.2 ⟨[], ?_, rfl⟩
  rw [hstart, value?_array, hread, Option.map_some, foldl_addItem, List.append_nil,
    List.reverse_reverse]

/-! ## Objects -/

theorem MemberText.Reads.mono {m : MemberText} {member : String × Json} (h : m.Reads levels member)
    (hdepth : levels ≤ depth) : m.Reads depth member :=
  ⟨h.1, read?_mono h.2 hdepth⟩

/-- Texts of members that are read one by one. -/
theorem exists_forall₂_reads {members : List MemberText} {p : String × Json → Prop}
    (h : ∀ m ∈ members, ∃ member, m.Reads levels member ∧ p member) :
    ∃ pairs, List.Forall₂ (MemberText.Reads levels) members pairs ∧ ∀ pair ∈ pairs, p pair := by
  induction members with
  | nil => exact ⟨[], .nil, fun _ hpair => nomatch hpair⟩
  | cons m members ih =>
      obtain ⟨pair, hpair, hp⟩ := h m List.mem_cons_self
      obtain ⟨pairs, hpairs, hps⟩ := ih fun m' hm' => h m' (List.mem_cons_of_mem _ hm')
      exact ⟨pair :: pairs, .cons hpair hpairs, List.forall_mem_cons.2 ⟨hp, hps⟩⟩

theorem MemberText.length_value_le (m : MemberText) : m.value.length ≤ m.text.length := by
  rw [text, List.length_append, List.length_cons]
  omega

theorem readsText_member {m : MemberText} {member : String × Json} (h : m.Reads levels member)
    (hfuel : m.text.length ≤ fuel) : ReadsText (member? (value? fuel levels)) m.text member := by
  intro more hmore
  obtain ⟨left, hname, hleft⟩ := value?_of_read? h.1
    (@endsNumber_cons ':' rfl (m.value ++ more)) (Nat.le_refl _) (Nat.le_refl _)
  obtain ⟨body, hbody, hstring⟩ := string?_of_value? hname
  obtain ⟨blank, hvalue, hblank⟩ := value?_of_read? h.2 hmore
    (Nat.le_trans m.length_value_le hfuel) (Nat.le_refl levels)
  refine ⟨blank, ?_, hblank⟩
  have htext : m.text ++ more = m.name ++ ':' :: (m.value ++ more) := by
    simp [MemberText.text]
  have hcolon : skipSpace (left ++ ':' :: (m.value ++ more)) = ':' :: (m.value ++ more) :=
    skipSpace_blank_append hleft _
  unfold member?
  rw [htext, hbody]
  refine Option.bind_eq_some_iff.2 ⟨_, hstring, ?_⟩
  dsimp only
  rw [hcolon]
  exact Option.bind_eq_some_iff.2 ⟨_, hvalue, rfl⟩

/-- An object is read from the texts of its members. The last of a name counts. -/
theorem read?_objectText {members : List MemberText} {pairs : List (String × Json)}
    (h : List.Forall₂ (MemberText.Reads levels) members pairs) :
    read? (levels + 1) (objectText members) = some (object pairs) := by
  have hlength : (objectText members).length =
      ([','].intercalate (members.map MemberText.text)).length + 2 := by
    simp [objectText]
  obtain ⟨hcount, hparts⟩ := lengths_le_intercalate (members.map MemberText.text)
  have hmembers : List.Forall₂ (ReadsText (member? (value? (objectText members).length levels)))
      (members.map MemberText.text) pairs := by
    have hfuel := List.forall_mem_map.1 hparts
    rw [List.forall₂_map_left_iff]
    refine ((List.forall₂_and_left members pairs).2 ⟨hfuel, h⟩).imp fun m member hm => ?_
    exact readsText_member hm.2 (by omega)
  have hfuel : (members.map MemberText.text).length ≤ (objectText members).length := by omega
  have hread := @parts_texts _ _ _ addMember _ _ _ (closes_brace _ levels) hmembers _ hfuel [] []
  have hstart : skipSpace (objectText members) =
      '\x7b' :: ([','].intercalate (members.map MemberText.text) ++ ['\x7d']) := rfl
  refine read?_eq_some.2 ⟨[], ?_, rfl⟩
  rw [hstart, value?_object, hread, Option.map_some]
  rfl

end EventSearch.Json
