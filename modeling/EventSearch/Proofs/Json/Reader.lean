import EventSearch.Proofs.Json.Number
import Mathlib.Data.List.DropRight

/-!
# The part of a text that is a value

What is read at the start of a text takes up a part of it, and the rest is left. The same is
read from this part wherever it stands, unless a number could go on with what follows. More
levels of nesting make no difference, nor does fuel beyond the length of the part.
-/
namespace EventSearch.Json

/-! ## Texts between quotes -/

theorem stringBody_part {acc cs out rest : List Char} (h : stringBody acc cs = some (out, rest)) :
    ∃ part, cs = part ++ rest ∧ ReadAs (stringBody acc) part out := by
  fun_induction stringBody acc cs with
  | case1 acc => cases h
  | case2 acc left =>
      cases h
      exact ⟨['"'], rfl, fun more _ => rfl⟩
  | case3 acc a b c d left hunit => cases h
  | case4 acc a b c d left high hunit hvalid ih =>
      obtain ⟨part, rfl, hpart⟩ := ih h
      refine ⟨'\\' :: 'u' :: a :: b :: c :: d :: part, rfl, fun more hmore => ?_⟩
      simp only [List.cons_append, stringBody, hunit, hvalid, if_true, hpart more hmore]
  | case5 acc a b c d high hunit hvalid e f g i left hpair => cases h
  | case6 acc a b c d high hunit hvalid e f g i left both hpair ih =>
      obtain ⟨part, rfl, hpart⟩ := ih h
      refine ⟨'\\' :: 'u' :: a :: b :: c :: d :: '\\' :: 'u' :: e :: f :: g :: i :: part, rfl,
        fun more hmore => ?_⟩
      simp [stringBody, hunit, hvalid, hpair, hpart more hmore]
  | case7 acc a b c d left high hunit hvalid hpair => cases h
  | case8 acc c left hunit hescape => cases h
  | case9 acc c left hunit letter hescape ih =>
      have hletter : c ≠ 'u' := by
        rintro rfl
        cases hescape
      obtain ⟨part, rfl, hpart⟩ := ih h
      refine ⟨'\\' :: c :: part, rfl, fun more hmore => ?_⟩
      simp [stringBody, hletter, hescape, hpart more hmore]
  | case10 acc c left hquote hunit hescape hcontrol => cases h
  | case11 acc c left hquote hunit hescape hcontrol ih =>
      have hbackslash : c ≠ '\\' := by
        rintro rfl
        cases left with
        | nil => cases h
        | cons d left => exact hescape d left rfl rfl
      obtain ⟨part, rfl, hpart⟩ := ih h
      refine ⟨c :: part, rfl, fun more hmore => ?_⟩
      simp [stringBody, hbackslash, hcontrol, hpart more hmore]

theorem string?_part {cs rest : List Char} {s : String} (h : string? cs = some (s, rest)) :
    ∃ part, cs = part ++ rest ∧ ReadAs string? part s := by
  obtain ⟨⟨body, left⟩, hbody, heq⟩ := Option.map_eq_some_iff.1 h
  cases heq
  obtain ⟨part, rfl, hpart⟩ := stringBody_part hbody
  exact ⟨part, rfl, fun more hmore => Option.map_eq_some_iff.2 ⟨_, hpart more hmore, rfl⟩⟩

theorem scalar?_part {cs rest : List Char} {v : Json} (h : scalar? cs = some (v, rest)) :
    ∃ part, cs = part ++ rest ∧ ReadAs scalar? part v := by
  unfold scalar? at h
  split at h
  · cases h
    exact ⟨['n', 'u', 'l', 'l'], rfl, fun more _ => rfl⟩
  · cases h
    exact ⟨['t', 'r', 'u', 'e'], rfl, fun more _ => rfl⟩
  · cases h
    exact ⟨['f', 'a', 'l', 's', 'e'], rfl, fun more _ => rfl⟩
  · obtain ⟨⟨s, left⟩, hs, heq⟩ := Option.map_eq_some_iff.1 h
    cases heq
    obtain ⟨part, rfl, hpart⟩ := string?_part hs
    exact ⟨'"' :: part, rfl, fun more hmore =>
      Option.map_eq_some_iff.2 ⟨_, hpart more hmore, rfl⟩⟩
  · obtain ⟨part, rfl, hpart⟩ := number?_part h
    refine ⟨part, rfl, fun more hmore => ?_⟩
    have hnumber := hpart more hmore
    cases part with
    | nil => exact absurd rfl (hpart.ne_nil rfl)
    | cons c part =>
        have hc : c ≠ 'n' ∧ c ≠ 't' ∧ c ≠ 'f' ∧ c ≠ '"' := by
          have hhead := number?_eq_some_head hnumber
          refine ⟨?_, ?_, ?_, ?_⟩
          all_goals
            rintro rfl
            revert hhead
            decide
        unfold scalar?
        split
        · next heq => exact absurd (List.cons.inj heq).1 hc.1
        · next heq => exact absurd (List.cons.inj heq).1 hc.2.1
        · next heq => exact absurd (List.cons.inj heq).1 hc.2.2.1
        · next heq => exact absurd (List.cons.inj heq).1 hc.2.2.2
        · exact hnumber

/-! ## Arrays and objects -/

theorem skipSpace_eq_cons {cs left : List Char} {c : Char} (h : skipSpace cs = c :: left) :
    ∃ spaces, cs = spaces ++ c :: left ∧ ∀ more, skipSpace (spaces ++ c :: more) = c :: more := by
  have hspaces : ∀ d ∈ cs.takeWhile isSpace, isSpace d = true := fun _ => List.mem_takeWhile_imp
  have hc : isSpace c = false := by
    have hhead := List.head?_dropWhile_not isSpace cs
    rw [skipSpace] at h
    rw [h] at hhead
    exact hhead
  refine ⟨cs.takeWhile isSpace, ?_, fun more => ?_⟩
  · rw [← h, skipSpace, List.takeWhile_append_dropWhile]
  · rw [skipSpace, List.dropWhile_append_of_pos hspaces, List.dropWhile_cons_of_neg (by simp [hc])]

theorem extendsNumber_of_isSpace {c : Char} (h : isSpace c = true) : extendsNumber c = false := by
  simp only [isSpace, Bool.or_eq_true, beq_iff_eq] at h
  rcases h with ((rfl | rfl) | rfl) | rfl <;> rfl

theorem endsNumber_of_skipSpace {cs left : List Char} {c : Char} (hc : extendsNumber c = false)
    (h : skipSpace cs = c :: left) : EndsNumber cs := by
  cases cs with
  | nil => exact endsNumber_nil
  | cons d cs =>
      refine endsNumber_cons ?_ cs
      cases hd : isSpace d with
      | false =>
          rw [skipSpace, List.dropWhile_cons_of_neg (by simp [hd])] at h
          rw [(List.cons.inj h).1]
          exact hc
      | true => exact extendsNumber_of_isSpace hd

/-- What the first reader reads is a part of the text that the second one reads as well, with
fuel for each of its characters. -/
def ReadsPart {α : Type} (f : List Char → Option (α × List Char))
    (g : Nat → List Char → Option (α × List Char)) : Prop :=
  ∀ cs v rest, f cs = some (v, rest) →
    ∃ part, cs = part ++ rest ∧ ∀ fuel, part.length ≤ fuel → ReadAs (g fuel) part v

/-- White space in front of a part belongs to it. -/
theorem ReadsPart.afterSpace {α : Type} {f : List Char → Option (α × List Char)}
    {g : Nat → List Char → Option (α × List Char)} (h : ReadsPart f g)
    (hnil : ∀ fuel, g fuel [] = none) :
    ReadsPart (fun cs => f (skipSpace cs)) (fun fuel cs => g fuel (skipSpace cs)) := by
  intro cs v rest hread
  obtain ⟨part, hpart, hg⟩ := h _ v rest hread
  cases part with
  | nil => exact absurd rfl ((hg 0 (Nat.le_refl 0)).ne_nil (hnil 0))
  | cons c part =>
      obtain ⟨spaces, hcs, hspaces⟩ := skipSpace_eq_cons hpart
      refine ⟨spaces ++ c :: part, by rw [hcs]; simp, fun fuel hfuel more hmore => ?_⟩
      rw [List.append_assoc, List.cons_append]
      refine (congrArg (g fuel) (hspaces _)).trans (hg fuel ?_ more hmore)
      rw [List.length_append] at hfuel
      omega

/-! ## Parts between brackets -/

section Parts

variable {α β : Type}

/-- The remaining parts between brackets, each after a comma, up to the closing bracket. Arrays
and objects are both read by this loop, with parts of their own. -/
def moreParts (close : Char) (add : α → β → α) (read : List Char → Option (β × List Char)) :
    Nat → α → List Char → Option (α × List Char)
  | 0, _, _ => none
  | fuel + 1, acc, cs =>
      match skipSpace cs with
      | [] => none
      | c :: rest =>
          if c = close then some (acc, rest)
          else if c = ',' then
            (read rest).bind fun p => moreParts close add read fuel (add acc p.1) p.2
          else none

/-- The parts between brackets after the opening bracket. -/
def parts (close : Char) (add : α → β → α) (read : List Char → Option (β × List Char))
    (fuel : Nat) (acc : α) (cs : List Char) : Option (α × List Char) :=
  match skipSpace cs with
  | [] => none
  | c :: rest =>
      if c = close then some (acc, rest)
      else (read cs).bind fun p => moreParts close add read fuel (add acc p.1) p.2

variable {close : Char} {add : α → β → α} {acc : α} {count : Nat} {cs left rest : List Char}

section Steps

variable {read : List Char → Option (β × List Char)}

theorem moreParts_close (h : skipSpace cs = close :: left) :
    moreParts close add read (count + 1) acc cs = some (acc, left) := by
  rw [moreParts, h]
  exact if_pos rfl

theorem moreParts_comma (hclose : close ≠ ',') (h : skipSpace cs = ',' :: left) :
    moreParts close add read (count + 1) acc cs = (read left).bind fun p =>
      moreParts close add read count (add acc p.1) p.2 := by
  rw [moreParts, h]
  exact (if_neg hclose.symm).trans (if_pos rfl)

theorem parts_close (h : skipSpace cs = close :: left) :
    parts close add read count acc cs = some (acc, left) := by
  rw [parts, h]
  exact if_pos rfl

theorem parts_of_ne_close {c : Char} (hc : c ≠ close) (h : skipSpace cs = c :: left) :
    parts close add read count acc cs = (read cs).bind fun p =>
      moreParts close add read count (add acc p.1) p.2 := by
  rw [parts, h]
  exact if_neg hc

/-- After a part there is the closing bracket or a comma. -/
theorem moreParts_eq_some {p : α × List Char}
    (h : moreParts close add read (count + 1) acc cs = some p) :
    (∃ left, skipSpace cs = close :: left ∧ p = (acc, left)) ∨
      ∃ left v mid, skipSpace cs = ',' :: left ∧ read left = some (v, mid) ∧
        moreParts close add read count (add acc v) mid = some p := by
  rw [moreParts] at h
  split at h
  · cases h
  · next c left hstart =>
      split at h
      · next hclose =>
          cases hclose
          exact .inl ⟨left, hstart, (Option.some.inj h).symm⟩
      · split at h
        · next hcomma =>
            cases hcomma
            obtain ⟨⟨v, mid⟩, hv, h⟩ := Option.bind_eq_some_iff.1 h
            exact .inr ⟨left, v, mid, hstart, hv, h⟩
        · cases h

theorem endsNumber_of_moreParts (hclose : extendsNumber close = false) {p : α × List Char}
    (h : moreParts close add read count acc cs = some p) : EndsNumber cs := by
  cases count with
  | zero => cases h
  | succ count =>
      obtain ⟨_, hstart, -⟩ | ⟨_, _, _, hstart, -, -⟩ := moreParts_eq_some h
      · exact endsNumber_of_skipSpace hclose hstart
      · exact endsNumber_of_skipSpace rfl hstart

end Steps

/-- The bracket ends a list of what is read: it is no comma, no white space and no character of a
number, and nothing that is read starts with it. -/
structure Closes (close : Char) (read : List Char → Option (β × List Char)) : Prop where
  ne_comma : close ≠ ','
  ends : extendsNumber close = false
  space : isSpace close = false
  closed : ∀ {cs rest}, skipSpace cs = close :: rest → read cs = none
  nil : ∀ {cs}, skipSpace cs = [] → read cs = none

theorem Closes.parts_of_read {read : List Char → Option (β × List Char)} (h : Closes close read)
    {v : β} (hread : read cs = some (v, rest)) : parts close add read count acc cs =
      moreParts close add read count (add acc v) rest := by
  cases hstart : skipSpace cs with
  | nil =>
      rw [h.nil hstart] at hread
      cases hread
  | cons c left =>
      have hc : c ≠ close := by
        rintro rfl
        rw [h.closed hstart] at hread
        cases hread
      rw [parts_of_ne_close hc hstart, hread, Option.bind_some]

section Nested

variable {f : List Char → Option (β × List Char)} {g : Nat → List Char → Option (β × List Char)}
  (hread : ReadsPart f g) (hcloses : ∀ fuel, Closes close (g fuel))
include hread hcloses

theorem moreParts_part {v : α} (h : moreParts close add f count acc cs = some (v, rest)) :
    ∃ inner, cs = inner ++ close :: rest ∧ ∀ fuel count', inner.length ≤ fuel →
      inner.length < count' → ReadAs (moreParts close add (g fuel) count' acc) (inner ++ [close]) v := by
  induction count generalizing acc cs with
  | zero => cases h
  | succ count ih =>
      obtain ⟨left, hstart, heq⟩ | ⟨left, first, mid, hstart, hfirst, hrest⟩ := moreParts_eq_some h
      · cases heq
        obtain ⟨spaces, rfl, hspaces⟩ := skipSpace_eq_cons hstart
        refine ⟨spaces, rfl, fun fuel count' _ hcount more _ => ?_⟩
        obtain ⟨count', rfl⟩ : ∃ n, count' = n + 1 := ⟨count' - 1, by omega⟩
        rw [List.append_assoc]
        exact moreParts_close (hspaces more)
      · -- the comma, one part and all the parts that follow it
        obtain ⟨spaces, rfl, hspaces⟩ := skipSpace_eq_cons hstart
        obtain ⟨part, rfl, hpart⟩ := hread left first mid hfirst
        obtain ⟨inner, rfl, hinner⟩ := ih hrest
        refine ⟨spaces ++ ',' :: (part ++ inner), by simp, ?_⟩
        intro fuel count' hfuel hcount more hmore
        simp only [List.length_append, List.length_cons] at hfuel hcount
        obtain ⟨count', rfl⟩ : ∃ n, count' = n + 1 := ⟨count' - 1, by omega⟩
        have htail := hinner fuel count' (by omega) (by omega) more hmore
        have hends := endsNumber_of_moreParts (hcloses fuel).ends htail
        have hhead := hpart fuel (by omega) _ hends
        rw [List.append_assoc, List.append_assoc, List.cons_append, List.append_assoc,
          ← List.append_assoc inner, moreParts_comma (hcloses fuel).ne_comma (hspaces _)]
        exact Option.bind_eq_some_iff.2 ⟨_, hhead, htail⟩

/-- What stands between brackets ends with the closing one, and is read alike wherever it
stands. -/
theorem parts_part {v : α} (h : parts close add f count acc cs = some (v, rest)) :
    ∃ inner, cs = inner ++ close :: rest ∧ ∀ fuel, inner.length < fuel →
      ReadAs (parts close add (g fuel) fuel acc) (inner ++ [close]) v := by
  unfold parts at h
  split at h
  · cases h
  · next c left hstart =>
      split at h
      · next hclose =>
          cases hclose
          cases h
          obtain ⟨spaces, rfl, hspaces⟩ := skipSpace_eq_cons hstart
          refine ⟨spaces, rfl, fun fuel _ more _ => ?_⟩
          rw [List.append_assoc]
          exact parts_close (hspaces more)
      · obtain ⟨⟨first, mid⟩, hfirst, hrest⟩ := Option.bind_eq_some_iff.1 h
        obtain ⟨part, rfl, hpart⟩ := hread cs first mid hfirst
        obtain ⟨inner, rfl, hinner⟩ := moreParts_part hread hcloses hrest
        refine ⟨part ++ inner, by simp, fun fuel hfuel more hmore => ?_⟩
        rw [List.length_append] at hfuel
        have htail := hinner fuel fuel (by omega) (by omega) more hmore
        have hends := endsNumber_of_moreParts (hcloses fuel).ends htail
        have hhead := hpart fuel (by omega) _ hends
        rw [List.append_assoc, List.append_assoc, ← List.append_assoc inner]
        exact ((hcloses fuel).parts_of_read hhead).trans htail

end Nested

end Parts

/-! ## Arrays and objects -/

/-- The items of an array are gathered in reverse. -/
def addItem (acc : List Json) (v : Json) : List Json := v :: acc

/-- The last member of a name counts. -/
def addMember (acc : Fields Json) (member : String × Json) : Fields Json :=
  acc.insert member.1 member.2

section Lists

variable {item : List Char → Option (Json × List Char)} {count : Nat} {cs : List Char}

theorem moreItems_eq (acc : List Json) : moreItems item count acc cs =
    (moreParts ']' addItem (fun cs => item (skipSpace cs)) count acc cs).map fun p =>
      (p.1.reverse, p.2) := by
  induction count generalizing acc cs with
  | zero => rfl
  | succ count ih =>
      rw [moreItems]
      split
      · next hstart => rw [moreParts_close hstart, Option.map_some]
      · next left hstart =>
          rw [moreParts_comma (by decide) hstart, Option.map_bind]
          exact congrArg _ (funext fun p => ih (p.1 :: acc))
      · next hclose hcomma =>
          rw [moreParts]
          split
          · rfl
          · next c left hstart =>
              have hbracket : c ≠ ']' := by
                rintro rfl
                exact hclose left hstart
              have hother : c ≠ ',' := by
                rintro rfl
                exact hcomma left hstart
              rw [if_neg hbracket, if_neg hother, Option.map_none]

theorem items?_eq (hnil : item [] = none) : items? item count cs =
    (parts ']' addItem (fun cs => item (skipSpace cs)) count [] cs).map fun p =>
      (p.1.reverse, p.2) := by
  rw [items?]
  split
  · next hstart =>
      rw [parts_close hstart]
      rfl
  · next hclose =>
      cases hstart : skipSpace cs with
      | nil =>
          rw [parts, hstart, hnil]
          rfl
      | cons c left =>
          have hbracket : c ≠ ']' := by
            rintro rfl
            exact hclose left hstart
          rw [parts_of_ne_close hbracket hstart, ← hstart, Option.map_bind]
          exact congrArg _ (funext fun p => moreItems_eq [p.1])

theorem moreMembers_eq (acc : Fields Json) : moreMembers item count acc cs =
    moreParts '\x7d' addMember (member? item) count acc cs := by
  induction count generalizing acc cs with
  | zero => rfl
  | succ count ih =>
      rw [moreMembers]
      split
      · next hstart => rw [moreParts_close hstart]
      · next left hstart =>
          rw [moreParts_comma (by decide) hstart]
          exact congrArg _ (funext fun p => ih (addMember acc p.1))
      · next hclose hcomma =>
          rw [moreParts]
          split
          · rfl
          · next c left hstart =>
              have hbrace : c ≠ '\x7d' := by
                rintro rfl
                exact hclose left hstart
              have hother : c ≠ ',' := by
                rintro rfl
                exact hcomma left hstart
              rw [if_neg hbrace, if_neg hother]

/-- White space in front of a member does not count. -/
theorem member?_skipSpace (item : List Char → Option (Json × List Char)) (cs : List Char) :
    member? item (skipSpace cs) = member? item cs := by
  have hskip : skipSpace (skipSpace cs) = skipSpace cs := List.dropWhile_idempotent _ _
  unfold member?
  rw [hskip]

theorem members?_eq : members? item count cs =
    parts '\x7d' addMember (member? item) count [] cs := by
  rw [members?]
  split
  · next hstart => rw [parts_close hstart]
  · next hclose =>
      rw [member?_skipSpace]
      cases hstart : skipSpace cs with
      | nil =>
          rw [parts, hstart, member?, hstart]
          rfl
      | cons c left =>
          have hbrace : c ≠ '\x7d' := by
            rintro rfl
            exact hclose left hstart
          rw [parts_of_ne_close hbrace hstart]
          exact congrArg _ (funext fun p => moreMembers_eq (addMember [] p.1))

end Lists

section Nested

variable {f : List Char → Option (Json × List Char)}
  {g : Nat → List Char → Option (Json × List Char)}

theorem member?_part (hitem : ReadsPart f g) (hnil : ∀ fuel, g fuel [] = none) :
    ReadsPart (member? f) (fun fuel => member? (g fuel)) := by
  intro cs member rest h
  unfold member? at h
  split at h
  · next left hquote =>
      obtain ⟨⟨name, mid⟩, hname, h⟩ := Option.bind_eq_some_iff.1 h
      dsimp only at h
      split at h
      · next after hcolon =>
          obtain ⟨⟨value, last⟩, hvalue, h⟩ := Option.bind_eq_some_iff.1 h
          cases h
          obtain ⟨spaces, rfl, hspaces⟩ := skipSpace_eq_cons hquote
          obtain ⟨body, rfl, hbody⟩ := string?_part hname
          obtain ⟨gap, rfl, hgap⟩ := skipSpace_eq_cons hcolon
          obtain ⟨part, rfl, hpart⟩ := hitem.afterSpace hnil after value _ hvalue
          refine ⟨spaces ++ '"' :: (body ++ (gap ++ ':' :: part)), by simp, ?_⟩
          intro fuel hfuel more hmore
          simp only [List.length_append, List.length_cons] at hfuel
          have hvalue := hpart fuel (by omega) more hmore
          have hgapEnds : EndsNumber (gap ++ ':' :: (part ++ more)) :=
            endsNumber_of_skipSpace rfl (hgap _)
          simp only [List.append_assoc, List.cons_append]
          unfold member?
          rw [hspaces]
          refine Option.bind_eq_some_iff.2 ⟨_, hbody _ hgapEnds, ?_⟩
          dsimp only
          rw [hgap]
          exact Option.bind_eq_some_iff.2 ⟨_, hvalue, rfl⟩
      · cases h
  · cases h

end Nested

section Value

variable {fuel depth : Nat}

/-- What is read as a scalar starts neither an array nor an object. -/
theorem value?_of_scalar? {cs : List Char} {p : Json × List Char} (h : scalar? cs = some p) :
    value? fuel depth cs = some p := by
  cases depth with
  | zero => exact h
  | succ depth =>
      unfold value?
      split
      · cases h
      · cases h
      · exact h

theorem value?_nil (fuel depth : Nat) : value? fuel depth [] = none := by
  cases depth <;> rfl

theorem value?_bracket (fuel depth : Nat) (rest : List Char) :
    value? fuel depth (']' :: rest) = none := by
  cases depth <;> rfl

theorem value?_array (cs : List Char) : value? fuel (depth + 1) ('[' :: cs) =
    (parts ']' addItem (fun cs => value? fuel depth (skipSpace cs)) fuel [] cs).map fun p =>
      (.arr p.1.reverse, p.2) := by
  rw [value?, items?_eq (value?_nil fuel depth), Option.map_map]
  rfl

theorem value?_object (cs : List Char) : value? fuel (depth + 1) ('\x7b' :: cs) =
    (parts '\x7d' addMember (member? (value? fuel depth)) fuel [] cs).map fun p =>
      (.obj p.1, p.2) := by
  rw [value?, members?_eq]

theorem value?_eq_scalar? {cs : List Char} (harray : ∀ left, cs ≠ '[' :: left)
    (hobject : ∀ left, cs ≠ '\x7b' :: left) : value? fuel depth cs = scalar? cs := by
  cases depth with
  | zero => rfl
  | succ depth =>
      unfold value?
      split
      · exact absurd rfl (harray _)
      · exact absurd rfl (hobject _)
      · rfl

theorem closes_bracket (fuel depth : Nat) :
    Closes ']' (fun cs => value? fuel depth (skipSpace cs)) where
  ne_comma := by decide
  ends := rfl
  space := rfl
  closed hstart := by rw [hstart, value?_bracket]
  nil hstart := by rw [hstart, value?_nil]

theorem closes_brace (fuel depth : Nat) : Closes '\x7d' (member? (value? fuel depth)) where
  ne_comma := by decide
  ends := rfl
  space := rfl
  closed hstart := by
    rw [member?, hstart]
    rfl
  nil hstart := by rw [member?, hstart]

section Levels

variable {depth' : Nat} {left rest : List Char} {v : Json}
  (hitem : ReadsPart (value? fuel depth) (fun fuel' => value? fuel' depth'))
include hitem

theorem value?_array_part (h : value? fuel (depth + 1) ('[' :: left) = some (v, rest)) :
    ∃ inner, left = inner ++ ']' :: rest ∧ ∀ fuel', inner.length < fuel' →
      ReadAs (value? fuel' (depth' + 1)) ('[' :: (inner ++ [']'])) v := by
  rw [value?_array] at h
  obtain ⟨⟨acc, _⟩, hparts, heq⟩ := Option.map_eq_some_iff.1 h
  cases heq
  obtain ⟨inner, rfl, hinner⟩ := parts_part
    (hitem.afterSpace fun fuel' => value?_nil fuel' depth')
    (fun fuel' => closes_bracket fuel' depth') hparts
  refine ⟨inner, rfl, fun fuel' hfuel more hmore => ?_⟩
  rw [List.cons_append, value?_array, hinner fuel' hfuel more hmore, Option.map_some]

theorem value?_object_part (h : value? fuel (depth + 1) ('\x7b' :: left) = some (v, rest)) :
    ∃ inner, left = inner ++ '\x7d' :: rest ∧ ∀ fuel', inner.length < fuel' →
      ReadAs (value? fuel' (depth' + 1)) ('\x7b' :: (inner ++ ['\x7d'])) v := by
  rw [value?_object] at h
  obtain ⟨⟨members, _⟩, hparts, heq⟩ := Option.map_eq_some_iff.1 h
  cases heq
  obtain ⟨inner, rfl, hinner⟩ := parts_part
    (member?_part hitem fun fuel' => value?_nil fuel' depth')
    (fun fuel' => closes_brace fuel' depth') hparts
  refine ⟨inner, rfl, fun fuel' hfuel more hmore => ?_⟩
  rw [List.cons_append, value?_object, hinner fuel' hfuel more hmore, Option.map_some]

end Levels

theorem value?_scalar_part {depth' : Nat} {cs rest : List Char} {v : Json}
    (h : scalar? cs = some (v, rest)) : ∃ part, cs = part ++ rest ∧
      ∀ fuel', part.length ≤ fuel' → ReadAs (value? fuel' depth') part v := by
  obtain ⟨part, rfl, hpart⟩ := scalar?_part h
  exact ⟨part, rfl, fun _ _ more hmore => value?_of_scalar? (hpart more hmore)⟩

/-- The part of a text that is a value is read as this value wherever it stands. -/
theorem value?_part {depth' : Nat} (hdepth : depth ≤ depth') :
    ReadsPart (value? fuel depth) (fun fuel' => value? fuel' depth') := by
  -- on the levels of nesting: what stands between brackets has one level less
  induction depth generalizing depth' with
  | zero => exact fun cs v rest h => value?_scalar_part h
  | succ depth ih =>
      obtain ⟨depth', rfl⟩ : ∃ n, depth' = n + 1 := ⟨depth' - 1, by omega⟩
      have hitem : ReadsPart (value? fuel depth) (fun fuel' => value? fuel' depth') :=
        ih (Nat.le_of_succ_le_succ hdepth)
      intro cs v rest h
      by_cases harray : ∃ left, cs = '[' :: left
      · obtain ⟨left, rfl⟩ := harray
        obtain ⟨inner, rfl, hinner⟩ := value?_array_part hitem h
        refine ⟨'[' :: (inner ++ [']']), by simp, fun fuel' hfuel => hinner fuel' ?_⟩
        simp only [List.length_cons, List.length_append] at hfuel
        omega
      · by_cases hobject : ∃ left, cs = '\x7b' :: left
        · obtain ⟨left, rfl⟩ := hobject
          obtain ⟨inner, rfl, hinner⟩ := value?_object_part hitem h
          refine ⟨'\x7b' :: (inner ++ ['\x7d']), by simp, fun fuel' hfuel => hinner fuel' ?_⟩
          simp only [List.length_cons, List.length_append] at hfuel
          omega
        · rw [value?_eq_scalar? (fun left heq => harray ⟨left, heq⟩)
            (fun left heq => hobject ⟨left, heq⟩)] at h
          exact value?_scalar_part h

/-! ## What a text looks like by its value -/

/-- Only what stands between quotes is read as a string. -/
theorem string?_of_value? {s : String} {cs rest : List Char}
    (h : value? fuel depth cs = some (.str s, rest)) :
    ∃ body, cs = '"' :: body ∧ string? body = some (s, rest) := by
  have hscalar : scalar? cs = some (.str s, rest) := by
    cases depth with
    | zero => exact h
    | succ depth =>
        unfold value? at h
        split at h
        · obtain ⟨p, -, heq⟩ := Option.map_eq_some_iff.1 h
          cases heq
        · obtain ⟨p, -, heq⟩ := Option.map_eq_some_iff.1 h
          cases heq
        · exact h
  unfold scalar? at hscalar
  split at hscalar
  · cases hscalar
  · cases hscalar
  · cases hscalar
  · next body =>
      obtain ⟨⟨name, left⟩, hstring, heq⟩ := Option.map_eq_some_iff.1 hscalar
      cases heq
      exact ⟨body, rfl, hstring⟩
  · exact (isNumber_of_number? hscalar).elim

theorem scalar?_ne_obj {members : Fields Json} {cs rest : List Char} :
    scalar? cs ≠ some (.obj members, rest) := by
  intro h
  unfold scalar? at h
  split at h
  · cases h
  · cases h
  · cases h
  · obtain ⟨p, -, heq⟩ := Option.map_eq_some_iff.1 h
    cases heq
  · exact (isNumber_of_number? h).elim

/-- Only what stands between braces is read as an object. -/
theorem eq_braces_of_value? {members : Fields Json} {cs rest : List Char}
    (h : value? fuel depth cs = some (.obj members, rest)) :
    ∃ inner, cs = '\x7b' :: (inner ++ '\x7d' :: rest) := by
  cases depth with
  | zero => exact absurd h scalar?_ne_obj
  | succ depth =>
      by_cases hobject : ∃ left, cs = '\x7b' :: left
      · obtain ⟨left, rfl⟩ := hobject
        obtain ⟨inner, rfl, -⟩ := value?_object_part (value?_part (Nat.le_refl depth)) h
        exact ⟨inner, rfl⟩
      · by_cases harray : ∃ left, cs = '[' :: left
        · obtain ⟨left, rfl⟩ := harray
          rw [value?_array] at h
          obtain ⟨p, -, heq⟩ := Option.map_eq_some_iff.1 h
          cases heq
        · rw [value?_eq_scalar? (fun left heq => harray ⟨left, heq⟩)
            (fun left heq => hobject ⟨left, heq⟩)] at h
          exact absurd h scalar?_ne_obj

end Value

end EventSearch.Json
