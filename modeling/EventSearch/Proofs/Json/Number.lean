import EventSearch.Json.Reader
import EventSearch.Proofs.Text.Lines

/-!
# The part of a text that is a number

A number takes up a part of a text. It is read from this part wherever it stands, unless it could
go on with what follows.
-/
namespace EventSearch.Json

open Text

/-- A number that stands in front of such a character may go on with it. -/
def extendsNumber (c : Char) : Bool := isDigit c || c == '.' || c == 'e' || c == 'E'

/-- Numbers end in front of this text. -/
def EndsNumber (more : List Char) : Prop := ∀ c ∈ more.head?, extendsNumber c = false

theorem endsNumber_nil : EndsNumber [] := fun _ h => nomatch h

theorem endsNumber_cons {c : Char} (hc : extendsNumber c = false) (rest : List Char) :
    EndsNumber (c :: rest) := by
  rintro d ⟨⟩
  exact hc

/-- The part is read as the value, and what follows it is left. -/
def ReadAs {α : Type} (f : List Char → Option (α × List Char)) (part : List Char) (v : α) : Prop :=
  ∀ more, EndsNumber more → f (part ++ more) = some (v, more)

theorem ReadAs.ne_nil {α : Type} {f : List Char → Option (α × List Char)} {part : List Char} {v : α}
    (h : ReadAs f part v) (hnil : f [] = none) : part ≠ [] := by
  rintro rfl
  have hread : f [] = some (v, []) := h [] endsNumber_nil
  rw [hnil] at hread
  cases hread

/-- What a text does not start with, no text starts with that has the same part in front. -/
theorem append_ne_cons {part rest : List Char} {c : Char} (hne : part ≠ [])
    (h : ∀ tail, part ++ rest ≠ c :: tail) (more tail : List Char) : part ++ more ≠ c :: tail := by
  cases part with
  | nil => exact absurd rfl hne
  | cons d part =>
      intro heq
      exact h (part ++ rest) (congrArg (· :: (part ++ rest)) (List.cons.inj heq).1)

/-! ## Numbers -/

/-- Digits end in front of this text. -/
def EndsDigits (more : List Char) : Prop := ∀ c ∈ more.head?, isDigit c = false

/-- Whether an exponent starts here. -/
def startsExponent (cs : List Char) : Bool := cs.head? == some 'e' || cs.head? == some 'E'

section Ends

variable {more : List Char} (hmore : EndsNumber more)
include hmore

theorem EndsNumber.endsDigits : EndsDigits more := by
  intro c hc
  have h := hmore c hc
  simp only [extendsNumber, Bool.or_eq_false_iff] at h
  exact h.1.1.1

theorem EndsNumber.ne_point (rest : List Char) : more ≠ '.' :: rest := by
  rintro rfl
  cases hmore '.' rfl

theorem EndsNumber.startsExponent_eq_false : startsExponent more = false := by
  cases more with
  | nil => rfl
  | cons c rest =>
      have h := hmore c rfl
      simp only [extendsNumber, Bool.or_eq_false_iff, beq_eq_false_iff_ne] at h
      simp [startsExponent, h.1.2, h.2]

end Ends

theorem startsExponent_append {part more : List Char} (hmore : EndsNumber more) :
    startsExponent (part ++ more) = startsExponent part := by
  cases part with
  | nil => exact hmore.startsExponent_eq_false
  | cons c part => rfl

/-- The digits at the start are the same when the text behind them changes but for a part at its
start. -/
theorem takeWhile_dropWhile_append {cs part rest more : List Char}
    (h : cs.dropWhile isDigit = part ++ rest) (hmore : EndsDigits more) :
    (cs.takeWhile isDigit ++ (part ++ more)).takeWhile isDigit = cs.takeWhile isDigit ∧
      (cs.takeWhile isDigit ++ (part ++ more)).dropWhile isDigit = part ++ more := by
  obtain ⟨-, hdigits, hrest⟩ := takeWhile_dropWhile_iff.1 ⟨rfl, h⟩
  have hends : EndsDigits (part ++ more) := by
    cases part with
    | nil => exact hmore
    | cons d part => exact hrest
  exact takeWhile_dropWhile_iff.2 ⟨rfl, hdigits, hends⟩

/-- The digits of an exponent whose sign is known. -/
def exponentDigits? (down : Bool) (cs : List Char) : Option (Bool × Nat × List Char) :=
  if (cs.takeWhile isDigit).isEmpty then none
  else some (down, ofDigits (cs.takeWhile isDigit), cs.dropWhile isDigit)

/-- A double of known sign. -/
def signedDouble? (negative : Bool) (d : Double) : Option Json :=
  double? (if negative then d.neg else d)

/-- A double of which significand and power of ten are known when it has an exponent. -/
def withExponent? (negative : Bool) (significand : Nat) (power : Int) (down : Bool) (size : Nat) :
    Option Json :=
  if maxExponent < size then
    if significand ≠ 0 ∧ !down then none else signedDouble? negative (.zero false)
  else signedDouble? negative (scaled significand (if down then power - size else power + size))

/-- A number without fraction and exponent whose digits fit a word. -/
def wholeNumber? (negative : Bool) (significand : Nat) : Option Json :=
  if negative ∧ (significand = 0 ∨ Nat.pow 2 63 < significand) then
    double? (Double.ofRatio true significand 1)
  else int? (if negative then -significand else significand)

/-- A number without fraction of which the digits are known. -/
def withoutFraction (negative : Bool) (whole cs : List Char) : Option (Json × List Char) :=
  let (significand, dropped) := takeSignificand 0 whole
  if !dropped.isEmpty || startsExponent cs then
    finishDouble negative significand dropped.length cs
  else (wholeNumber? negative significand).map fun number => (number, cs)

/-- A number of which the digits of its whole part are known. -/
def afterWhole (negative : Bool) (whole cs : List Char) : Option (Json × List Char) :=
  match cs with
  | '.' :: rest =>
      fractionPart negative (takeSignificand 0 whole).1 (takeSignificand 0 whole).2.length rest
  | _ => withoutFraction negative whole cs

theorem afterWhole_of_ne_point {negative : Bool} {whole cs : List Char}
    (h : ∀ tail, cs ≠ '.' :: tail) :
    afterWhole negative whole cs = withoutFraction negative whole cs := by
  unfold afterWhole
  split
  · exact absurd rfl (h _)
  · rfl

theorem magnitude?_eq (negative : Bool) (cs : List Char) : magnitude? negative cs =
    if (cs.takeWhile isDigit).isEmpty ||
        ((cs.takeWhile isDigit).length > 1 && (cs.takeWhile isDigit).head? == some '0') then none
    else afterWhole negative (cs.takeWhile isDigit) (cs.dropWhile isDigit) := by
  unfold magnitude?
  dsimp only
  generalize cs.dropWhile isDigit = left
  split
  · rfl
  · split
    · rfl
    · next hpoint =>
        rw [afterWhole_of_ne_point hpoint, withoutFraction, startsExponent]
        dsimp only
        rw [← Bool.or_assoc]
        unfold wholeNumber?
        split
        · rfl
        · split <;> rfl

theorem exponent?_eq (cs : List Char) : exponent? cs = match cs with
    | '+' :: rest => exponentDigits? false rest
    | '-' :: rest => exponentDigits? true rest
    | _ => exponentDigits? false cs := by
  split
  · rfl
  · rfl
  · next hplus hminus =>
      unfold exponent?
      split
      next hsign =>
        split at hsign
        · exact absurd rfl (hplus _)
        · exact absurd rfl (hminus _)
        · cases hsign
          rfl

section Numbers

variable {negative down : Bool} {significand size : Nat} {power : Int} {cs rest : List Char}
  {v : Json}

theorem exponentDigits?_part (h : exponentDigits? negative cs = some (down, size, rest)) :
    ∃ part, cs = part ++ rest ∧ part ≠ [] ∧ ∀ more, EndsNumber more →
      exponentDigits? negative (part ++ more) = some (down, size, more) := by
  unfold exponentDigits? at h
  split at h
  · cases h
  · next hdigits =>
      cases h
      refine ⟨cs.takeWhile isDigit, List.takeWhile_append_dropWhile.symm, ?_, ?_⟩
      · exact fun heq => hdigits (List.isEmpty_iff.2 heq)
      · intro more hmore
        obtain ⟨htake, hdrop⟩ := takeWhile_dropWhile_append
          (List.nil_append (cs.dropWhile isDigit)).symm hmore.endsDigits
        rw [List.nil_append] at htake hdrop
        rw [exponentDigits?, htake, hdrop, if_neg hdigits]

theorem exponent?_part (h : exponent? cs = some (down, size, rest)) :
    ∃ part, cs = part ++ rest ∧ ∀ more, EndsNumber more →
      exponent? (part ++ more) = some (down, size, more) := by
  rw [exponent?_eq] at h
  split at h
  · obtain ⟨part, rfl, -, hpart⟩ := exponentDigits?_part h
    exact ⟨'+' :: part, rfl, fun more hmore => (exponent?_eq _).trans (hpart more hmore)⟩
  · obtain ⟨part, rfl, -, hpart⟩ := exponentDigits?_part h
    exact ⟨'-' :: part, rfl, fun more hmore => (exponent?_eq _).trans (hpart more hmore)⟩
  · next hplus hminus =>
      obtain ⟨part, rfl, hne, hpart⟩ := exponentDigits?_part h
      refine ⟨part, rfl, fun more hmore => ?_⟩
      rw [exponent?_eq]
      split
      · next heq => exact absurd heq (append_ne_cons hne hplus _ _)
      · next heq => exact absurd heq (append_ne_cons hne hminus _ _)
      · exact hpart more hmore

/-- Without an exponent the number ends. -/
theorem finishDouble_of_startsExponent (h : startsExponent cs = false) :
    finishDouble negative significand power cs =
      (signedDouble? negative (scaled significand power)).map fun number => (number, cs) := by
  cases cs with
  | nil => rfl
  | cons mark cs =>
      have hmark : ¬(mark = 'e' ∨ mark = 'E') := by simpa [startsExponent] using h
      exact if_neg hmark

theorem finishDouble_cons {mark : Char} (hmark : mark = 'e' ∨ mark = 'E') :
    finishDouble negative significand power (mark :: cs) =
      (exponent? cs).bind fun p =>
        (withExponent? negative significand power p.1 p.2.1).map fun number => (number, p.2.2) := by
  refine (if_pos hmark).trans (congrArg (exponent? cs).bind (funext fun p => ?_))
  unfold withExponent?
  dsimp only
  split
  · split <;> rfl
  · rfl

theorem finishDouble_part (h : finishDouble negative significand power cs = some (v, rest)) :
    ∃ part, cs = part ++ rest ∧ startsExponent part = startsExponent cs ∧
      ReadAs (finishDouble negative significand power) part v := by
  cases hstart : startsExponent cs with
  | false =>
      rw [finishDouble_of_startsExponent hstart] at h
      obtain ⟨number, hnumber, heq⟩ := Option.map_eq_some_iff.1 h
      cases heq
      refine ⟨[], rfl, rfl, fun more hmore => ?_⟩
      rw [List.nil_append, finishDouble_of_startsExponent hmore.startsExponent_eq_false, hnumber,
        Option.map_some]
  | true =>
      obtain ⟨mark, cs, rfl⟩ : ∃ mark left, cs = mark :: left := by
        cases cs with
        | nil => cases hstart
        | cons mark left => exact ⟨mark, left, rfl⟩
      have hmark : mark = 'e' ∨ mark = 'E' := by simpa [startsExponent] using hstart
      rw [finishDouble_cons hmark] at h
      obtain ⟨⟨down, size, left⟩, hexponent, h⟩ := Option.bind_eq_some_iff.1 h
      obtain ⟨number, hnumber, heq⟩ := Option.map_eq_some_iff.1 h
      cases heq
      obtain ⟨part, rfl, hpart⟩ := exponent?_part hexponent
      refine ⟨mark :: part, rfl, hstart, fun more hmore => ?_⟩
      rw [List.cons_append, finishDouble_cons hmark, hpart more hmore, Option.bind_some, hnumber,
        Option.map_some]

theorem fractionPart_part (h : fractionPart negative significand power cs = some (v, rest)) :
    ∃ part, cs = part ++ rest ∧ ReadAs (fractionPart negative significand power) part v := by
  unfold fractionPart at h
  dsimp only at h
  split at h
  · cases h
  · next hplaces =>
      obtain ⟨part, hdrop, -, hpart⟩ := finishDouble_part h
      refine ⟨cs.takeWhile isDigit ++ part, ?_, fun more hmore => ?_⟩
      · rw [List.append_assoc, ← hdrop, List.takeWhile_append_dropWhile]
      · obtain ⟨htake, hrest⟩ := takeWhile_dropWhile_append hdrop hmore.endsDigits
        rw [List.append_assoc, fractionPart, htake, hrest]
        exact (if_neg hplaces).trans (hpart more hmore)

theorem withoutFraction_part {whole : List Char}
    (h : withoutFraction negative whole cs = some (v, rest)) :
    ∃ part, cs = part ++ rest ∧ ReadAs (withoutFraction negative whole) part v := by
  unfold withoutFraction at h
  dsimp only at h
  split at h
  · next hdouble =>
      obtain ⟨part, hcs, hstart, hpart⟩ := finishDouble_part h
      refine ⟨part, hcs, fun more hmore => ?_⟩
      rw [withoutFraction, startsExponent_append hmore, hstart]
      exact (if_pos hdouble).trans (hpart more hmore)
  · next hwhole =>
      obtain ⟨number, hnumber, heq⟩ := Option.map_eq_some_iff.1 h
      cases heq
      refine ⟨[], rfl, fun more hmore => ?_⟩
      have hdropped : ¬(!(takeSignificand 0 whole).2.isEmpty || startsExponent more) = true := by
        rw [hmore.startsExponent_eq_false, Bool.or_false]
        exact fun heq => hwhole (Bool.or_eq_true_iff.2 (.inl heq))
      rw [List.nil_append, withoutFraction]
      refine (if_neg hdropped).trans ?_
      rw [hnumber, Option.map_some]

theorem afterWhole_part {whole : List Char} (h : afterWhole negative whole cs = some (v, rest)) :
    ∃ part, cs = part ++ rest ∧ ReadAs (afterWhole negative whole) part v := by
  unfold afterWhole at h
  split at h
  · obtain ⟨part, rfl, hpart⟩ := fractionPart_part h
    exact ⟨'.' :: part, rfl, hpart⟩
  · next hpoint =>
      obtain ⟨part, rfl, hpart⟩ := withoutFraction_part h
      refine ⟨part, rfl, fun more hmore => ?_⟩
      have hnext (tail : List Char) : part ++ more ≠ '.' :: tail := by
        cases part with
        | nil => exact hmore.ne_point tail
        | cons c part => exact append_ne_cons (List.cons_ne_nil c part) hpoint more tail
      rw [afterWhole_of_ne_point hnext]
      exact hpart more hmore

theorem magnitude?_part (h : magnitude? negative cs = some (v, rest)) :
    ∃ part, cs = part ++ rest ∧ ReadAs (magnitude? negative) part v := by
  rw [magnitude?_eq] at h
  split at h
  · cases h
  · next hwhole =>
      obtain ⟨part, hdrop, hpart⟩ := afterWhole_part h
      refine ⟨cs.takeWhile isDigit ++ part, ?_, fun more hmore => ?_⟩
      · rw [List.append_assoc, ← hdrop, List.takeWhile_append_dropWhile]
      · obtain ⟨htake, hrest⟩ := takeWhile_dropWhile_append hdrop hmore.endsDigits
        rw [List.append_assoc, magnitude?_eq, htake, hrest]
        exact (if_neg hwhole).trans (hpart more hmore)

theorem number?_part (h : number? cs = some (v, rest)) :
    ∃ part, cs = part ++ rest ∧ ReadAs number? part v := by
  unfold number? at h
  split at h
  · obtain ⟨part, rfl, hpart⟩ := magnitude?_part h
    exact ⟨'-' :: part, rfl, hpart⟩
  · next hminus =>
      obtain ⟨part, rfl, hpart⟩ := magnitude?_part h
      refine ⟨part, rfl, fun more hmore => ?_⟩
      unfold number?
      split
      · next heq => exact absurd heq (append_ne_cons (hpart.ne_nil rfl) hminus _ _)
      · exact hpart more hmore

/-- A number starts with a digit or a minus sign. -/
theorem number?_eq_some_head {c : Char} {p : Json × List Char} (h : number? (c :: cs) = some p) :
    c = '-' ∨ isDigit c = true := by
  unfold number? at h
  split at h
  · next heq => exact .inl (List.cons.inj heq).1
  · unfold magnitude? at h
    cases hc : isDigit c with
    | true => exact .inr rfl
    | false => simp [hc] at h

end Numbers

/-! ## Values of numbers -/

def IsNumber : Json → Prop
  | .int _ _ | .double _ _ => True
  | _ => False

section Values

variable {negative : Bool} {significand : Nat} {power : Int} {cs rest : List Char} {v : Json}

theorem isNumber_of_int? {n : Int} (h : int? n = some v) : v.IsNumber := by
  unfold int? at h
  split at h
  · cases h
    trivial
  · cases h

theorem isNumber_of_double? {d : Double} (h : double? d = some v) : v.IsNumber := by
  unfold double? at h
  split at h
  · cases h
    trivial
  · cases h

theorem isNumber_of_withExponent? {down : Bool} {size : Nat}
    (h : withExponent? negative significand power down size = some v) : v.IsNumber := by
  unfold withExponent? at h
  split at h
  · split at h
    · cases h
    · exact isNumber_of_double? h
  · exact isNumber_of_double? h

theorem isNumber_of_wholeNumber? (h : wholeNumber? negative significand = some v) :
    v.IsNumber := by
  unfold wholeNumber? at h
  split at h
  · exact isNumber_of_double? h
  · exact isNumber_of_int? h

theorem isNumber_of_finishDouble
    (h : finishDouble negative significand power cs = some (v, rest)) : v.IsNumber := by
  cases hstart : startsExponent cs with
  | false =>
      rw [finishDouble_of_startsExponent hstart] at h
      obtain ⟨number, hnumber, heq⟩ := Option.map_eq_some_iff.1 h
      cases heq
      exact isNumber_of_double? hnumber
  | true =>
      cases cs with
      | nil => cases hstart
      | cons mark cs =>
          rw [finishDouble_cons (by simpa [startsExponent] using hstart)] at h
          obtain ⟨p, -, h⟩ := Option.bind_eq_some_iff.1 h
          obtain ⟨number, hnumber, heq⟩ := Option.map_eq_some_iff.1 h
          cases heq
          exact isNumber_of_withExponent? hnumber

theorem isNumber_of_magnitude? (h : magnitude? negative cs = some (v, rest)) : v.IsNumber := by
  rw [magnitude?_eq] at h
  split at h
  · cases h
  · unfold afterWhole at h
    split at h
    · unfold fractionPart at h
      dsimp only at h
      split at h
      · cases h
      · exact isNumber_of_finishDouble h
    · unfold withoutFraction at h
      dsimp only at h
      split at h
      · exact isNumber_of_finishDouble h
      · obtain ⟨number, hnumber, heq⟩ := Option.map_eq_some_iff.1 h
        cases heq
        exact isNumber_of_wholeNumber? hnumber

theorem isNumber_of_number? (h : number? cs = some (v, rest)) : v.IsNumber := by
  unfold number? at h
  split at h <;> exact isNumber_of_magnitude? h

end Values

end EventSearch.Json
