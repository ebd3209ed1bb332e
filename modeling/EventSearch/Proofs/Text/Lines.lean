import EventSearch.Text.Character
import EventSearch.Text.Lines
import Mathlib.Data.List.DropRight
import Mathlib.Data.List.TakeWhile

/-!
# Lines and parts of a text, and white space at its ends
-/
namespace EventSearch.Text

/-! ## Lines -/

theorem linesFrom_cons {c : Char} (hc : c ≠ '\n') (current rest : List Char) :
    linesFrom current (c :: rest) = linesFrom (c :: current) rest := by
  rw [linesFrom]
  exact hc

theorem linesFrom_append_feed {line : List Char} (h : '\n' ∉ line) (current rest : List Char) :
    linesFrom current (line ++ '\n' :: rest) =
      dropReturn (current.reverse ++ line) :: linesFrom [] rest := by
  induction line generalizing current with
  | nil => rw [List.append_nil, List.nil_append, linesFrom]
  | cons c line ih =>
      have hc : c ≠ '\n' := fun heq => h (heq ▸ List.mem_cons_self)
      rw [List.cons_append, linesFrom_cons hc, ih fun hmem => h (List.mem_cons_of_mem _ hmem)]
      simp

theorem lines_append_feed {line : List Char} (h : '\n' ∉ line) (rest : List Char) :
    lines (line ++ '\n' :: rest) = dropReturn line :: lines rest :=
  linesFrom_append_feed h [] rest

theorem linesFrom_of_not_mem {line : List Char} (h : '\n' ∉ line) (current : List Char) :
    linesFrom current line =
      if (current.reverse ++ line).isEmpty then [] else [current.reverse ++ line] := by
  induction line generalizing current with
  | nil => simp [linesFrom]
  | cons c line ih =>
      have hc : c ≠ '\n' := fun heq => h (heq ▸ List.mem_cons_self)
      rw [linesFrom_cons hc, ih fun hmem => h (List.mem_cons_of_mem _ hmem)]
      simp

/-- A text without line ends is a line, unless it is empty. -/
theorem lines_of_not_mem {line : List Char} (h : '\n' ∉ line) (hne : line ≠ []) :
    lines line = [line] := by
  rw [lines, linesFrom_of_not_mem h]
  simp [hne]

/-- A carriage return is left out or nothing is. -/
theorem dropReturn_eq (line : List Char) :
    dropReturn line = line ∨ line = dropReturn line ++ ['\r'] := by
  unfold dropReturn
  split
  · next rest heq =>
      right
      rw [← List.reverse_reverse line, heq, List.reverse_cons]
  · exact .inl rfl

/-! ## White space at the ends -/

section Trim

variable {blank text : List Char}

theorem rdropWhile_append (p : Char → Bool) (text rest : List Char) :
    (text ++ rest).rdropWhile p =
      if (rest.rdropWhile p).isEmpty then text.rdropWhile p else text ++ rest.rdropWhile p := by
  simp only [List.rdropWhile, List.reverse_append, List.dropWhile_append, List.isEmpty_reverse]
  split
  · rfl
  · rw [List.reverse_append, List.reverse_reverse]

theorem rdropWhile_append_feed (line rest : List Char) :
    (line ++ '\n' :: rest).rdropWhile isBlank =
      if (rest.rdropWhile isBlank).isEmpty then line.rdropWhile isBlank
      else line ++ '\n' :: rest.rdropWhile isBlank := by
  have hfeed : (line ++ ['\n']).rdropWhile isBlank = line.rdropWhile isBlank :=
    List.rdropWhile_concat_pos _ _ _ rfl
  rw [List.append_cons, rdropWhile_append, hfeed, ← List.append_cons]

theorem trimChars_eq (text : List Char) :
    trimChars text = (text.dropWhile isBlank).rdropWhile isBlank := rfl

theorem trimChars_blank_append (h : ∀ c ∈ blank, isBlank c = true) (text : List Char) :
    trimChars (blank ++ text) = trimChars text := by
  rw [trimChars_eq, List.dropWhile_append_of_pos h, trimChars_eq]

theorem trimChars_of_blank (h : ∀ c ∈ blank, isBlank c = true) : trimChars blank = [] := by
  rw [trimChars_eq, List.dropWhile_eq_nil_iff.2 h, List.rdropWhile_nil]

theorem trimChars_eq_nil_iff : trimChars text = [] ↔ ∀ c ∈ text, isBlank c = true := by
  refine ⟨fun h => ?_, trimChars_of_blank⟩
  rw [trimChars_eq, List.rdropWhile_eq_nil_iff] at h
  -- what is left in front would begin with something else than white space
  rw [← List.dropWhile_eq_nil_iff]
  cases hrest : text.dropWhile isBlank with
  | nil => rfl
  | cons c rest =>
      have hc := List.head?_dropWhile_not isBlank text
      rw [hrest] at h hc
      have hblank : isBlank c = false := hc
      rw [h c List.mem_cons_self] at hblank
      cases hblank

theorem trimChars_append_blank (h : ∀ c ∈ blank, isBlank c = true) (text : List Char) :
    trimChars (text ++ blank) = trimChars text := by
  have hblank : blank.rdropWhile isBlank = [] := List.rdropWhile_eq_nil_iff.2 h
  rw [trimChars_eq, trimChars_eq, List.dropWhile_append]
  split
  · next hempty =>
      rw [List.dropWhile_eq_nil_iff.2 h, List.isEmpty_iff.1 hempty]
  · rw [rdropWhile_append, hblank]
    rfl

/-- Neither the first nor the last character is white space. -/
def Trimmed (text : List Char) : Prop :=
  (∀ c ∈ text.head?, isBlank c = false) ∧ ∀ c ∈ text.getLast?, isBlank c = false

theorem trimChars_of_trimmed (h : Trimmed text) : trimChars text = text := by
  obtain ⟨hhead, hlast⟩ := h
  have hdrop : text.dropWhile isBlank = text := by
    cases text with
    | nil => rfl
    | cons c rest => exact List.dropWhile_cons_of_neg (by simp [hhead c rfl])
  have hrdrop : text.rdropWhile isBlank = text := by
    refine List.rdropWhile_eq_self_iff.2 fun hne => ?_
    simp [hlast _ (List.getLast?_eq_some_getLast hne)]
  rw [trimChars_eq, hdrop, hrdrop]

theorem Trimmed.append {rest : List Char} (h : Trimmed text) (h' : Trimmed rest) :
    Trimmed (text ++ rest) := by
  unfold Trimmed
  rw [List.head?_append, List.getLast?_append]
  constructor
  · intro c hc
    rcases Option.or_eq_some_iff.1 hc with hc | ⟨-, hc⟩
    · exact h.1 c hc
    · exact h'.1 c hc
  · intro c hc
    rcases Option.or_eq_some_iff.1 hc with hc | ⟨-, hc⟩
    · exact h'.2 c hc
    · exact h.2 c hc

theorem trimmed_flatMap {α : Type} {f : α → List Char} {xs : List α}
    (h : ∀ x ∈ xs, Trimmed (f x)) : Trimmed (xs.flatMap f) := by
  induction xs with
  | nil => exact ⟨nofun, nofun⟩
  | cons x rest ih =>
      rw [List.flatMap_cons]
      exact (h x List.mem_cons_self).append (ih fun y hy => h y (List.mem_cons_of_mem x hy))

theorem trimmed_of_forall (h : ∀ c ∈ text, isBlank c = false) : Trimmed text :=
  ⟨fun c hc => h c (List.mem_of_head? hc), fun c hc => h c (List.mem_of_getLast? hc)⟩

/-- White space between two other characters is not at the ends. -/
theorem trimmed_between {first last : Char} (hfirst : isBlank first = false)
    (hlast : isBlank last = false) (inner : List Char) :
    Trimmed (first :: (inner ++ [last])) := by
  constructor
  · intro c hc
    cases hc
    exact hfirst
  · intro c hc
    rw [← List.cons_append, List.getLast?_concat] at hc
    cases hc
    exact hlast

theorem isBlank_head_trimChars {c : Char} (h : c ∈ (trimChars text).head?) :
    isBlank c = false := by
  have hne : trimChars text ≠ [] := by
    intro heq
    rw [heq] at h
    cases h
  obtain ⟨tail, htail⟩ := List.rdropWhile_prefix isBlank (text.dropWhile isBlank)
  have hhead : (text.dropWhile isBlank).head? = some c := by
    rw [← htail, ← trimChars_eq, List.head?_append_of_ne_nil _ hne]
    exact h
  have hblank := List.head?_dropWhile_not isBlank text
  rw [hhead] at hblank
  exact hblank

end Trim

/-! ## Parts between separators -/

/-- A text is split behind the characters of a class where another character or nothing
follows. -/
theorem takeWhile_dropWhile_iff {p : Char → Bool} {text body rest : List Char} :
    text.takeWhile p = body ∧ text.dropWhile p = rest ↔
      text = body ++ rest ∧ (∀ c ∈ body, p c = true) ∧ ∀ c ∈ rest.head?, p c = false := by
  constructor
  · rintro ⟨rfl, rfl⟩
    refine ⟨List.takeWhile_append_dropWhile.symm, fun _ => List.mem_takeWhile_imp,
      fun c hc => ?_⟩
    have hhead := List.head?_dropWhile_not p text
    rw [hc] at hhead
    exact hhead
  · rintro ⟨rfl, hbody, hrest⟩
    rw [List.takeWhile_append_of_pos hbody, List.dropWhile_append_of_pos hbody]
    cases rest with
    | nil => simp
    | cons c rest => simp [hrest c rfl]

/-- Two texts are told apart from what follows them, which does not begin with a character of their
class. -/
theorem append_inj_of_class {p : Char → Bool} {body other rest rest' : List Char}
    (hbody : ∀ c ∈ body, p c = true) (hother : ∀ c ∈ other, p c = true)
    (hrest : ∀ c ∈ rest.head?, p c = false) (hrest' : ∀ c ∈ rest'.head?, p c = false)
    (h : body ++ rest = other ++ rest') : body = other ∧ rest = rest' := by
  obtain ⟨htake, hdrop⟩ := takeWhile_dropWhile_iff.2 ⟨rfl, hbody, hrest⟩
  obtain ⟨htake', hdrop'⟩ := takeWhile_dropWhile_iff.2 ⟨rfl, hother, hrest'⟩
  rw [h] at htake hdrop
  exact ⟨htake.symm.trans htake', hdrop.symm.trans hdrop'⟩

/-- Parts in which the first character of the separator does not occur are told from the text with
the separator in front of each. -/
theorem flatMap_separator_inj {mark : Char} {tail : List Char} {texts others : List (List Char)}
    (htexts : ∀ t ∈ texts, mark ∉ t) (hothers : ∀ t ∈ others, mark ∉ t)
    (h : texts.flatMap (mark :: tail ++ ·) = others.flatMap (mark :: tail ++ ·)) :
    texts = others := by
  have hhead : ∀ parts : List (List Char),
      ∀ c ∈ (parts.flatMap (mark :: tail ++ ·)).head?, (c != mark) = false := by
    intro parts c hc
    cases parts with
    | nil => cases hc
    | cons part rest =>
        cases hc
        exact bne_self_eq_false mark
  induction texts generalizing others with
  | nil =>
      cases others with
      | nil => rfl
      | cons other rest => cases h
  | cons text texts ih =>
      cases others with
      | nil => cases h
      | cons other others =>
          simp only [List.flatMap_cons, List.append_assoc, List.append_cancel_left_eq] at h
          have hclass : ∀ {part : List Char}, mark ∉ part → ∀ c ∈ part, (c != mark) = true :=
            fun hmem c hc => bne_iff_ne.2 fun heq => hmem (heq ▸ hc)
          obtain ⟨htext, hrest⟩ := append_inj_of_class
            (hclass (htexts text List.mem_cons_self)) (hclass (hothers other List.mem_cons_self))
            (hhead texts) (hhead others) h
          rw [htext, ih (fun t ht => htexts t (List.mem_cons_of_mem _ ht))
            (fun t ht => hothers t (List.mem_cons_of_mem _ ht)) hrest]

/-- Every part but the first has the separator in front of it. -/
theorem intercalate_cons (separator : Char) (text : List Char) (texts : List (List Char)) :
    [separator].intercalate (text :: texts) = text ++ texts.flatMap (separator :: ·) := by
  induction texts generalizing text with
  | nil => simp
  | cons next rest ih => rw [List.intercalate_cons_cons, ih next, List.flatMap_cons]; simp

/-- With one more separator in front, every part has one. -/
theorem append_intercalate (separator : List Char) {texts : List (List Char)} (h : texts ≠ []) :
    separator ++ separator.intercalate texts = texts.flatMap (separator ++ ·) := by
  induction texts with
  | nil => exact absurd rfl h
  | cons text rest ih =>
      cases rest with
      | nil => simp
      | cons next rest =>
          rw [List.intercalate_cons_cons, List.flatMap_cons, ← ih (List.cons_ne_nil _ _)]
          simp

theorem mem_intercalate {separator : List Char} {texts : List (List Char)} {c : Char}
    (h : c ∈ separator.intercalate texts) : c ∈ separator ∨ ∃ t ∈ texts, c ∈ t := by
  have hne : texts ≠ [] := by
    rintro rfl
    cases h
  have hmem : c ∈ texts.flatMap (separator ++ ·) := by
    rw [← append_intercalate separator hne]
    exact List.mem_append_right _ h
  obtain ⟨t, ht, hc⟩ := List.mem_flatMap.1 hmem
  exact (List.mem_append.1 hc).imp_right fun hc => ⟨t, ht, hc⟩

theorem intercalate_ne_nil (separator : List Char) {text : List Char} (h : text ≠ [])
    (texts : List (List Char)) : separator.intercalate (text :: texts) ≠ [] := by
  cases texts with
  | nil => simpa using h
  | cons next rest =>
      rw [List.intercalate_cons_cons]
      simp [h]

/-- Parts that are not empty, and in which the first character of the separator does not occur, are
told from the text with the separator between them. -/
theorem intercalate_inj {mark : Char} {tail : List Char} {texts others : List (List Char)}
    (htexts : ∀ t ∈ texts, t ≠ [] ∧ mark ∉ t) (hothers : ∀ t ∈ others, t ≠ [] ∧ mark ∉ t)
    (h : (mark :: tail).intercalate texts = (mark :: tail).intercalate others) :
    texts = others := by
  match texts, others with
  | [], [] => rfl
  | text :: texts, [] =>
      exact absurd h (intercalate_ne_nil _ (htexts text List.mem_cons_self).1 texts)
  | [], other :: others =>
      exact absurd h.symm (intercalate_ne_nil _ (hothers other List.mem_cons_self).1 others)
  | text :: texts, other :: others =>
      have hflat : (text :: texts).flatMap (mark :: tail ++ ·) =
          (other :: others).flatMap (mark :: tail ++ ·) := by
        rw [← append_intercalate _ (List.cons_ne_nil text texts), h,
          append_intercalate _ (List.cons_ne_nil other others)]
      exact flatMap_separator_inj (fun t ht => (htexts t ht).2) (fun t ht => (hothers t ht).2) hflat

/-- No white space is at the ends when it is at the ends of no part. -/
theorem trimmed_intercalate {separator : Char} (hseparator : isBlank separator = false)
    {texts : List (List Char)} (h : ∀ text ∈ texts, Trimmed text) :
    Trimmed ([separator].intercalate texts) := by
  have hsingle : Trimmed [separator] := trimmed_of_forall (by simpa using hseparator)
  cases texts with
  | nil => exact ⟨nofun, nofun⟩
  | cons text rest =>
      have hrest : Trimmed (rest.flatMap (separator :: ·)) :=
        trimmed_flatMap fun t ht => hsingle.append (h t (List.mem_cons_of_mem text ht))
      rw [intercalate_cons]
      exact (h text List.mem_cons_self).append hrest

end EventSearch.Text
