import EventSearch.Path.Reader
import EventSearch.Proofs.Text.Lines
import Mathlib.Data.List.Forall2

/-!
# The grammar of path literals

A path literal writes its segments one after the other with points between them. A literal
is read as the segments that it writes, and a text that writes no segments is not read.
-/
namespace EventSearch

theorem isIdentifierChar_point : isIdentifierChar '.' = false := by decide +kernel

theorem isIdentifierChar_quote : isIdentifierChar '"' = false := by decide +kernel

namespace EventPath

/-- The texts that write a segment: an identifier as it is, any segment but one with quotes
inside between quotes. -/
inductive Renders (s : String) : List Char → Prop
  | bare (hne : s.toList ≠ []) (h : ∀ c ∈ s.toList, isIdentifierChar c = true) :
      Renders s s.toList
  | quoted (hne : s.toList ≠ []) (h : '"' ∉ s.toList) : Renders s ('"' :: (s.toList ++ ['"']))

variable {s : String} {segments : List String} {text cs rest unread : List Char}
  {texts : List (List Char)} {fuel : Nat}

/-! ## One segment -/

theorem bareSegment?_eq_some :
    bareSegment? cs = some (s, rest) ↔ s.toList ≠ [] ∧ cs = s.toList ++ rest ∧
      (∀ c ∈ s.toList, isIdentifierChar c = true) ∧
      ∀ c ∈ rest.head?, isIdentifierChar c = false := by
  rw [← Text.takeWhile_dropWhile_iff, bareSegment?]
  split
  · next hempty =>
      rw [List.isEmpty_iff] at hempty
      exact ⟨nofun, fun ⟨hne, hbody, _⟩ => absurd (hbody.symm.trans hempty) hne⟩
  · next hne =>
      rw [List.isEmpty_iff] at hne
      rw [Option.some.injEq, Prod.mk.injEq, ← String.toList_inj, String.toList_ofList]
      exact ⟨fun ⟨hbody, hrest⟩ => ⟨hbody ▸ hne, hbody, hrest⟩, And.right⟩

theorem quotedSegment?_eq_some :
    quotedSegment? cs = some (s, rest) ↔
      s.toList ≠ [] ∧ '"' ∉ s.toList ∧ cs = '"' :: (s.toList ++ '"' :: rest) := by
  constructor
  · intro h
    unfold quotedSegment? at h
    split at h
    · next inner =>
        dsimp only at h
        split at h
        · next quote after hdrop =>
            obtain ⟨hinner, hbody, hhead⟩ := Text.takeWhile_dropWhile_iff.1 ⟨rfl, hdrop⟩
            obtain rfl : quote = '"' := by simpa using hhead quote rfl
            split at h
            · cases h
            · next hne =>
                cases h
                rw [List.isEmpty_iff] at hne
                rw [String.toList_ofList, ← hinner]
                exact ⟨hne, fun hmem => by simpa using hbody _ hmem, rfl⟩
        · cases h
    · cases h
  · rintro ⟨hne, hquotes, rfl⟩
    have hbody : ∀ c ∈ s.toList, (c != '"') = true :=
      fun c hc => bne_iff_ne.2 fun heq => hquotes (heq ▸ hc)
    have hclose : ∀ c ∈ ('"' :: rest).head?, (c != '"') = false := by simp
    obtain ⟨htake, hdrop⟩ := Text.takeWhile_dropWhile_iff.2 ⟨rfl, hbody, hclose⟩
    rw [quotedSegment?]
    simp only [htake, hdrop, List.isEmpty_iff, hne, if_false, String.ofList_toList]

theorem quotedSegment?_of_identifier {c : Char} (h : isIdentifierChar c = true) :
    quotedSegment? (c :: rest) = none := by
  rw [Option.eq_none_iff_forall_ne_some]
  rintro ⟨s, left⟩ hfound
  obtain ⟨-, -, heq⟩ := quotedSegment?_eq_some.1 hfound
  rw [(List.cons.inj heq).1, isIdentifierChar_quote] at h
  cases h

/-- A text that writes a segment is read as that segment, in front of anything that does not
go on with an identifier. -/
theorem Renders.segment?_append (h : Renders s text)
    (hrest : ∀ c ∈ rest.head?, isIdentifierChar c = false) :
    segment? (text ++ rest) = some (s, rest) := by
  cases h with
  | bare hne h =>
      obtain ⟨c, more, hs⟩ := List.exists_cons_of_ne_nil hne
      have hc : isIdentifierChar c = true := h c (hs ▸ List.mem_cons_self)
      have hquoted : quotedSegment? (s.toList ++ rest) = none := by
        rw [hs]
        exact quotedSegment?_of_identifier hc
      rw [segment?, hquoted]
      exact bareSegment?_eq_some.2 ⟨hne, rfl, h, hrest⟩
  | quoted hne h =>
      have hquoted : quotedSegment? ('"' :: (s.toList ++ ['"']) ++ rest) = some (s, rest) :=
        quotedSegment?_eq_some.2 ⟨hne, h, by simp⟩
      rw [segment?, hquoted]

/-- What is read as a segment is a text that writes it. -/
theorem renders_of_segment? (h : segment? cs = some (s, rest)) :
    ∃ text, Renders s text ∧ cs = text ++ rest := by
  unfold segment? at h
  split at h
  · next hfound =>
      cases h
      obtain ⟨hne, hquotes, rfl⟩ := quotedSegment?_eq_some.1 hfound
      exact ⟨_, .quoted hne hquotes, by simp⟩
  · obtain ⟨hne, rfl, hall, -⟩ := bareSegment?_eq_some.1 h
    exact ⟨_, .bare hne hall, rfl⟩

/-! ## The segments behind points -/

theorem moreSegments_point (hsegment : segment? cs = some (s, rest)) :
    moreSegments (fuel + 1) ('.' :: cs) =
      (s :: (moreSegments fuel rest).1, (moreSegments fuel rest).2) := by
  rw [moreSegments, hsegment]

/-- No identifier goes on where a point or nothing follows. -/
theorem head?_flatMap_point (texts : List (List Char)) :
    ∀ c ∈ (texts.flatMap ('.' :: ·)).head?, isIdentifierChar c = false := by
  cases texts with
  | nil => nofun
  | cons text texts =>
      rintro c (hc : some '.' = some c)
      cases hc
      exact isIdentifierChar_point

/-- The segments behind points are read one by one from their texts. -/
theorem moreSegments_texts (h : List.Forall₂ Renders segments texts)
    (hfuel : (texts.flatMap ('.' :: ·)).length ≤ fuel) :
    moreSegments fuel (texts.flatMap ('.' :: ·)) = (segments, []) := by
  induction h generalizing fuel with
  | nil => cases fuel <;> rfl
  | @cons s text segments texts hs _ ih =>
      rw [List.flatMap_cons, List.cons_append] at hfuel ⊢
      rw [List.length_cons, List.length_append] at hfuel
      obtain ⟨fuel, rfl⟩ : ∃ more, fuel = more + 1 := Nat.exists_eq_add_one.2 (by omega)
      rw [moreSegments_point (hs.segment?_append (head?_flatMap_point texts)), ih (by omega)]

/-- The segments that are read are written one by one, with a point in front of each. -/
theorem exists_texts_of_moreSegments (h : moreSegments fuel cs = (segments, unread)) :
    ∃ texts, List.Forall₂ Renders segments texts ∧
      cs = texts.flatMap ('.' :: ·) ++ unread := by
  induction fuel generalizing cs segments with
  | zero =>
      cases h
      exact ⟨[], .nil, rfl⟩
  | succ fuel ih =>
      unfold moreSegments at h
      split at h
      · next rest =>
          split at h
          · next s after hsegment =>
              cases h
              obtain ⟨text, hs, rfl⟩ := renders_of_segment? hsegment
              obtain ⟨texts, hmore, hafter⟩ := ih rfl
              exact ⟨text :: texts, .cons hs hmore, by simp [← hafter]⟩
          -- the point is left unread with what stands behind it
          · cases h
            exact ⟨[], .nil, rfl⟩
      · cases h
        exact ⟨[], .nil, rfl⟩

/-! ## Whole literals -/

theorem segments?_eq_some_nil :
    segments? cs = some (segments, []) ↔ segments ≠ [] ∧
      ∃ texts, List.Forall₂ Renders segments texts ∧ cs = ['.'].intercalate texts := by
  constructor
  · intro h
    obtain ⟨⟨s, rest⟩, hsegment, hrest⟩ := Option.bind_eq_some_iff.1 h
    obtain ⟨text, hs, rfl⟩ := renders_of_segment? hsegment
    cases hread : moreSegments rest.length rest with
    | mk more left =>
        dsimp only at hrest
        rw [hread] at hrest
        cases hrest
        obtain ⟨texts, hmore, hrest⟩ := exists_texts_of_moreSegments hread
        rw [List.append_nil] at hrest
        refine ⟨List.cons_ne_nil _ _, text :: texts, .cons hs hmore, ?_⟩
        rw [Text.intercalate_cons, hrest]
  · rintro ⟨hne, texts, hall, rfl⟩
    cases hall with
    | nil => cases hne rfl
    | @cons s text segments texts hs hmore =>
        rw [Text.intercalate_cons, segments?, hs.segment?_append (head?_flatMap_point texts),
          Option.bind_eq_bind, Option.bind_some]
        dsimp only
        rw [moreSegments_texts hmore (Nat.le_refl _)]

theorem parse_eq_ok_segments {literal : String} :
    parse literal = .ok ⟨segments⟩ ↔
      segments? (Text.trimChars literal.toList) = some (segments, []) := by
  unfold parse
  dsimp only
  split
  · next hnone => simp [hnone]
  · next found hfound => simp [hfound]
  · next found unread hne hfound =>
      rw [hfound]
      refine ⟨nofun, fun h => ?_⟩
      cases h
      cases hne rfl

/-- A literal is read as a list of segments exactly when there is a segment, and without the
white space at its ends the literal is texts of the segments with points between them. -/
theorem parse_eq_ok_iff {literal : String} {segments : List String} :
    parse literal = .ok ⟨segments⟩ ↔ segments ≠ [] ∧
      ∃ texts, List.Forall₂ Renders segments texts ∧
        Text.trimChars literal.toList = ['.'].intercalate texts :=
  parse_eq_ok_segments.trans segments?_eq_some_nil

/-- A point between quotes does not separate segments. -/
example : parse " a.\"b.c\"\n" = .ok ⟨["a", "b.c"]⟩ := by rfl

end EventPath

end EventSearch
