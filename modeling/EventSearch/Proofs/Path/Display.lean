import EventSearch.Proofs.Path.Grammar

/-!
# Paths that are shown and read back

A path is shown as a literal behind the name of the event. Each segment is shown as a text that
writes it, with or without quotes, and no such text begins or ends with white space. So a
literal is read as the path that it was made from, whatever characters its segments have between
quotes, and the whole text is read as that path behind a segment for the event.
-/
namespace EventSearch

theorem isBlank_of_isIdentifierChar {c : Char} (h : isIdentifierChar c = true) :
    Text.isBlank c = false := by
  rcases Bool.or_eq_true_iff.1 h with h | h
  · exact Text.isBlank_of_isAlphanumeric h
  · cases eq_of_beq h
    decide

namespace EventPath

/-- The path has segments, and each of them can stand between quotes. -/
def IsWritable (p : EventPath) : Prop :=
  p.segments ≠ [] ∧ ∀ s ∈ p.segments, s ≠ "" ∧ '"' ∉ s.toList

/-- The texts of the segments with points between them. -/
def literal (p : EventPath) : String := String.intercalate "." (p.segments.map segmentText)

variable {p : EventPath} {s : String} {text : List Char}

/-! ## The text of a segment -/

theorem renders_segmentText (hne : s ≠ "") (hquote : '"' ∉ s.toList) :
    Renders s (segmentText s).toList := by
  have hne : s.toList ≠ [] := mt String.toList_eq_nil_iff.1 hne
  unfold segmentText
  split
  · next hidentifier =>
      have hall := (Bool.and_eq_true_iff.1 hidentifier).2
      exact .bare hne (List.all_eq_true.1 hall)
  · rw [String.toList_append, String.toList_append]
    exact .quoted hne hquote

theorem Renders.trimmed (h : Renders s text) : Text.Trimmed text := by
  cases h with
  | bare hne h => exact Text.trimmed_of_forall fun c hc => isBlank_of_isIdentifierChar (h c hc)
  | quoted hne h => exact Text.trimmed_between (by decide) (by decide) _

/-- Only what can stand between quotes is written at all. -/
theorem Renders.ne_and_not_mem (h : Renders s text) : s ≠ "" ∧ '"' ∉ s.toList := by
  cases h with
  | bare hne h =>
      refine ⟨mt String.toList_eq_nil_iff.2 hne, fun hmem => ?_⟩
      have hquote := h '"' hmem
      rw [isIdentifierChar_quote] at hquote
      cases hquote
  | quoted hne h => exact ⟨mt String.toList_eq_nil_iff.2 hne, h⟩

/-! ## The text of a path -/

theorem toList_literal (p : EventPath) :
    p.literal.toList = ['.'].intercalate (p.segments.map fun s => (segmentText s).toList) := by
  rw [literal, String.toList_intercalate, List.map_map]
  rfl

/-- What is written for a path is read as the path. -/
theorem parse_literal (h : p.IsWritable) : parse p.literal = .ok p := by
  obtain ⟨hne, hsegments⟩ := h
  have hrenders : ∀ s ∈ p.segments, Renders s (segmentText s).toList := by
    intro s hs
    obtain ⟨hs, hquote⟩ := hsegments s hs
    exact renders_segmentText hs hquote
  have htexts : List.Forall₂ Renders p.segments
      (p.segments.map fun s => (segmentText s).toList) := by
    rw [List.forall₂_map_right_iff, List.forall₂_same]
    exact hrenders
  have htrimmed : Text.Trimmed p.literal.toList := by
    rw [toList_literal]
    refine Text.trimmed_intercalate (by decide) (List.forall_mem_map.2 fun s hs => ?_)
    exact (hrenders s hs).trimmed
  rw [parse_eq_ok_segments, Text.trimChars_of_trimmed htrimmed, toList_literal]
  exact segments?_eq_some_nil.2 ⟨hne, _, htexts, rfl⟩

/-- The paths that can be written are those that some literal is read as. -/
theorem isWritable_iff : p.IsWritable ↔ ∃ literal, parse literal = .ok p := by
  constructor
  · intro h
    exact ⟨p.literal, parse_literal h⟩
  · rintro ⟨literal, h⟩
    obtain ⟨hne, texts, hrenders, -⟩ := segments?_eq_some_nil.1 (parse_eq_ok_segments.1 h)
    have hall : List.Forall₂ (fun s text => (s ≠ "" ∧ '"' ∉ s.toList) ∧ Renders s text)
        p.segments texts := hrenders.imp fun s text h => ⟨h.ne_and_not_mem, h⟩
    exact ⟨hne, ((List.forall₂_and_left p.segments texts).1 hall).1⟩

theorem segmentText_eventRoot : segmentText eventRoot = eventRoot := if_pos (by decide +kernel)

/-- A path is shown as the literal of the path behind a segment for the event. -/
theorem display_eq_literal (p : EventPath) : p.display = literal ⟨eventRoot :: p.segments⟩ := by
  rw [← String.toList_inj, toList_literal, List.map_cons, Text.intercalate_cons, display,
    segmentText_eventRoot, String.toList_append, String.toList_join, List.flatMap_map,
    List.flatMap_map]
  congr 2
  funext s
  rw [String.toList_append]
  rfl

theorem literal_eventRoot_cons (h : p.segments ≠ []) :
    literal ⟨eventRoot :: p.segments⟩ = "event." ++ p.literal := by
  obtain ⟨s, rest, hsegments⟩ := List.exists_cons_of_ne_nil h
  rw [literal, literal, List.map_cons, hsegments, List.map_cons, String.intercalate_cons_cons,
    segmentText_eventRoot]
  rfl

theorem isWritable_eventRoot_cons (h : p.IsWritable) :
    IsWritable ⟨eventRoot :: p.segments⟩ := by
  refine ⟨List.cons_ne_nil _ _, List.forall_mem_cons.2 ⟨?_, h.2⟩⟩
  decide

/-- A path is shown as a literal of it behind the event. The literal is read as the path, and the
whole text as the path behind a segment for the event, so that no two paths are shown alike. -/
theorem parse_display (h : p.IsWritable) :
    (∃ literal, p.display = "event." ++ literal ∧ parse literal = .ok p) ∧
      parse p.display = .ok ⟨"event" :: p.segments⟩ ∧
      ∀ q : EventPath, q.IsWritable → q.display = p.display → q = p := by
  have hread : ∀ {q : EventPath}, q.IsWritable →
      parse q.display = .ok ⟨eventRoot :: q.segments⟩ := by
    intro q hq
    rw [display_eq_literal, parse_literal (isWritable_eventRoot_cons hq)]
  refine ⟨⟨p.literal, ?_, parse_literal h⟩, hread h, fun q hq hsame => ?_⟩
  · rw [display_eq_literal, literal_eventRoot_cons h.1]
  · have hback := hread hq
    rw [hsame, hread h, Except.ok.injEq, mk.injEq, List.cons.injEq] at hback
    exact congrArg mk hback.2.symm

/-- Points, white space and the name of the event do not keep a segment from being read back. -/
theorem parse_display_zone : IsWritable ⟨["event", " zone.id\t", "été"]⟩ ∧
    parse (display ⟨["event", " zone.id\t", "été"]⟩) =
      .ok ⟨["event", "event", " zone.id\t", "été"]⟩ := by
  have h : IsWritable ⟨["event", " zone.id\t", "été"]⟩ := by
    refine ⟨List.cons_ne_nil _ _, ?_⟩
    decide
  exact ⟨h, (parse_display h).2.1⟩

end EventPath

end EventSearch
