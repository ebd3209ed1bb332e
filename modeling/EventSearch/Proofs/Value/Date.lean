import EventSearch.Proofs.Value.Literal
import Mathlib.Data.List.TakeDrop

/-!
# Reading back dates

The literal of a date is read as that date when its year is not negative, however many digits
the year has. The sign of a negative year is taken for the dash that ends a year: the year is
then empty, and no such literal is read at all.
-/
namespace EventSearch

namespace Date

open Text

/-- A text is split at its first two dashes. -/
theorem parts?_append {year month : List Char} (hyear : '-' ∉ year) (hmonth : '-' ∉ month)
    (day : List Char) :
    parts? (year ++ '-' :: (month ++ '-' :: day)) = some (year, month, day) := by
  have hsplit (part rest : List Char) (hpart : '-' ∉ part) :
      (part ++ '-' :: rest).span (fun c => !(c == '-')) = (part, '-' :: rest) := by
    have hall : ∀ c ∈ part, (!(c == '-')) = true := by
      intro c hc
      have hne : c ≠ '-' := fun h => hpart (h ▸ hc)
      simp [hne]
    rw [List.span_eq_takeWhile_dropWhile, List.takeWhile_append_of_pos hall,
      List.dropWhile_append_of_pos hall]
    simp
  simp only [parts?, hsplit _ _ hyear, hsplit _ _ hmonth]

theorem dash_not_mem_digitsIn (n : Nat) : '-' ∉ digitsIn 10 n := fun h =>
  ne_of_mem_digitsIn rfl h rfl

/-- The parts of the text around its dashes, of which the first may be a sign. -/
theorem toList_document (d : Date) :
    d.document.toList = (if d.year < 0 then ['-'] else []) ++ (digitsIn 10 d.year.natAbs ++
      '-' :: (digitsIn 10 d.month ++ '-' :: digitsIn 10 d.day)) := by
  by_cases h : d.year < 0 <;> simp [document, signed, decimal, h]

theorem parse?_document {d : Date} (h : 0 ≤ d.year) : parse? d.document = some d := by
  have hparts : parts? d.document.toList =
      some (digitsIn 10 d.year.natAbs, digitsIn 10 d.month, digitsIn 10 d.day) := by
    rw [toList_document, if_neg (Int.not_lt.2 h), List.nil_append]
    exact parts?_append (dash_not_mem_digitsIn _) (dash_not_mem_digitsIn _) _
  simp only [parse?, hparts, integer?_digitsIn, natural?_digitsIn, Option.bind_eq_bind,
    Option.bind_some, Int.natAbs_of_nonneg h]
  exact dif_pos d.valid

/-- Before the first dash of a negative year there is nothing. -/
theorem parse?_document_of_neg {d : Date} (h : d.year < 0) : parse? d.document = none := by
  have hparts : parts? d.document.toList =
      some ([], digitsIn 10 d.year.natAbs, digitsIn 10 d.month ++ '-' :: digitsIn 10 d.day) := by
    rw [toList_document, if_pos h]
    exact @parts?_append [] _ (by simp) (dash_not_mem_digitsIn _) _
  simp only [parse?, hparts]
  rfl

end Date

namespace Value

theorem decode_date_eq (d : Date) :
    decode (date d).encode =
      match Date.parse? d.document with
      | some read => .ok (date read)
      | none => .error (.badLiteral "date" (.str d.document)) := by
  rw [encode, decode_literal]
  simp only [decodeContent, tag, content, Json.str?, Option.bind_some]
  cases Date.parse? d.document <;> rfl

/-- The literal of a date is read back exactly when its year is not negative, and otherwise it
is refused as a bad literal. -/
theorem decode_encode_date (d : Date) :
    decode (date d).encode =
      if 0 ≤ d.year then .ok (date d) else .error (.badLiteral "date" (.str d.document)) := by
  rw [decode_date_eq]
  by_cases h : 0 ≤ d.year
  · rw [if_pos h, Date.parse?_document h]
  · rw [if_neg h, Date.parse?_document_of_neg (Int.not_le.1 h)]

/-- New Year's Day of the year before year 0 is a date whose literal is refused. -/
theorem decode_encode_yearBeforeZero :
    decode (date ⟨-1, 1, 1, by decide⟩).encode = .error (.badLiteral "date" (.str "-1-1-1")) ∧
      ¬ ∀ d, decode (date d).encode = .ok (date d) := by
  have hrefused : decode (date ⟨-1, 1, 1, by decide⟩).encode =
      .error (.badLiteral "date" (.str "-1-1-1")) := by
    rw [decode_date_eq, Date.parse?_document_of_neg (by decide)]
    rfl
  refine ⟨hrefused, fun h => ?_⟩
  rw [h ⟨-1, 1, 1, by decide⟩] at hrefused
  cases hrefused

end Value

end EventSearch
