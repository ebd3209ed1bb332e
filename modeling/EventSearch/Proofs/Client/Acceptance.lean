import EventSearch.Proofs.Client.Framing
import EventSearch.Proofs.Outcome

/-!
# Bodies that are accepted

Either every part of a body gives its record or the whole body is refused. A body that is JSON
is accepted when it frames records. Any other is read by lines, and is accepted when each line
with something in it is a record by itself; otherwise the first line that is not gives the
fault, by its number among all lines.
-/
namespace EventSearch.Records

open Text (isBlank)
open Json (maxDepth)

/-! ## One line -/

/-- Whether there is something else than white space in the line. -/
def isFilled (line : List Char) : Bool := line.any fun c => !isBlank c

/-- The line by itself is the text of a record. -/
def States (line : List Char) (r : Record) : Prop := Json.read? maxDepth line = some (.obj r)

/-- Something is in the line that is not the text of a record. -/
def IsBad (line : List Char) : Prop := isFilled line = true ∧ ∀ r, ¬States line r

/-- What is wrong with a bad line of the given number. -/
def lineFault (number : Nat) (line : List Char) : RecordError :=
  match Json.read? maxDepth line with
  | some value => .lineNotObject number value
  | none => .badLine number

theorem message_lineFault (number : Nat) (line : List Char) (unreadable : String) :
    ∃ rest, (lineFault number line).message unreadable =
      "line " ++ Text.decimal number ++ ": " ++ rest := by
  rw [lineFault]
  cases Json.read? maxDepth line with
  | some value =>
      have hwords : ": expected a record object, found " =
          ": " ++ "expected a record object, found " := by rfl
      refine ⟨"expected a record object, found " ++ value.print, ?_⟩
      dsimp only [RecordError.message]
      rw [hwords]
      simp only [← String.append_assoc]
  | none => exact ⟨unreadable, rfl⟩

theorem isFilled_eq_false {line : List Char} :
    isFilled line = false ↔ ∀ c ∈ line, isBlank c = true := by
  simp [isFilled]

theorem isEmpty_trimChars (line : List Char) :
    (Text.trimChars line).isEmpty = !isFilled line := by
  rw [Bool.eq_iff_iff, List.isEmpty_iff, Text.trimChars_eq_nil_iff, Bool.not_eq_true',
    isFilled_eq_false]

section Line

variable {number : Nat} {line : List Char} {r : Record}

theorem ofLine?_of_not_filled (h : isFilled line = false) : ofLine? number line = .ok none :=
  ofLine?_blank (isFilled_eq_false.1 h)

theorem ofLine?_of_states (hfilled : isFilled line = true) (h : States line r) :
    ofLine? number line = .ok (some r) := by
  rw [ofLine?, isEmpty_trimChars, hfilled]
  simp only [Bool.not_true, Bool.false_eq_true, if_false]
  rw [h]

theorem ofLine?_of_isBad (h : IsBad line) :
    ofLine? number line = .error (lineFault number line) := by
  obtain ⟨hfilled, hnone⟩ := h
  rw [ofLine?, isEmpty_trimChars, hfilled, lineFault]
  simp only [Bool.not_true, Bool.false_eq_true, if_false]
  cases hread : Json.read? maxDepth line with
  | none => rfl
  | some value =>
      cases value with
      | obj members => exact absurd hread (hnone members)
      | _ => rfl

theorem line_cases (line : List Char) :
    isFilled line = false ∨ (isFilled line = true ∧ ∃ r, States line r) ∨ IsBad line := by
  cases hfilled : isFilled line with
  | false => exact .inl rfl
  | true =>
      by_cases hstates : ∃ r, States line r
      · exact .inr (.inl ⟨rfl, hstates⟩)
      · exact .inr (.inr ⟨hfilled, not_exists.1 hstates⟩)

end Line

/-! ## All lines -/

section Lines

variable {number : Nat} {line : List Char} {lines : List (List Char)} {r : Record}
  {records : List Record}

theorem ofLines_cons_of_not_filled (h : isFilled line = false) :
    ofLines number (line :: lines) = ofLines (number + 1) lines := by
  rw [ofLines, ofLine?_of_not_filled h]
  cases ofLines (number + 1) lines <;> rfl

theorem ofLines_cons_of_states (hfilled : isFilled line = true) (h : States line r) :
    ofLines number (line :: lines) = (ofLines (number + 1) lines).map (r :: ·) := by
  rw [ofLines, ofLine?_of_states hfilled h]
  cases ofLines (number + 1) lines <;> rfl

theorem ofLines_cons_of_isBad (h : IsBad line) :
    ofLines number (line :: lines) = .error (lineFault number line) := by
  rw [ofLines, ofLine?_of_isBad h]
  rfl

/-- Each line with something in it gives one record, in the order of the lines. -/
theorem ofLines_eq_ok_iff :
    ofLines number lines = .ok records ↔ List.Forall₂ States (lines.filter isFilled) records := by
  induction lines generalizing number records with
  | nil =>
      rw [ofLines, List.filter_nil, List.forall₂_nil_left_iff, Except.ok.injEq, eq_comm]
  | cons line lines ih =>
      rcases line_cases line with hblank | ⟨hfilled, r, hstates⟩ | hbad
      · rw [ofLines_cons_of_not_filled hblank, ih, List.filter_cons_of_neg (by simp [hblank])]
      · rw [ofLines_cons_of_states hfilled hstates, List.filter_cons_of_pos hfilled]
        constructor
        · intro h
          cases hrest : ofLines (number + 1) lines with
          | error e =>
              rw [hrest] at h
              cases h
          | ok rest =>
              rw [hrest] at h
              cases h
              exact .cons hstates (ih.1 hrest)
        · intro h
          cases h with
          | cons hfirst hrest =>
              cases Option.some.inj (hfirst.symm.trans hstates)
              rw [ih.2 hrest]
              rfl
      · rw [ofLines_cons_of_isBad hbad, List.filter_cons_of_pos hbad.1]
        constructor
        · intro h
          cases h
        · intro h
          cases h with
          | cons hstates _ => exact absurd hstates (hbad.2 _)

/-- The fault is that of the first bad line, by its number when the first line has the given
one. -/
def FirstFault (number : Nat) (lines : List (List Char)) (e : RecordError) : Prop :=
  ∃ before line after, lines = before ++ line :: after ∧ (∀ other ∈ before, ¬IsBad other) ∧
    IsBad line ∧ e = lineFault (number + before.length) line

theorem firstFault_nil {e : RecordError} : ¬FirstFault number [] e := by
  rintro ⟨before, line, after, h, -⟩
  exact List.append_ne_nil_of_right_ne_nil _ (List.cons_ne_nil _ _) h.symm

theorem firstFault_cons_of_isBad {e : RecordError} (h : IsBad line) :
    FirstFault number (line :: lines) e ↔ e = lineFault number line := by
  constructor
  · rintro ⟨before, bad, after, heq, hbefore, -, rfl⟩
    cases before with
    | nil =>
        cases heq
        rfl
    | cons other before =>
        cases heq
        exact absurd h (hbefore line List.mem_cons_self)
  · intro he
    exact ⟨[], line, lines, rfl, List.forall_mem_nil _, h, he⟩

theorem firstFault_cons_of_not_isBad {e : RecordError} (h : ¬IsBad line) :
    FirstFault number (line :: lines) e ↔ FirstFault (number + 1) lines e := by
  constructor
  · rintro ⟨before, bad, after, heq, hbefore, hbad, rfl⟩
    cases before with
    | nil =>
        cases heq
        exact absurd hbad h
    | cons other before =>
        cases heq
        refine ⟨before, bad, after, rfl, (List.forall_mem_cons.1 hbefore).2, hbad, ?_⟩
        rw [List.length_cons, Nat.add_right_comm, Nat.add_assoc]
  · rintro ⟨before, bad, after, rfl, hbefore, hbad, rfl⟩
    refine ⟨line :: before, bad, after, rfl, List.forall_mem_cons.2 ⟨h, hbefore⟩, hbad, ?_⟩
    rw [List.length_cons, Nat.add_right_comm, Nat.add_assoc]

theorem ofLines_eq_error_iff {e : RecordError} :
    ofLines number lines = .error e ↔ FirstFault number lines e := by
  induction lines generalizing number with
  | nil =>
      rw [ofLines]
      constructor
      · intro h
        cases h
      · exact fun h => absurd h firstFault_nil
  | cons line lines ih =>
      rcases line_cases line with hblank | ⟨hfilled, r, hstates⟩ | hbad
      · have hgood : ¬IsBad line := fun hbad => by simp [hbad.1] at hblank
        rw [ofLines_cons_of_not_filled hblank, ih, firstFault_cons_of_not_isBad hgood]
      · have hgood : ¬IsBad line := fun hbad => hbad.2 r hstates
        rw [ofLines_cons_of_states hfilled hstates, firstFault_cons_of_not_isBad hgood, ← ih]
        cases ofLines (number + 1) lines with
        | error other => exact Iff.rfl
        | ok rest =>
            constructor
            · intro h
              cases h
            · intro h
              cases h
      · rw [ofLines_cons_of_isBad hbad, firstFault_cons_of_isBad hbad, Except.error.injEq, eq_comm]

theorem exists_firstFault_iff :
    (∃ e, FirstFault number lines e) ↔ ∃ line ∈ lines, IsBad line := by
  induction lines generalizing number with
  | nil => simp [firstFault_nil]
  | cons line lines ih =>
      by_cases hbad : IsBad line
      · simp [firstFault_cons_of_isBad hbad, hbad]
      · simp [firstFault_cons_of_not_isBad hbad, ih, hbad]

theorem exists_ofLines_eq_ok_iff :
    (∃ records, ofLines number lines = .ok records) ↔ ∀ line ∈ lines, ¬IsBad line := by
  have hfault : (∃ e, ofLines number lines = .error e) ↔ ∃ line ∈ lines, IsBad line := by
    simp only [ofLines_eq_error_iff, exists_firstFault_iff]
  rw [← not_iff_not, not_exists, ← exists_eq_error_iff, hfault]
  simp

end Lines

/-! ## A body that is JSON -/

/-- How a document holds records: as a list, in an envelope, or as a single one. -/
inductive Frames : Json → List Record → Prop
  | list (records : List Record) : Frames (.arr (records.map .obj)) records
  | envelope {members : Fields Json} {records : List Record} :
      Fields.get? "records" members = some (.arr (records.map .obj)) → Frames (.obj members) records
  | single {r : Record} : Fields.get? "records" r = none → Frames (.obj r) [r]

theorem objects_eq_ok_iff {items : List Json} {records : List Record} :
    objects items = .ok records ↔ items = records.map .obj := by
  constructor
  · intro h
    induction items generalizing records with
    | nil =>
        cases h
        rfl
    | cons item items ih =>
        cases item with
        | obj members =>
            obtain ⟨rest, hrest, h⟩ := bind_eq_ok.1 h
            cases h
            rw [List.map_cons, ih hrest]
        | _ => cases h
  · rintro rfl
    exact objects_map_obj records

theorem ofJson_eq_ok_iff {value : Json} {records : List Record} :
    ofJson value = .ok records ↔ Frames value records := by
  constructor
  · intro h
    unfold ofJson at h
    split at h
    · cases objects_eq_ok_iff.1 h
      exact .list records
    · split at h
      · next hget =>
          cases objects_eq_ok_iff.1 h
          exact .envelope hget
      · cases h
      · next hget =>
          cases h
          exact .single hget
    · cases h
  · intro h
    cases h with
    | list => exact objects_map_obj records
    | envelope hget =>
        rw [ofJson, hget]
        exact objects_map_obj records
    | single hget => rw [ofJson, hget]

/-! ## Any body -/

/-- An empty body has no records. A body that is JSON is accepted exactly when it frames records.
Any other body is accepted exactly when none of its lines is bad, and then gives the records of
the lines with something in them; otherwise the first bad line is at fault, by its number among
all lines. -/
theorem parse_outcome (body : String) :
    (Text.trimChars body.toList = [] → parse body = .ok []) ∧
      (∀ value, Json.read? maxDepth (Text.trimChars body.toList) = some value →
        ∀ records, parse body = .ok records ↔ Frames value records) ∧
      (Text.trimChars body.toList ≠ [] →
        Json.read? maxDepth (Text.trimChars body.toList) = none →
        ((∃ records, parse body = .ok records) ↔
          ∀ line ∈ Text.lines (Text.trimChars body.toList), ¬IsBad line) ∧
        (∀ records, parse body = .ok records ↔ List.Forall₂ States
          ((Text.lines (Text.trimChars body.toList)).filter isFilled) records) ∧
        ∀ e, parse body = .error e ↔
          FirstFault 1 (Text.lines (Text.trimChars body.toList)) e) ∧
      ∀ number line unreadable, ∃ rest, (lineFault number line).message unreadable =
        "line " ++ Text.decimal number ++ ": " ++ rest := by
  refine ⟨fun hempty => ?_, fun value hread records => ?_, fun hne hread => ?_, message_lineFault⟩
  · rw [parse, ofChars, hempty]
    rfl
  · rw [parse, ofChars_of_read? hread, ofJson_eq_ok_iff]
  · rw [parse, ofChars_of_read?_eq_none hne hread]
    exact ⟨exists_ofLines_eq_ok_iff, fun records => ofLines_eq_ok_iff,
      fun e => ofLines_eq_error_iff⟩

/-- A list among records on lines is at fault by its number, where the empty line before it
counts and what follows it does not. A list of records is a body by itself. -/
theorem parse_outcome_thirdLine :
    parse " \x7b\x7d\n\r\n[1]\n\x7b" = .error (.lineNotObject 3 (.arr [.int 1 (by decide)])) ∧
      parse "[\x7b\x7d, \x7b\x7d]\n" = .ok [[], []] := by
  obtain ⟨-, -, hlines, -⟩ := parse_outcome " \x7b\x7d\n\r\n[1]\n\x7b"
  obtain ⟨-, hjson, -, -⟩ := parse_outcome "[\x7b\x7d, \x7b\x7d]\n"
  have hobject : ¬IsBad "\x7b\x7d".toList := fun h => h.2 [] (by rfl)
  have hempty : ¬IsBad [] := fun h => nomatch h.1
  have hlist : Json.read? maxDepth "[1]".toList = some (.arr [.int 1 (by decide)]) := by rfl
  have hbad : IsBad "[1]".toList := ⟨by rfl, fun r h => nomatch hlist.symm.trans h⟩
  constructor
  · obtain ⟨-, -, hfault⟩ := hlines (by decide) (by rfl)
    exact (hfault _).2 ⟨["\x7b\x7d".toList, []], "[1]".toList, ["\x7b".toList], by rfl,
      List.forall_mem_cons.2 ⟨hobject, List.forall_mem_singleton.2 hempty⟩, hbad, by rfl⟩
  · exact (hjson (.arr [.obj [], .obj []]) (by rfl) _).2 (.list [[], []])

end EventSearch.Records
