import EventSearch.Client.Records
import EventSearch.Proofs.Json.Composition
import EventSearch.Proofs.Text.Lines

/-!
# Framings of records

The texts of records make up a body in three ways: as an array, as an envelope, which may have
other members, or line by line among lines of white space. The same records are read from each,
unless a text nests too deep to stand in an array. The text of a flat record can do so, by a
member that a later one of its name replaces.
-/
namespace EventSearch.Records

open Text (isBlank)
open Json (skipSpace braced maxDepth)

/-- What ends a line. -/
inductive LineEnd where
  | feed
  | returnFeed
deriving DecidableEq, Repr

def LineEnd.chars : LineEnd → List Char
  | .feed => ['\n']
  | .returnFeed => ['\r', '\n']

/-- A body whose lines are the given texts, with any lines of white space before, between and
after them. -/
inductive Delimited : List (List Char) → List Char → Prop
  | lastBlank {line : List Char} :
      (∀ c ∈ line, isBlank c = true) → '\n' ∉ line → Delimited [] line
  | lastText {text : List Char} : '\n' ∉ text → Delimited [text] text
  | blank {texts : List (List Char)} {line body : List Char} (lineEnd : LineEnd) :
      (∀ c ∈ line, isBlank c = true) → '\n' ∉ line → Delimited texts body →
      Delimited texts (line ++ (lineEnd.chars ++ body))
  | text {texts : List (List Char)} {text body : List Char} (lineEnd : LineEnd) :
      '\n' ∉ text → Delimited texts body →
      Delimited (text :: texts) (text ++ (lineEnd.chars ++ body))

/-! ## Lines that hold a record -/

/-- The record is what the line holds, with white space around it. -/
structure OnLine (r : Record) (line : List Char) : Prop where
  feed : '\n' ∉ line
  padded : ∃ pre inner post, line = pre ++ (braced inner ++ post) ∧ skipSpace pre = [] ∧
    skipSpace post = [] ∧ Json.read? maxDepth (braced inner) = some (.obj r)

theorem isBlank_of_isSpace {c : Char} (h : Json.isSpace c = true) : isBlank c = true := by
  simp only [Json.isSpace, Bool.or_eq_true, beq_iff_eq] at h
  rcases h with ((rfl | rfl) | rfl) | rfl <;> rfl

theorem isBlank_of_skipSpace {blank : List Char} (h : skipSpace blank = []) :
    ∀ c ∈ blank, isBlank c = true := fun c hc =>
  isBlank_of_isSpace (List.dropWhile_eq_nil_iff.1 h c hc)

/-- What is left of white space and an object when white space is cut off its ends has the same
object in it. -/
theorem exists_braced_of_cut {left right pre post inner middle : List Char}
    (hleft : ∀ c ∈ left, isBlank c = true) (hright : ∀ c ∈ right, isBlank c = true)
    (h : left ++ (middle ++ right) = pre ++ (braced inner ++ post)) :
    ∃ pre' post', middle = pre' ++ (braced inner ++ post') ∧ pre = left ++ pre' ∧
      post = post' ++ right := by
  have hfront : ∃ pre', pre = left ++ pre' ∧ middle ++ right = pre' ++ (braced inner ++ post) := by
    obtain ⟨pre', hpre, hmiddle⟩ | ⟨cut, hcut, hbraced⟩ := List.append_eq_append_iff.1 h
    · exact ⟨pre', hpre, hmiddle⟩
    · cases cut with
      | nil => exact ⟨[], by rw [hcut]; simp, hbraced.symm⟩
      | cons c cut =>
          -- the opening brace would be white space
          have hc : isBlank c = true := hleft c (by rw [hcut]; simp)
          cases (List.cons.inj hbraced).1
          cases hc
  obtain ⟨pre', rfl, hmiddle⟩ := hfront
  rw [← List.append_assoc] at hmiddle
  obtain ⟨cut, hbraced, hcut⟩ | ⟨post', hpost, hpost'⟩ := List.append_eq_append_iff.1 hmiddle
  · obtain rfl | ⟨front, c, rfl⟩ := List.eq_nil_or_concat cut
    · rw [List.append_nil] at hbraced
      exact ⟨pre', [], by rw [List.append_nil, hbraced], rfl, hcut.symm⟩
    · -- the closing brace would be white space
      have hc : isBlank c = true := hright c (by rw [hcut]; simp)
      have hlast := congrArg List.getLast? hbraced
      simp only [braced, List.concat_eq_append, ← List.append_assoc, ← List.cons_append,
        List.getLast?_concat] at hlast
      cases hlast
      cases hc
  · exact ⟨pre', post', by rw [hpost, List.append_assoc], rfl, hpost'⟩

section OnLine

variable {r : Record} {line : List Char}

theorem onLine_of_read? (hfeed : '\n' ∉ line)
    (h : Json.read? maxDepth line = some (.obj r)) : OnLine r line :=
  ⟨hfeed, Json.exists_braced_of_read? h⟩

theorem OnLine.read? (h : OnLine r line) : Json.read? maxDepth line = some (.obj r) := by
  obtain ⟨pre, inner, post, rfl, hpre, hpost, hread⟩ := h.padded
  exact Json.read?_padded hread hpre hpost

theorem OnLine.cut {left middle right : List Char} (h : OnLine r (left ++ (middle ++ right)))
    (hleft : ∀ c ∈ left, isBlank c = true) (hright : ∀ c ∈ right, isBlank c = true) :
    OnLine r middle := by
  obtain ⟨pre, inner, post, heq, hpre, hpost, hread⟩ := h.padded
  obtain ⟨pre', post', rfl, rfl, rfl⟩ := exists_braced_of_cut hleft hright heq
  have hfeed : '\n' ∉ pre' ++ (braced inner ++ post') := fun hmem =>
    h.feed (List.mem_append_right _ (List.mem_append_left _ hmem))
  refine ⟨hfeed, pre', inner, post', rfl, ?_, ?_, hread⟩
  · rw [skipSpace, List.dropWhile_eq_nil_iff] at hpre ⊢
    exact fun c hc => hpre c (List.mem_append_right _ hc)
  · rw [skipSpace, List.dropWhile_eq_nil_iff] at hpost ⊢
    exact fun c hc => hpost c (List.mem_append_left _ hc)

theorem OnLine.dropWhile (h : OnLine r line) : OnLine r (line.dropWhile isBlank) := by
  have hline : line.takeWhile isBlank ++ (line.dropWhile isBlank ++ []) = line := by simp
  exact OnLine.cut (hline.symm ▸ h) (fun _ => List.mem_takeWhile_imp) (List.forall_mem_nil _)

theorem OnLine.rdropWhile (h : OnLine r line) : OnLine r (line.rdropWhile isBlank) := by
  have hline : [] ++ (line.rdropWhile isBlank ++ line.rtakeWhile isBlank) = line := by simp
  exact OnLine.cut (hline.symm ▸ h) (List.forall_mem_nil _) fun _ => List.mem_rtakeWhile_imp

theorem OnLine.trimChars (h : OnLine r line) : OnLine r (Text.trimChars line) :=
  h.dropWhile.rdropWhile

theorem OnLine.dropReturn (h : OnLine r line) : OnLine r (Text.dropReturn line) := by
  rcases Text.dropReturn_eq line with heq | heq
  · rw [heq]
    exact h
  · have hline : [] ++ (Text.dropReturn line ++ ['\r']) = line := heq.symm
    exact OnLine.cut (hline.symm ▸ h) (List.forall_mem_nil _) (List.forall_mem_singleton.2 rfl)

theorem OnLine.not_blank (h : OnLine r line) : ¬∀ c ∈ line, isBlank c = true := by
  obtain ⟨pre, inner, post, rfl, -⟩ := h.padded
  intro hblank
  cases hblank '\x7b' (by simp [braced])

end OnLine

/-! ## Bodies of lines -/

/-- A body of lines that hold the records in order, apart from lines of white space. A carriage
return at the end of a line counts as white space of it. -/
inductive Holds : List Record → List Char → Prop
  | lastBlank {line : List Char} : (∀ c ∈ line, isBlank c = true) → '\n' ∉ line → Holds [] line
  | lastRecord {r : Record} {line : List Char} : OnLine r line → Holds [r] line
  | blank {records : List Record} {line body : List Char} :
      (∀ c ∈ line, isBlank c = true) → '\n' ∉ line → Holds records body →
      Holds records (line ++ '\n' :: body)
  | record {r : Record} {records : List Record} {line body : List Char} :
      OnLine r line → Holds records body → Holds (r :: records) (line ++ '\n' :: body)

/-- What a line ends with is white space at the end of the line and a line feed. -/
theorem LineEnd.exists_chars_eq (lineEnd : LineEnd) : ∃ blank, lineEnd.chars = blank ++ ['\n'] ∧
    skipSpace blank = [] ∧ '\n' ∉ blank := by
  cases lineEnd with
  | feed => exact ⟨[], rfl, rfl, by simp⟩
  | returnFeed => exact ⟨['\r'], rfl, rfl, by simp⟩

theorem Delimited.holds {texts : List (List Char)} {body : List Char} (h : Delimited texts body)
    {records : List Record}
    (hreads : List.Forall₂ (fun text r => Json.read? maxDepth text = some (.obj r)) texts records) :
    Holds records body := by
  induction h generalizing records with
  | lastBlank hblank hfeed =>
      cases hreads
      exact .lastBlank hblank hfeed
  | lastText hfeed =>
      obtain ⟨⟩ | ⟨hread, ⟨⟩⟩ := hreads
      exact .lastRecord (onLine_of_read? hfeed hread)
  | @blank texts line body lineEnd hblank hfeed _ ih =>
      -- a carriage return goes to the line in front of it
      obtain ⟨tail, hchars, htail, htailFeed⟩ := lineEnd.exists_chars_eq
      have hline : ∀ c ∈ line ++ tail, isBlank c = true :=
        List.forall_mem_append.2 ⟨hblank, isBlank_of_skipSpace htail⟩
      have hbody := Holds.blank hline (by simp [hfeed, htailFeed]) (ih hreads)
      simpa [hchars] using hbody
  | @text texts text body lineEnd hfeed _ ih =>
      obtain ⟨⟩ | ⟨hread, hreads⟩ := hreads
      obtain ⟨tail, hchars, htail, htailFeed⟩ := lineEnd.exists_chars_eq
      have hline : Json.read? maxDepth ([] ++ (text ++ tail)) = _ :=
        Json.read?_padded hread rfl htail
      have hbody := Holds.record (onLine_of_read? (by simp [hfeed, htailFeed]) hline) (ih hreads)
      simpa [hchars] using hbody

section Holds

variable {r : Record} {records : List Record} {body : List Char}

theorem Holds.eq_nil (h : Holds records []) : records = [] := by
  generalize hbody : ([] : List Char) = body at h
  cases h with
  | lastBlank _ _ => rfl
  | lastRecord hline =>
      subst hbody
      exact absurd (List.forall_mem_nil _) hline.not_blank
  | blank _ _ _ => simp at hbody
  | record _ _ => simp at hbody

theorem Holds.dropWhile (h : Holds records body) : Holds records (body.dropWhile isBlank) := by
  induction h with
  | lastBlank hblank _ =>
      rw [List.dropWhile_eq_nil_iff.2 hblank]
      exact .lastBlank (List.forall_mem_nil _) (by simp)
  | lastRecord hline => exact .lastRecord hline.dropWhile
  | blank hblank _ _ ih =>
      rw [List.dropWhile_append_of_pos hblank]
      exact ih
  | record hline hbody _ =>
      have hne : ¬((_ : List Char).dropWhile isBlank).isEmpty = true := fun hempty =>
        hline.not_blank (List.dropWhile_eq_nil_iff.1 (List.isEmpty_iff.1 hempty))
      rw [List.dropWhile_append, if_neg hne]
      exact .record hline.dropWhile hbody

theorem Holds.rdropWhile (h : Holds records body) : Holds records (body.rdropWhile isBlank) := by
  induction h with
  | lastBlank hblank _ =>
      rw [List.rdropWhile_eq_nil_iff.2 hblank]
      exact .lastBlank (List.forall_mem_nil _) (by simp)
  | lastRecord hline => exact .lastRecord hline.rdropWhile
  | blank hblank hfeed _ ih =>
      rw [Text.rdropWhile_append_feed]
      split
      · next hempty =>
          rw [List.isEmpty_iff.1 hempty] at ih
          rw [ih.eq_nil, List.rdropWhile_eq_nil_iff.2 hblank]
          exact .lastBlank (List.forall_mem_nil _) (by simp)
      · exact .blank hblank hfeed ih
  | record hline _ ih =>
      rw [Text.rdropWhile_append_feed]
      split
      · next hempty =>
          rw [List.isEmpty_iff.1 hempty] at ih
          rw [ih.eq_nil]
          exact .lastRecord hline.rdropWhile
      · exact .record hline ih

theorem Holds.trimChars (h : Holds records body) : Holds records (Text.trimChars body) :=
  h.dropWhile.rdropWhile

theorem Holds.not_blank (h : Holds (r :: records) body) : ¬∀ c ∈ body, isBlank c = true := by
  intro hblank
  have hcut := h.dropWhile
  rw [List.dropWhile_eq_nil_iff.2 hblank] at hcut
  cases hcut.eq_nil

theorem Holds.forall_blank (h : Holds [] body) : ∀ c ∈ body, isBlank c = true := by
  generalize hrecords : [] = records at h
  induction h with
  | lastBlank hblank _ => exact hblank
  | lastRecord => cases hrecords
  | blank hblank _ _ ih =>
      exact List.forall_mem_append.2 ⟨hblank, List.forall_mem_cons.2 ⟨rfl, ih hrecords⟩⟩
  | record => cases hrecords

theorem ofLine?_blank {number : Nat} {line : List Char} (h : ∀ c ∈ line, isBlank c = true) :
    ofLine? number line = .ok none := by
  rw [ofLine?, Text.trimChars_of_blank h]
  rfl

theorem OnLine.ofLine?_eq {number : Nat} {line : List Char} (h : OnLine r line) :
    ofLine? number line = .ok (some r) := by
  have hne : ¬(Text.trimChars line).isEmpty = true := by
    intro hempty
    have htrim := h.trimChars
    rw [List.isEmpty_iff.1 hempty] at htrim
    exact htrim.not_blank (List.forall_mem_nil _)
  rw [ofLine?, if_neg hne, h.read?]

theorem ofLines_cons {number : Nat} {line : List Char} {lines : List (List Char)}
    {record : Option Record} (hline : ofLine? number line = .ok record)
    (hlines : ofLines (number + 1) lines = .ok records) :
    ofLines number (line :: lines) = .ok (record.toList ++ records) := by
  rw [ofLines, hline, hlines]
  rfl

/-- Line by line the records are read, from whatever number the lines are counted. -/
theorem Holds.ofLines_eq (h : Holds records body) (number : Nat) :
    ofLines number (Text.lines body) = .ok records := by
  induction h generalizing number with
  | @lastBlank line hblank hfeed =>
      by_cases hne : line = []
      · subst hne
        rfl
      · rw [Text.lines_of_not_mem hfeed hne]
        exact ofLines_cons (ofLine?_blank hblank) rfl
  | @lastRecord r line hline =>
      have hne : line ≠ [] := by
        rintro rfl
        exact hline.not_blank (List.forall_mem_nil _)
      rw [Text.lines_of_not_mem hline.feed hne]
      exact ofLines_cons hline.ofLine?_eq rfl
  | @blank records line body hblank hfeed _ ih =>
      rw [Text.lines_append_feed hfeed]
      refine ofLines_cons (ofLine?_blank fun c hc => hblank c ?_) (ih (number + 1))
      rcases Text.dropReturn_eq line with heq | heq
      · exact heq ▸ hc
      · rw [heq]
        exact List.mem_append_left _ hc
  | record hline _ ih =>
      rw [Text.lines_append_feed hline.feed]
      exact ofLines_cons hline.dropReturn.ofLine?_eq (ih (number + 1))

/-- Behind a first record a further one is left over, so that the body is not read as a whole. -/
theorem Holds.read?_eq_none {s : Record} (h : Holds (r :: s :: records) body)
    (hhead : ∀ c ∈ body.head?, isBlank c = false) : Json.read? maxDepth body = none := by
  generalize hrecords : r :: s :: records = all at h
  cases h with
  | lastBlank => cases hrecords
  | lastRecord => cases hrecords
  | @blank _ line body hblank _ _ =>
      cases line with
      | nil => cases hhead '\n' rfl
      | cons c line =>
          have hc := hhead c rfl
          rw [hblank c List.mem_cons_self] at hc
          cases hc
  | @record _ _ line body hline hbody =>
      cases hrecords
      refine Option.eq_none_iff_forall_ne_some.2 fun v hv => ?_
      obtain ⟨left, hvalue, hleft⟩ := Json.read?_eq_some.1 hv
      have hlength : line.length ≤ (line ++ '\n' :: body).length := by
        rw [List.length_append]
        omega
      -- the first record is read, and then all that is left would be white space
      obtain ⟨blank, hfirst, -⟩ := Json.value?_of_read? hline.read?
        (@Json.endsNumber_cons '\n' rfl body) hlength (Nat.le_refl maxDepth)
      cases hvalue.symm.trans hfirst
      have hblank := isBlank_of_skipSpace hleft
      exact hbody.not_blank fun c hc => hblank c (by simp [hc])

/-- A single record is the whole body but for white space. -/
theorem Holds.read?_trimChars (h : Holds [r] body) :
    Json.read? maxDepth (Text.trimChars body) = some (.obj r) := by
  generalize hrecords : [r] = records at h
  induction h with
  | lastBlank => cases hrecords
  | lastRecord hline =>
      cases hrecords
      exact hline.trimChars.read?
  | @blank _ line body hblank _ _ ih =>
      have hline : ∀ c ∈ line ++ ['\n'], isBlank c = true :=
        List.forall_mem_append.2 ⟨hblank, List.forall_mem_singleton.2 rfl⟩
      rw [List.append_cons, Text.trimChars_blank_append hline]
      exact ih hrecords
  | @record _ records line body hline hbody _ =>
      cases hrecords
      have hrest : ∀ c ∈ '\n' :: body, isBlank c = true :=
        List.forall_mem_cons.2 ⟨rfl, hbody.forall_blank⟩
      rw [Text.trimChars_append_blank hrest]
      exact hline.trimChars.read?

end Holds

/-! ## The three framings -/

theorem objects_map_obj (records : List Record) : objects (records.map Json.obj) = .ok records := by
  induction records with
  | nil => rfl
  | cons r records ih =>
      rw [List.map_cons, objects, ih]
      rfl

theorem ofChars_of_read? {cs : List Char} {v : Json}
    (h : Json.read? maxDepth (Text.trimChars cs) = some v) : ofChars cs = ofJson v := by
  have hne : ¬(Text.trimChars cs).isEmpty = true := by
    intro hempty
    rw [List.isEmpty_iff.1 hempty] at h
    cases h
  unfold ofChars
  rw [if_neg hne, h]

/-- A body that is no JSON is read by lines. -/
theorem ofChars_of_read?_eq_none {cs : List Char} (hne : Text.trimChars cs ≠ [])
    (h : Json.read? maxDepth (Text.trimChars cs) = none) :
    ofChars cs = ofLines 1 (Text.lines (Text.trimChars cs)) := by
  unfold ofChars
  rw [if_neg (by simp [hne]), h]

theorem Delimited.parse_eq {texts : List (List Char)} {body : List Char}
    (h : Delimited texts body) {records : List Record}
    (hreads : List.Forall₂ (fun text r => Json.read? maxDepth text = some (.obj r)) texts records)
    (hsole : ∀ r, records = [r] → Fields.get? "records" r = none) :
    parse (String.ofList body) = .ok records := by
  rw [parse, String.toList_ofList]
  have hbody := h.holds hreads
  match records, hbody with
  | [], hbody =>
      unfold ofChars
      rw [Text.trimChars_of_blank hbody.forall_blank]
      rfl
  | [r], hbody =>
      rw [ofChars_of_read? hbody.read?_trimChars, ofJson, hsole r rfl]
  | r :: s :: records, hbody =>
      have htrim := hbody.trimChars
      have hne : Text.trimChars body ≠ [] := by
        intro hempty
        rw [hempty] at htrim
        cases htrim.eq_nil
      have hread := htrim.read?_eq_none fun c hc => Text.isBlank_head_trimChars hc
      rw [ofChars_of_read?_eq_none hne hread]
      exact htrim.ofLines_eq 1

theorem forall₂_map_obj {levels : Nat} {texts : List (List Char)} {records : List Record}
    (h : List.Forall₂ (fun text r => Json.read? levels text = some (.obj r)) texts records) :
    List.Forall₂ (fun text v => Json.read? levels text = some v) texts
      (records.map Json.obj) :=
  List.forall₂_map_right_iff.2 h

theorem parse_of_read? {first last : Char} {inner : List Char} {v : Json}
    (hfirst : isBlank first = false) (hlast : isBlank last = false)
    (h : Json.read? maxDepth (first :: (inner ++ [last])) = some v) :
    parse (String.ofList (first :: (inner ++ [last]))) = ofJson v := by
  rw [parse, String.toList_ofList]
  apply ofChars_of_read?
  rw [Text.trimChars_of_trimmed (Text.trimmed_between hfirst hlast _), h]

/-- From an array of texts the records are read that the texts are read as. -/
theorem parse_arrayText {texts : List (List Char)} {records : List Record}
    (h : List.Forall₂ (fun text r => Json.read? 125 text = some (.obj r)) texts records) :
    parse (String.ofList (Json.arrayText texts)) = .ok records := by
  have hread := Json.read?_mono (Json.read?_arrayText (forall₂_map_obj h))
    (by decide : 125 + 1 ≤ maxDepth)
  exact (parse_of_read? rfl rfl hread).trans (objects_map_obj records)

/-- An envelope gives the records of its list, whatever other members it has. -/
theorem parse_objectText {texts : List (List Char)} {records : List Record}
    (h : List.Forall₂ (fun text r => Json.read? 125 text = some (.obj r)) texts records)
    {before after : List Json.MemberText}
    (hothers : ∀ m ∈ before ++ after, ∃ member, m.Reads 125 member ∧ member.1 ≠ "records") :
    parse (String.ofList (Json.objectText
      (before ++ ⟨"\"records\"".toList, Json.arrayText texts⟩ :: after))) = .ok records := by
  obtain ⟨hbefore, hafter⟩ := List.forall_mem_append.1 hothers
  obtain ⟨front, hfront, hfrontNames⟩ := Json.exists_forall₂_reads hbefore
  obtain ⟨back, hback, hbackNames⟩ := Json.exists_forall₂_reads hafter
  have hlist : Json.MemberText.Reads 126 ⟨"\"records\"".toList, Json.arrayText texts⟩
      ("records", .arr (records.map Json.obj)) :=
    ⟨rfl, Json.read?_arrayText (forall₂_map_obj h)⟩
  have hmembers : List.Forall₂ (Json.MemberText.Reads 126)
      (before ++ ⟨"\"records\"".toList, Json.arrayText texts⟩ :: after)
      (front ++ ("records", .arr (records.map Json.obj)) :: back) := List.rel_append
    (hfront.imp fun m member hm => hm.mono (by decide : 125 ≤ 126))
    (List.Forall₂.cons hlist (hback.imp fun m member hm => hm.mono (by decide : 125 ≤ 126)))
  have hread := Json.read?_objectText hmembers
  have hrecords : Fields.get? "records"
      (Fields.ofList (front ++ ("records", .arr (records.map Json.obj)) :: back)) =
        some (.arr (records.map Json.obj)) := by
    have hback : Fields.get? "records" back.reverse = none :=
      Fields.get?_eq_none fun p hp => hbackNames p (List.mem_reverse.1 hp)
    rw [Fields.ofList, Fields.get?_insertAll]
    simp [Fields.get?_append, hback, Fields.get?]
  refine (parse_of_read? rfl rfl hread).trans ?_
  rw [Json.object, ofJson, hrecords]
  exact objects_map_obj records

/-- The same records are read from every framing of their texts, from an array or an envelope when
the texts nest at most so deep. It is not enough that the records do: a text nests deeper than
its record by a member that a later one of its name replaces. -/
theorem parse_framings {texts : List (List Char)} {records : List Record}
    (h : List.Forall₂ (fun text r => Json.read? maxDepth text = some (.obj r)) texts records) :
    ((∀ text ∈ texts, (Json.read? 125 text).isSome = true) →
      parse (String.ofList (Json.arrayText texts)) = .ok records ∧
        ∀ before after : List Json.MemberText,
          (∀ m ∈ before ++ after, ∃ member, m.Reads 125 member ∧ member.1 ≠ "records") →
          parse (String.ofList (Json.objectText
            (before ++ ⟨"\"records\"".toList, Json.arrayText texts⟩ :: after))) = .ok records) ∧
      ∀ body, Delimited texts body →
        (∀ r, records = [r] → Fields.get? "records" r = none) →
        parse (String.ofList body) = .ok records := by
  refine ⟨fun hnested => ?_, fun body hbody hsole => hbody.parse_eq h hsole⟩
  have hreads : List.Forall₂ (fun text r => Json.read? 125 text = some (.obj r)) texts records := by
    refine ((List.forall₂_and_left texts records).2 ⟨hnested, h⟩).imp fun text r hr => ?_
    exact Json.read?_of_isSome hr.2 (by decide) hr.1
  exact ⟨parse_arrayText hreads, fun before after hothers => parse_objectText hreads hothers⟩

/-- Two records in an array, in an envelope between other members, and on lines that end either
way. -/
theorem parse_framings_gears :
    parse "[\x7b\"gear\":\"up\"\x7d, \x7b\x7d]" = .ok [[("gear", .str "up")], []] ∧
      parse "\x7b\"took\":true,\"records\":[\x7b\"gear\":\"up\"\x7d, \x7b\x7d],\"next\":null\x7d" =
        .ok [[("gear", .str "up")], []] ∧
      parse "\r\n\x7b\"gear\":\"up\"\x7d\r\n \n \x7b\x7d\n" = .ok [[("gear", .str "up")], []] := by
  have hreads : List.Forall₂ (fun text r => Json.read? maxDepth text = some (.obj r))
      ["\x7b\"gear\":\"up\"\x7d".toList, " \x7b\x7d".toList] [[("gear", .str "up")], []] :=
    .cons rfl (.cons rfl .nil)
  obtain ⟨hframes, hlines⟩ := parse_framings hreads
  obtain ⟨harray, henvelope⟩ := hframes
    (List.forall_mem_cons.2 ⟨rfl, List.forall_mem_singleton.2 rfl⟩)
  refine ⟨harray, ?_, ?_⟩
  · refine henvelope [⟨"\"took\"".toList, "true".toList⟩] [⟨"\"next\"".toList, "null".toList⟩] ?_
    have htook : ("took", Json.bool true).1 ≠ "records" := by decide
    have hnext : ("next", Json.null).1 ≠ "records" := by decide
    exact List.forall_mem_cons.2 ⟨⟨_, ⟨rfl, rfl⟩, htook⟩,
      List.forall_mem_singleton.2 ⟨_, ⟨rfl, rfl⟩, hnext⟩⟩
  · have hend : Delimited [] [] := .lastBlank (List.forall_mem_nil _) List.not_mem_nil
    have hsecond := @Delimited.text [] " \x7b\x7d".toList [] .feed (by simp) hend
    have hgap :=
      @Delimited.blank _ [' '] _ .feed (List.forall_mem_singleton.2 rfl) (by simp) hsecond
    have hfirst := @Delimited.text _ "\x7b\"gear\":\"up\"\x7d".toList _ .returnFeed (by simp) hgap
    refine hlines _ (@Delimited.blank _ [] _ .returnFeed (List.forall_mem_nil _) List.not_mem_nil
      hfirst) ?_
    intro r hr
    cases hr

/-! ## Texts that nest deeper than their records -/

/-- A body of one line that is no JSON is at fault at that line. -/
theorem parse_of_read?_eq_none {first last : Char} {inner : List Char}
    (hfirst : isBlank first = false) (hlast : isBlank last = false)
    (hfeed : '\n' ∉ first :: (inner ++ [last]))
    (h : Json.read? maxDepth (first :: (inner ++ [last])) = none) :
    parse (String.ofList (first :: (inner ++ [last]))) = .error (.badLine 1) := by
  have htrim := Text.trimChars_of_trimmed (Text.trimmed_between hfirst hlast inner)
  have hlines := Text.lines_of_not_mem hfeed (List.cons_ne_nil _ _)
  have hbad : ofLine? 1 (first :: (inner ++ [last])) = .error (.badLine 1) := by
    rw [ofLine?, htrim, if_neg (by simp), h]
  rw [parse, String.toList_ofList, ofChars_of_read?_eq_none (by simp [htrim]) (by rw [htrim, h]),
    htrim, hlines, ofLines, hbad]
  rfl

/-- Arrays in each other, a hundred and twenty-six of them. -/
def nestedArrays : List Char := List.replicate 126 '[' ++ List.replicate 126 ']'

/-- The text of an object with two gears, of which the second counts and the first nests deep. -/
def replacedGear : List Char :=
  Json.objectText [⟨"\"gear\"".toList, nestedArrays⟩, ⟨"\"gear\"".toList, "1".toList⟩]

/-- The text is that of a record with no nesting in it, which is read when the text is a line. In
an array it is not read, and in an envelope neither. -/
theorem parse_replacedGear : '\n' ∉ replacedGear ∧
    Json.read? maxDepth replacedGear = some (.obj [("gear", .int 1 (by decide))]) ∧
    parse (String.ofList replacedGear) = .ok [[("gear", .int 1 (by decide))]] ∧
    parse (String.ofList (Json.arrayText [replacedGear])) = .error (.badLine 1) ∧
    parse (String.ofList (Json.objectText
      [⟨"\"records\"".toList, Json.arrayText [replacedGear]⟩])) = .error (.badLine 1) := by
  obtain ⟨arrays, harrays⟩ := Option.isSome_iff_exists.1
    (by decide +kernel : (Json.read? 126 nestedArrays).isSome = true)
  have hfirst : Json.MemberText.Reads 126 ⟨"\"gear\"".toList, nestedArrays⟩ ("gear", arrays) :=
    ⟨rfl, harrays⟩
  have hsecond : Json.MemberText.Reads 126 ⟨"\"gear\"".toList, "1".toList⟩
      ("gear", .int 1 (by decide)) := ⟨rfl, rfl⟩
  have hlast : Json.object [("gear", arrays), ("gear", .int 1 (by decide))] =
      .obj [("gear", .int 1 (by decide))] := by
    simp [Json.object, Fields.ofList, Fields.insertAll, Fields.insert]
  have hread : Json.read? maxDepth replacedGear = some (.obj [("gear", .int 1 (by decide))]) :=
    (Json.read?_objectText (.cons hfirst (.cons hsecond .nil))).trans (congrArg some hlast)
  have harray : Json.read? maxDepth (Json.arrayText [replacedGear]) = none :=
    Option.isNone_iff_eq_none.1 (by decide +kernel)
  have henvelope : Json.read? maxDepth (Json.objectText
      [⟨"\"records\"".toList, Json.arrayText [replacedGear]⟩]) = none :=
    Option.isNone_iff_eq_none.1 (by decide +kernel)
  exact ⟨by decide +kernel, hread, parse_of_read? rfl rfl hread,
    parse_of_read?_eq_none rfl rfl (by decide +kernel) harray,
    parse_of_read?_eq_none rfl rfl (by decide +kernel) henvelope⟩

end EventSearch.Records
