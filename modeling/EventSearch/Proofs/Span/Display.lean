import EventSearch.Proofs.Span.Document
import EventSearch.Proofs.Text.Digits
import EventSearch.Proofs.Text.Lines
import EventSearch.QueryError

/-!
# Texts of constraints

A duration is shown as counts with their units. A count ends where its unit begins, and a unit
where the next count begins, so that minutes are not taken for months. Around durations stand
words and marks of other characters, at which the text of constraints comes apart. So constraints
can be told from their text, and the lengths in conflict from the message about it.
-/
namespace EventSearch

open Text

namespace TimeUnit

theorem symbol_injective : Function.Injective symbol := by
  intro a b h
  cases a <;> cases b <;> first | rfl | exact absurd h (by decide)

theorem isDigit_of_mem_symbol {unit : TimeUnit} {c : Char} (hc : c ∈ unit.symbol.toList) :
    isDigit c = false := by
  have hall : unit.symbol.toList.all (!isDigit ·) = true := by cases unit <;> rfl
  simpa using List.all_eq_true.1 hall c hc

theorem symbol_ne_nil (unit : TimeUnit) : unit.symbol.toList ≠ [] := by
  cases unit <;> decide

end TimeUnit

namespace Duration

/-- The counts with their units that are shown, the longest unit first. -/
def terms (d : Duration) : List (UInt64 × TimeUnit) :=
  if d.isZero then [(0, .second)] else d.present.reverse.map fun unit => (d.count unit, unit)

def termText (t : UInt64 × TimeUnit) : List Char :=
  digitsIn 10 t.1.toNat ++ t.2.symbol.toList

theorem toList_display (d : Duration) : d.display.toList = d.terms.flatMap termText := by
  unfold display terms
  split
  · rfl
  · rw [String.toList_join, List.flatMap_map, List.flatMap_map]
    congr 1
    funext unit
    rw [String.toList_append, decimal, String.toList_ofList]
    rfl

theorem isDigit_of_mem_head {ts : List (UInt64 × TimeUnit)} {c : Char}
    (hc : c ∈ (ts.flatMap termText).head?) : isDigit c = true := by
  cases ts with
  | nil => cases hc
  | cons t rest =>
      have hne : digitsIn 10 t.1.toNat ≠ [] := Nat.toDigits_ne_nil
      rw [List.flatMap_cons, termText, List.append_assoc, List.head?_append_of_ne_nil _ hne] at hc
      exact isDigit_of_mem_digitsIn (List.mem_of_mem_head? hc)

/-- Counts with units are told from the text that they make one after the other. -/
theorem eq_of_flatMap_termText {ts us : List (UInt64 × TimeUnit)}
    (h : ts.flatMap termText = us.flatMap termText) : ts = us := by
  induction ts generalizing us with
  | nil =>
      cases us with
      | nil => rfl
      | cons u us => simp [termText, Nat.toDigits_ne_nil, digitsIn] at h
  | cons t ts ih =>
      cases us with
      | nil => simp [termText, Nat.toDigits_ne_nil, digitsIn] at h
      | cons u us =>
          simp only [List.flatMap_cons, termText, List.append_assoc] at h
          have hsymbol : ∀ (unit : TimeUnit) (rest : List Char),
              ∀ c ∈ (unit.symbol.toList ++ rest).head?, isDigit c = false := by
            intro unit rest c hc
            rw [List.head?_append_of_ne_nil _ unit.symbol_ne_nil] at hc
            exact TimeUnit.isDigit_of_mem_symbol (List.mem_of_mem_head? hc)
          obtain ⟨hcount, h⟩ := append_inj_of_class (fun c => isDigit_of_mem_digitsIn)
            (fun c => isDigit_of_mem_digitsIn) (hsymbol _ _) (hsymbol _ _) h
          -- The symbol in turn ends at the first digit of the next count.
          obtain ⟨hunit, h⟩ := append_inj_of_class (p := fun c => !isDigit c)
            (fun c hc => by simp [TimeUnit.isDigit_of_mem_symbol hc])
            (fun c hc => by simp [TimeUnit.isDigit_of_mem_symbol hc])
            (fun c hc => by simp [isDigit_of_mem_head hc])
            (fun c hc => by simp [isDigit_of_mem_head hc]) h
          have hcounts : t.1.toNat = u.1.toNat := by
            rw [← ofDigits_digitsIn t.1.toNat, hcount, ofDigits_digitsIn]
          have hunits : t.2 = u.2 :=
            TimeUnit.symbol_injective (String.toList_inj.1 hunit)
          rw [Prod.ext (UInt64.toNat_inj.1 hcounts) hunits, ih h]

theorem eq_count_of_mem_terms {d : Duration} {t : UInt64 × TimeUnit} (ht : t ∈ d.terms) :
    t.1 = d.count t.2 := by
  unfold terms at ht
  split at ht
  · next hzero =>
      rw [eq_of_beq hzero]
      cases List.mem_singleton.1 ht
      rfl
  · obtain ⟨unit, -, rfl⟩ := List.mem_map.1 ht
    rfl

theorem mem_terms_of_pos {d : Duration} {unit : TimeUnit} (h : 0 < d.count unit) :
    (d.count unit, unit) ∈ d.terms := by
  unfold terms
  split
  · next hzero =>
      rw [eq_of_beq hzero] at h
      cases unit <;> cases h
  · exact List.mem_map.2 ⟨unit, List.mem_reverse.2 (mem_present.2 h), rfl⟩

theorem count_eq_of_terms_eq {a b : Duration} (h : a.terms = b.terms) {unit : TimeUnit}
    (hpos : 0 < a.count unit) : a.count unit = b.count unit :=
  eq_count_of_mem_terms (t := (a.count unit, unit)) (h ▸ mem_terms_of_pos hpos)

/-- A unit that is not shown counts nothing, so the shown ones make up the duration. -/
theorem terms_injective : Function.Injective terms := by
  intro a b h
  have hcount : a.count = b.count := by
    funext unit
    by_cases ha : 0 < a.count unit
    · exact count_eq_of_terms_eq h ha
    · by_cases hb : 0 < b.count unit
      · exact (count_eq_of_terms_eq h.symm hb).symm
      · rw [UInt64.pos_iff_ne_zero, Decidable.not_not] at ha hb
        rw [ha, hb]
  rw [← ofCounts_count a, hcount, ofCounts_count]

theorem display_injective : Function.Injective display := by
  intro a b h
  have htext : a.display.toList = b.display.toList := by rw [h]
  rw [toList_display, toList_display] at htext
  exact terms_injective (eq_of_flatMap_termText htext)

theorem terms_ne_nil (d : Duration) : d.terms ≠ [] := by
  unfold terms
  split
  · exact List.cons_ne_nil _ _
  · next hzero =>
      intro h
      have hpresent : d.present = [] := by simpa using h
      rw [eq_zero_of_present_eq_nil hpresent] at hzero
      exact hzero rfl

theorem display_ne_nil (d : Duration) : d.display.toList ≠ [] := by
  intro h
  rw [toList_display] at h
  exact terms_ne_nil d (eq_of_flatMap_termText h)

theorem isDigit_of_mem_head_display {d : Duration} {c : Char}
    (hc : c ∈ d.display.toList.head?) : isDigit c = true := by
  rw [toList_display] at hc
  exact isDigit_of_mem_head hc

/-- The characters of counts and units. -/
def isTermChar (c : Char) : Bool := isDigit c || "smhdwoy".toList.contains c

theorem isTermChar_of_mem_symbol (unit : TimeUnit) :
    ∀ c ∈ unit.symbol.toList, isTermChar c = true :=
  List.all_eq_true.1 (by cases unit <;> rfl)

theorem isTermChar_of_mem_display {d : Duration} {c : Char} (hc : c ∈ d.display.toList) :
    isTermChar c = true := by
  rw [toList_display] at hc
  obtain ⟨t, -, hc⟩ := List.mem_flatMap.1 hc
  rcases List.mem_append.1 hc with hc | hc
  · exact Bool.or_eq_true_iff.2 (.inl (isDigit_of_mem_digitsIn hc))
  · exact isTermChar_of_mem_symbol t.2 c hc

/-- Other characters do not occur in the text of a duration. -/
theorem not_mem_display {c : Char} (hc : isTermChar c = false) (d : Duration) :
    c ∉ d.display.toList := by
  intro hmem
  rw [isTermChar_of_mem_display hmem] at hc
  cases hc

end Duration

namespace Length

/-- The mark in front of the durations, by which lengths of different kinds are told apart. -/
def mark : Length → String
  | .exactly _ => "== "
  | .range (some _) (some _) => ""
  | .range (some _) none => ">= "
  | .range none (some _) => "<= "
  | .range none none => "any"

/-- The durations that a length is made of, the lower bound first. -/
def durations : Length → List Duration
  | .exactly d => [d]
  | .range low high => low.toList ++ high.toList

def durationTexts (l : Length) : List (List Char) := l.durations.map fun d => d.display.toList

theorem toList_display (l : Length) : l.display.toList =
    "for ".toList ++ (l.mark.toList ++ "..".toList.intercalate l.durationTexts) := by
  cases l with
  | exactly d => simp [display, mark, durationTexts, durations]
  | range low high =>
      cases low <;> cases high <;> simp [display, mark, durationTexts, durations]

def marks : List String := ["== ", "", ">= ", "<= ", "any"]

theorem mark_mem (l : Length) : l.mark ∈ marks := by
  cases l with
  | exactly d => simp [mark, marks]
  | range low high => cases low <;> cases high <;> simp [mark, marks]

theorem isDigit_of_mem_mark {l : Length} {c : Char} (hc : c ∈ l.mark.toList) :
    isDigit c = false := by
  have hall : marks.all (·.toList.all (!isDigit ·)) = true := rfl
  simpa using List.all_eq_true.1 (List.all_eq_true.1 hall l.mark l.mark_mem) c hc

theorem ne_nil_of_mem_durationTexts {l : Length} {t : List Char} (ht : t ∈ l.durationTexts) :
    t ≠ [] ∧ '.' ∉ t := by
  obtain ⟨d, -, rfl⟩ := List.mem_map.1 ht
  exact ⟨d.display_ne_nil, d.not_mem_display rfl⟩

/-- Durations begin with a digit, which ends the mark. -/
theorem isDigit_of_mem_head_durationTexts {l : Length} {c : Char}
    (hc : c ∈ ("..".toList.intercalate l.durationTexts).head?) : isDigit c = true := by
  unfold durationTexts at hc
  cases hdurations : l.durations with
  | nil =>
      rw [hdurations] at hc
      cases hc
  | cons d rest =>
      refine Duration.isDigit_of_mem_head_display (d := d) ?_
      rw [hdurations, List.map_cons] at hc
      cases rest with
      | nil => simpa using hc
      | cons next rest =>
          rwa [List.map_cons, List.intercalate_cons_cons, List.append_assoc,
            List.head?_append_of_ne_nil _ d.display_ne_nil] at hc

theorem eq_of_mark_of_durations {l l' : Length} (hmark : l.mark = l'.mark)
    (hdurations : l.durations = l'.durations) : l = l' := by
  cases l with
  | exactly d =>
      cases l' with
      | exactly d' => simpa [durations] using hdurations
      | range low high => cases low <;> cases high <;> simp [mark] at hmark
  | range low high =>
      cases l' with
      | exactly d => cases low <;> cases high <;> simp [mark] at hmark
      | range low' high' =>
          cases low <;> cases high <;> cases low' <;> cases high' <;>
            simp_all [mark, durations]

theorem display_injective : Function.Injective display := by
  intro l l' h
  have htext : l.display.toList = l'.display.toList := by rw [h]
  rw [toList_display, toList_display, List.append_cancel_left_eq] at htext
  obtain ⟨hmark, hbounds⟩ := append_inj_of_class (p := fun c => !isDigit c)
    (fun c hc => by simp [isDigit_of_mem_mark hc]) (fun c hc => by simp [isDigit_of_mem_mark hc])
    (fun c hc => by simp [isDigit_of_mem_head_durationTexts hc])
    (fun c hc => by simp [isDigit_of_mem_head_durationTexts hc]) htext
  have htexts : l.durationTexts = l'.durationTexts :=
    intercalate_inj (fun _ => ne_nil_of_mem_durationTexts)
      (fun _ => ne_nil_of_mem_durationTexts) hbounds
  have hduration : Function.Injective fun d : Duration => d.display.toList :=
    fun a b hab => Duration.display_injective (String.toList_inj.1 hab)
  exact eq_of_mark_of_durations (String.toList_inj.1 hmark)
    (List.map_injective_iff.2 hduration htexts)

/-- The characters of the word in front, of the marks and of the separator. -/
def isMarkChar (c : Char) : Bool := "for any=<>.".toList.contains c

theorem isMarkChar_of_mem_mark (l : Length) : ∀ c ∈ l.mark.toList, isMarkChar c = true := by
  have hall : marks.all (·.toList.all isMarkChar) = true := rfl
  exact List.all_eq_true.1 (List.all_eq_true.1 hall l.mark l.mark_mem)

/-- The characters of a length are those around durations and those of durations. -/
theorem isChar_of_mem_display {l : Length} {c : Char} (hc : c ∈ l.display.toList) :
    isMarkChar c = true ∨ Duration.isTermChar c = true := by
  have hword : ∀ c ∈ "for ".toList, isMarkChar c = true := List.all_eq_true.1 rfl
  have hseparator : ∀ c ∈ "..".toList, isMarkChar c = true := List.all_eq_true.1 rfl
  rw [toList_display] at hc
  rcases List.mem_append.1 hc with hc | hc
  · exact .inl (hword c hc)
  · rcases List.mem_append.1 hc with hc | hc
    · exact .inl (l.isMarkChar_of_mem_mark c hc)
    · rcases mem_intercalate hc with hc | ⟨t, ht, hc⟩
      · exact .inl (hseparator c hc)
      · obtain ⟨d, -, rfl⟩ := List.mem_map.1 ht
        exact .inr (Duration.isTermChar_of_mem_display hc)

/-- Other characters do not occur in the text of a length. -/
theorem not_mem_display {c : Char} (hmark : isMarkChar c = false)
    (hterm : Duration.isTermChar c = false) (l : Length) : c ∉ l.display.toList := by
  intro hmem
  rcases isChar_of_mem_display hmem with hc | hc
  · rw [hc] at hmark
    cases hmark
  · rw [hc] at hterm
    cases hterm

end Length

namespace Constraints

/-- The texts of the constraints that are set. -/
def shown (k : Constraints) : List String :=
  (k.within.map fun d => "within " ++ d.display).toList ++
    (k.after.map fun d => "after " ++ d.display).toList ++
    (k.length.map Length.display).toList

theorem toList_display (k : Constraints) : k.display.toList =
    if k.shown.isEmpty then "unconstrained".toList
    else '[' :: (", ".toList.intercalate (k.shown.map String.toList) ++ [']']) := by
  have hdisplay : k.display = if k.shown.isEmpty then "unconstrained"
    else "[" ++ String.intercalate ", " k.shown ++ "]" := rfl
  rw [hdisplay]
  split
  · rfl
  · rw [String.toList_append, String.toList_append, String.toList_intercalate]
    rfl

/-- The first letter of its text says which constraint is shown. -/
theorem find?_shown (k : Constraints) :
    k.shown.find? (·.toList.head? == some 'w') =
        k.within.map (fun d => "within " ++ d.display) ∧
      k.shown.find? (·.toList.head? == some 'a') =
        k.after.map (fun d => "after " ++ d.display) ∧
      k.shown.find? (·.toList.head? == some 'f') = k.length.map Length.display := by
  have hlength : ∀ l : Length, l.display.toList.head? = some 'f' := by
    intro l
    rw [Length.toList_display]
    rfl
  obtain ⟨within, after, length⟩ := k
  cases within <;> cases after <;> cases length <;> simp [shown, hlength]

theorem shown_injective : Function.Injective shown := by
  intro k k' h
  obtain ⟨hwithin, hafter, hlength⟩ := find?_shown k
  obtain ⟨hwithin', hafter', hlength'⟩ := find?_shown k'
  rw [h] at hwithin hafter hlength
  have hword : ∀ word : String, Function.Injective fun d : Duration => word ++ d.display := by
    intro word a b hab
    have htext := congrArg String.toList hab
    simp only [String.toList_append, List.append_cancel_left_eq] at htext
    exact Duration.display_injective (String.toList_inj.1 htext)
  have hw := Option.map_injective (hword _) (hwithin.symm.trans hwithin')
  have ha := Option.map_injective (hword _) (hafter.symm.trans hafter')
  have hl := Option.map_injective Length.display_injective (hlength.symm.trans hlength')
  cases k
  cases k'
  simp_all

theorem ne_nil_of_mem_shown {k : Constraints} {t : List Char}
    (ht : t ∈ k.shown.map String.toList) : t ≠ [] ∧ ',' ∉ t := by
  obtain ⟨s, hs, rfl⟩ := List.mem_map.1 ht
  simp only [shown, List.mem_append, Option.mem_toList, Option.map_eq_some_iff] at hs
  rcases hs with (⟨d, -, rfl⟩ | ⟨d, -, rfl⟩) | ⟨l, -, rfl⟩
  · have hcomma : ',' ∉ d.display.toList := d.not_mem_display rfl
    simp [hcomma]
  · have hcomma : ',' ∉ d.display.toList := d.not_mem_display rfl
    simp [hcomma]
  · refine ⟨?_, l.not_mem_display rfl rfl⟩
    rw [Length.toList_display]
    exact List.cons_ne_nil _ _

theorem display_injective : Function.Injective display := by
  intro k k' h
  have htext : k.display.toList = k'.display.toList := by rw [h]
  rw [toList_display, toList_display] at htext
  refine shown_injective ?_
  split at htext
  · next hnil =>
      split at htext
      · next hnil' => rw [List.isEmpty_iff.1 hnil, List.isEmpty_iff.1 hnil']
      · cases htext
  · split at htext
    · cases htext
    · have hparts := List.append_cancel_right (List.cons.inj htext).2
      have htexts := intercalate_inj (fun _ => ne_nil_of_mem_shown)
        (fun _ => ne_nil_of_mem_shown) hparts
      exact List.map_injective_iff.2 (fun _ _ => String.toList_inj.1) htexts

/-- Objects that state no constraints before are told apart by those that are stated in them. -/
theorem apply_obj_inj {k k' : Constraints} {members : Fields Json}
    (hmembers : ∀ m ∈ members, isKey m.1 = false)
    (h : k.apply (.obj members) = k'.apply (.obj members)) : k = k' := by
  have hempty := statedIn_empty hmembers
  have hobject : Fields.insertAll members k.fields = Fields.insertAll members k'.fields := by
    simpa [apply] using h
  have hstated := statedIn_fields k hempty
  rw [hobject] at hstated
  exact hstated.eq (statedIn_fields k' hempty)

end Constraints

namespace QueryError

/-- The message about a conflict names both lengths, and the word between them has a letter that
the text of no length has. -/
theorem message_conflictingLengths_inj {l r l' r' : Length}
    (h : (conflictingLengths l r).message = (conflictingLengths l' r').message) :
    l = l' ∧ r = r' := by
  have hclass : ∀ l : Length, ∀ c ∈ l.display.toList ++ [' '], (c != 'v') = true := by
    intro l c hc
    have hmem : 'v' ∉ l.display.toList ++ [' '] := by
      simpa using l.not_mem_display rfl rfl
    exact bne_iff_ne.2 fun heq => hmem (heq ▸ hc)
  have hmessage : ∀ l r : Length, (conflictingLengths l r).message.toList =
      "Conflicting duration constraints: ".toList ++
        ((l.display.toList ++ [' ']) ++ ("vs ".toList ++ r.display.toList)) := by
    intro l r
    have hwords : (conflictingLengths l r).message =
        "Conflicting duration constraints: " ++ (l.display ++ " vs " ++ r.display) := rfl
    rw [hwords]
    simp
  have htext : (conflictingLengths l r).message.toList =
      (conflictingLengths l' r').message.toList := by rw [h]
  rw [hmessage, hmessage, List.append_cancel_left_eq] at htext
  have hhead : ∀ r : Length, ∀ c ∈ ("vs ".toList ++ r.display.toList).head?,
      (c != 'v') = false := by
    intro r c hc
    cases hc
    rfl
  obtain ⟨hleft, hright⟩ :=
    Text.append_inj_of_class (hclass l) (hclass l') (hhead r) (hhead r') htext
  exact ⟨Length.display_injective (String.toList_inj.1 (List.append_cancel_right hleft)),
    Length.display_injective (String.toList_inj.1 (List.append_cancel_left hright))⟩

end QueryError

namespace Constraints

/-- Nothing is lost when constraints are stated in an object or shown, nor when two lengths are
named that exclude each other. -/
theorem renderings_inj {members : Fields Json} (hmembers : ∀ m ∈ members, isKey m.1 = false)
    (k k' : Constraints) :
    (k.apply (.obj members) = k'.apply (.obj members) ↔ k = k') ∧
      (k.display = k'.display ↔ k = k') ∧
      ∀ l r l' r' : Length,
        (QueryError.conflictingLengths l r).message =
            (QueryError.conflictingLengths l' r').message ↔ l = l' ∧ r = r' := by
  refine ⟨⟨apply_obj_inj hmembers, fun h => h ▸ rfl⟩, display_injective.eq_iff,
    fun l r l' r' => ⟨QueryError.message_conflictingLengths_inj, ?_⟩⟩
  rintro ⟨rfl, rfl⟩
  rfl

/-- The symbol of minutes is the beginning of the one of months, and yet they are told apart. -/
theorem renderings_inj_minute_month :
    ({ within := some { minutes := 1 } } : Constraints).apply (.obj [("type", .str "span")]) ≠
        ({ within := some { months := 1 } } : Constraints).apply (.obj [("type", .str "span")]) ∧
      ({ within := some { minutes := 1 } } : Constraints).display ≠
        ({ within := some { months := 1 } } : Constraints).display := by
  have hne : ({ within := some { minutes := 1 } } : Constraints) ≠
      { within := some { months := 1 } } := by decide
  obtain ⟨hobject, htext, -⟩ := @renderings_inj [("type", .str "span")] (by simp [isKey])
    { within := some { minutes := 1 } } { within := some { months := 1 } }
  exact ⟨fun h => hne (hobject.1 h), fun h => hne (htext.1 h)⟩

end Constraints

end EventSearch
