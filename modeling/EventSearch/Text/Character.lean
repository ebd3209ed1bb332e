import EventSearch.Text.AlphanumericRanges
import EventSearch.Text.ExtenderRanges
import EventSearch.Text.HiddenRanges

/-!
# Classes of characters

Membership of a character in the classes that path segments, trimming and quoting
are defined by.
-/
namespace EventSearch.Text

/-- Whether a code point lies in one of the inclusive ranges, which are in increasing order. -/
def covers : List (Nat × Nat) → Nat → Bool
  | [], _ => false
  | (lo, hi) :: rest, n => if n < lo then false else n ≤ hi || covers rest n

theorem exists_of_covers {ranges : List (Nat × Nat)} {n : Nat} (h : covers ranges n = true) :
    ∃ r ∈ ranges, r.1 ≤ n ∧ n ≤ r.2 := by
  induction ranges with
  | nil => cases h
  | cons r rest ih =>
      obtain ⟨lo, hi⟩ := r
      rw [covers] at h
      split at h
      · cases h
      · next hlo =>
          rcases Bool.or_eq_true_iff.1 h with hhi | hrest
          · exact ⟨(lo, hi), List.mem_cons_self, Nat.le_of_not_lt hlo, of_decide_eq_true hhi⟩
          · obtain ⟨r, hr, hn⟩ := ih hrest
            exact ⟨r, List.mem_cons_of_mem _ hr, hn⟩

/-- Whether every range of one list ends before or begins behind every range of the other. -/
def apart (rs ss : List (Nat × Nat)) : Bool :=
  rs.all fun r => ss.all fun s => r.2 < s.1 || s.2 < r.1

theorem covers_eq_false_of_apart {rs ss : List (Nat × Nat)} (h : apart rs ss = true) {n : Nat}
    (hn : covers rs n = true) : covers ss n = false := by
  rw [Bool.eq_false_iff]
  intro hn'
  obtain ⟨r, hr, hlow, hhigh⟩ := exists_of_covers hn
  obtain ⟨s, hs, hlow', hhigh'⟩ := exists_of_covers hn'
  have hapart := List.all_eq_true.1 (List.all_eq_true.1 h r hr) s hs
  rw [Bool.or_eq_true, decide_eq_true_iff, decide_eq_true_iff] at hapart
  omega

def isAlphanumeric (c : Char) : Bool := covers AlphanumericRanges.ranges c.toNat

def isExtender (c : Char) : Bool := covers ExtenderRanges.ranges c.toNat

def isHidden (c : Char) : Bool := covers HiddenRanges.ranges c.toNat

/-- Inclusive ranges of the white space characters. -/
def blankRanges : List (Nat × Nat) :=
  [(0x9, 0xd), (0x20, 0x20), (0x85, 0x85), (0xa0, 0xa0), (0x1680, 0x1680), (0x2000, 0x200a),
   (0x2028, 0x2029), (0x202f, 0x202f), (0x205f, 0x205f), (0x3000, 0x3000)]

def isBlank (c : Char) : Bool := covers blankRanges c.toNat

theorem isBlank_of_isAlphanumeric {c : Char} (h : isAlphanumeric c = true) :
    isBlank c = false := by
  have hapart : apart AlphanumericRanges.ranges blankRanges = true := by decide +kernel
  exact covers_eq_false_of_apart hapart h

/-- The text without the white space at its two ends. -/
def trimChars (cs : List Char) : List Char :=
  ((cs.dropWhile isBlank).reverse.dropWhile isBlank).reverse

end EventSearch.Text
