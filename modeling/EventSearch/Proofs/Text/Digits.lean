import EventSearch.Text.Digits

/-!
# Reading back what is written with digits

The digits of a number denote that number, also with zeros in front. A number that has no more
digits than the width takes exactly that many characters.
-/
namespace EventSearch.Text

theorem isDigit_eq (c : Char) : isDigit c = c.isDigit := by
  unfold isDigit digitValue?
  by_cases h : '0' ≤ c ∧ c ≤ '9'
  · rw [if_pos h]
    exact (Bool.and_eq_true_iff.2 ⟨decide_eq_true h.1, decide_eq_true h.2⟩).symm
  · rw [if_neg h]
    refine (Bool.eq_false_iff.2 fun hdigit => h ?_).symm
    obtain ⟨hlow, hhigh⟩ := Bool.and_eq_true_iff.1 hdigit
    exact ⟨of_decide_eq_true hlow, of_decide_eq_true hhigh⟩

theorem isDigit_of_mem_digitsIn {n : Nat} {c : Char} (h : c ∈ digitsIn 10 n) :
    isDigit c = true := by
  rw [isDigit_eq]
  exact Nat.isDigit_of_mem_toDigits (by decide) (by decide) h

theorem ofDigits_digitsIn (n : Nat) : ofDigits (digitsIn 10 n) = n := Nat.ofDigitChars_ten_toDigits

theorem length_digitsIn_le {width n : Nat} (hwidth : 0 < width) (h : n < Nat.pow 10 width) :
    (digitsIn 10 n).length ≤ width := (Nat.length_toDigits_le_iff (by decide) hwidth).2 h

theorem ofDigits_zeroPadded (width : Nat) (digits : List Char) :
    ofDigits (zeroPadded width digits) = ofDigits digits := by
  have hzeros : ofDigits (List.replicate (width - digits.length) '0') = 0 := by
    exact Nat.ofDigitChars_replicate_zero.trans (Nat.mul_zero _)
  have happend := Nat.ofDigitChars_append (b := 10) (m := digits)
    (l := List.replicate (width - digits.length) '0') 0
  change ofDigits (zeroPadded width digits) = Nat.ofDigitChars 10 digits (ofDigits _) at happend
  rw [happend, hzeros]
  rfl

theorem all_isDigit_zeroPadded (width n : Nat) :
    (zeroPadded width (digitsIn 10 n)).all isDigit = true := by
  refine List.all_eq_true.2 fun c hc => ?_
  rcases List.mem_append.1 hc with hc | hc
  · rw [List.eq_of_mem_replicate hc]
    rfl
  · exact isDigit_of_mem_digitsIn hc

theorem length_zeroPadded {width n : Nat} (hwidth : 0 < width) (h : n < Nat.pow 10 width) :
    (zeroPadded width (digitsIn 10 n)).length = width := by
  have hlen : (digitsIn 10 n).length ≤ width := length_digitsIn_le hwidth h
  rw [zeroPadded, List.length_append, List.length_replicate]
  omega

theorem toList_padded (width n : Nat) :
    (padded width n).toList = zeroPadded width (digitsIn 10 n) := String.toList_ofList

theorem ofDigits_cons (c : Char) (digits : List Char) :
    ofDigits (c :: digits) = Nat.pow 10 digits.length * (c.toNat - 48) + ofDigits digits := by
  have hcons : ofDigits (c :: digits) = Nat.ofDigitChars 10 digits (10 * 0 + (c.toNat - 48)) := rfl
  rw [hcons, Nat.ofDigitChars_eq_ofDigitChars_zero, Nat.mul_zero, Nat.zero_add]
  rfl

theorem ofDigits_lt {digits : List Char} (h : digits.all isDigit = true) :
    ofDigits digits < Nat.pow 10 digits.length := by
  induction digits with
  | nil => exact Nat.one_pos
  | cons c digits ih =>
      obtain ⟨hc, hdigits⟩ := Bool.and_eq_true_iff.1 (List.all_cons ▸ h)
      have hle : c.toNat ≤ 57 := by
        rw [isDigit_eq] at hc
        exact of_decide_eq_true (Bool.and_eq_true_iff.1 hc).2
      have hvalue : c.toNat - 48 ≤ 9 := by omega
      have hfirst := Nat.mul_le_mul_left (Nat.pow 10 digits.length) hvalue
      have hrest := ih hdigits
      rw [ofDigits_cons, List.length_cons]
      change _ < Nat.pow 10 digits.length * 10
      omega

theorem ne_of_mem_digitsIn {n : Nat} {c d : Char} (hd : isDigit d = false)
    (hc : c ∈ digitsIn 10 n) : c ≠ d := by
  rintro rfl
  rw [isDigit_of_mem_digitsIn hc] at hd
  cases hd

theorem digitsIn_ne_cons {n : Nat} {d : Char} (hd : isDigit d = false) (rest : List Char) :
    digitsIn 10 n ≠ d :: rest := by
  intro h
  have hmem : d ∈ digitsIn 10 n := h ▸ List.mem_cons_self
  exact ne_of_mem_digitsIn hd hmem rfl

theorem natural?_digitsIn (n : Nat) : natural? (digitsIn 10 n) = some n := by
  have hall : (digitsIn 10 n).all isDigit = true :=
    List.all_eq_true.2 fun c hc => isDigit_of_mem_digitsIn hc
  have hne : (digitsIn 10 n).isEmpty = false := List.isEmpty_eq_false_iff.2 Nat.toDigits_ne_nil
  unfold natural?
  split
  · next h => exact absurd h (digitsIn_ne_cons rfl _)
  · simp only [hne, hall, ofDigits_digitsIn, Bool.not_true, Bool.or_self, Bool.false_eq_true,
      if_false]

theorem integer?_digitsIn (n : Nat) : integer? (digitsIn 10 n) = some (n : Int) := by
  unfold integer?
  split
  · next h => exact absurd h (digitsIn_ne_cons rfl _)
  · next h => exact absurd h (digitsIn_ne_cons rfl _)
  · rw [natural?_digitsIn]
    rfl

end EventSearch.Text
