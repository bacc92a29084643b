/-!
# Blank characters, trimming and digits

`isBlank` is Unicode's property `White_Space`, and `trim` drops blank characters at both ends of
a text. Texts are lists of characters here, so that every definition is structurally recursive
and a closed instance reduces.

`trim_eq_nil_iff` says that exactly the all-blank texts trim to nothing: the two places that ask
whether a text is blank (a whole selector, a clause's key) ask one question.

`word?` reads a number that is written with digits alone, and refuses one that does not fit in
64 bits. `word?_repr` says that every number is read back from its digits.
-/

namespace LabLease.Text

/-! ## Blank characters -/

/-- A blank character: one with Unicode's property `White_Space`, of which there are 25. -/
def isBlank (c : Char) : Bool :=
  ('\u0009' ≤ c && c ≤ '\u000d') || c == ' ' || c == '\u0085' || c == '\u00a0' ||
    c == '\u1680' || ('\u2000' ≤ c && c ≤ '\u200a') || c == '\u2028' || c == '\u2029' ||
    c == '\u202f' || c == '\u205f' || c == '\u3000'

/-- The text without its blank characters at the front. -/
def trimStart (cs : List Char) : List Char := cs.dropWhile isBlank

/-- The text without its blank characters at the back. -/
def trimEnd (cs : List Char) : List Char := (cs.reverse.dropWhile isBlank).reverse

/-- The text without its blank characters at either end. -/
def trim (cs : List Char) : List Char := trimEnd (trimStart cs)

/-- A text of blank characters only; the empty text is one. -/
def allBlank (s : String) : Bool := s.toList.all isBlank

theorem trimStart_eq_nil_iff {cs : List Char} : trimStart cs = [] ↔ ∀ c ∈ cs, isBlank c := by
  induction cs with
  | nil => simp [trimStart]
  | cons c cs ih => by_cases h : isBlank c <;> simp_all [trimStart]

theorem trimEnd_eq_nil_iff {cs : List Char} : trimEnd cs = [] ↔ ∀ c ∈ cs, isBlank c := by
  have h : trimStart cs.reverse = [] ↔ ∀ c ∈ cs.reverse, isBlank c := trimStart_eq_nil_iff
  rw [trimEnd, List.reverse_eq_nil_iff]
  exact h.trans (by simp)

/-- What is dropped in front is blank, so only an all-blank text trims to nothing. -/
theorem trim_eq_nil_iff {cs : List Char} : trim cs = [] ↔ ∀ c ∈ cs, isBlank c := by
  rw [trim, trimEnd_eq_nil_iff]
  induction cs with
  | nil => simp [trimStart]
  | cons c cs ih => by_cases h : isBlank c <;> simp_all [trimStart]

/-! ## Digits -/

/-- The number of 64 bits that a list of characters denotes: one or more digits and nothing else. -/
def word? (cs : List Char) : Option UInt64 :=
  if !cs.isEmpty && cs.all Char.isDigit && decide (Nat.ofDigitChars 10 cs 0 < UInt64.size) then
    some (UInt64.ofNat (Nat.ofDigitChars 10 cs 0))
  else none

/-- The digits of a number denote it. -/
theorem word?_repr (n : UInt64) : word? (Nat.repr n.toNat).toList = some n := by
  have hne : (Nat.toDigits 10 n.toNat).isEmpty = false := by
    simp [List.isEmpty_eq_false_iff, Nat.toDigits_ne_nil]
  have hall : (Nat.toDigits 10 n.toNat).all Char.isDigit = true :=
    List.all_eq_true.2 fun c hc => Nat.isDigit_of_mem_toDigits (by decide) (by decide) hc
  rw [word?, Nat.toList_repr, hne, hall, Nat.ofDigitChars_ten_toDigits]
  simp [n.toNat_lt_size]

end LabLease.Text
