import LabLease.Text

/-!
# What trimming leaves

Trimming takes blank characters away at both ends and nothing else, until there are none to take
(`Text.Trimmed`); that describes what is left uniquely (`Text.trim_eq_iff`). So blank characters
around a text do not matter to it (`Text.trim_blank_append`, `Text.trim_append_blank`), and it works
separately on what stands before and after a character that is not blank (`Text.trim_append_cons`).
-/

namespace LabLease.Text

variable {cs core front back : List Char} {c : Char}

/-- A text consists of another one and of blank characters around it, and at the ends of the other
one there are none. -/
structure Trimmed (cs core : List Char) : Prop where
  around : ∃ front back, cs = front ++ (core ++ back) ∧ (∀ c ∈ front, isBlank c = true) ∧
    ∀ c ∈ back, isBlank c = true
  head {c : Char} (hc : core.head? = some c) : isBlank c = false
  last {c : Char} (hc : core.getLast? = some c) : isBlank c = false

/-! ## Blank characters around a text -/

theorem trimStart_blank_append (h : ∀ c ∈ front, isBlank c = true) :
    trimStart (front ++ cs) = trimStart cs :=
  List.dropWhile_append_of_pos h

theorem trimEnd_append_blank (h : ∀ c ∈ back, isBlank c = true) :
    trimEnd (cs ++ back) = trimEnd cs := by
  rw [trimEnd, List.reverse_append, List.dropWhile_append_of_pos (by simpa using h), trimEnd]

/-- In front of a character that is not blank, only the front is trimmed. -/
theorem trimStart_append_cons (hc : isBlank c = false) :
    trimStart (front ++ c :: back) = trimStart front ++ c :: back := by
  rw [trimStart, List.dropWhile_append, trimStart]
  split
  · next h => rw [List.isEmpty_iff.1 h, List.dropWhile_cons_of_neg (by simp [hc])]; rfl
  · rfl

/-- Behind a character that is not blank, only the back is trimmed. -/
theorem trimEnd_append_cons (hc : isBlank c = false) :
    trimEnd (front ++ c :: back) = front ++ c :: trimEnd back := by
  have mirrored : trimStart (back.reverse ++ c :: front.reverse) =
      trimStart back.reverse ++ c :: front.reverse := trimStart_append_cons hc
  rw [trimStart, trimStart] at mirrored
  rw [trimEnd, List.reverse_append, List.reverse_cons, List.append_assoc, List.singleton_append,
    mirrored, trimEnd]
  simp

/-- A character that is not blank divides the work. -/
theorem trim_append_cons (hc : isBlank c = false) :
    trim (front ++ c :: back) = trimStart front ++ c :: trimEnd back := by
  rw [trim, trimStart_append_cons hc, trimEnd_append_cons hc]

/-- A text is blank, or it has a first character that is not. -/
theorem forall_isBlank_or_split (cs : List Char) :
    (∀ c ∈ cs, isBlank c = true) ∨ ∃ front c back, cs = front ++ c :: back ∧
      (∀ c ∈ front, isBlank c = true) ∧ isBlank c = false := by
  induction cs with
  | nil => exact .inl nofun
  | cons c cs ih =>
    cases hc : isBlank c with
    | false => exact .inr ⟨[], c, cs, rfl, nofun, hc⟩
    | true =>
      obtain h | ⟨front, c', back, rfl, hfront, hc'⟩ := ih
      · exact .inl (List.forall_mem_cons.2 ⟨hc, h⟩)
      · exact .inr ⟨c :: front, c', back, rfl, List.forall_mem_cons.2 ⟨hc, hfront⟩, hc'⟩

/-- Blank characters in front do not matter. -/
theorem trim_blank_append (h : ∀ c ∈ front, isBlank c = true) : trim (front ++ cs) = trim cs := by
  rw [trim, trimStart_blank_append h, trim]

/-- Blank characters at the back do not matter. -/
theorem trim_append_blank (h : ∀ c ∈ back, isBlank c = true) : trim (cs ++ back) = trim cs := by
  obtain hcs | ⟨front, c, rest, rfl, -, hc⟩ := forall_isBlank_or_split cs
  · rw [trim_eq_nil_iff.2 hcs, trim_eq_nil_iff, List.forall_mem_append]
    exact ⟨hcs, h⟩
  · rw [List.append_assoc, List.cons_append, trim_append_cons hc, trim_append_cons hc,
      trimEnd_append_blank h]

/-- What is trimmed in front may be trimmed again. -/
theorem trim_trimStart (cs : List Char) : trim (trimStart cs) = trim cs := by
  have h : ∀ c ∈ cs.takeWhile isBlank, isBlank c = true := List.all_eq_true.1 List.all_takeWhile
  rw [← trim_blank_append h, trimStart, List.takeWhile_append_dropWhile]

/-- Only blank characters are trimmed at the back. -/
theorem exists_trimEnd (cs : List Char) :
    ∃ back, cs = trimEnd cs ++ back ∧ ∀ c ∈ back, isBlank c = true := by
  refine ⟨(cs.reverse.takeWhile isBlank).reverse, ?_, ?_⟩
  · rw [trimEnd, ← List.reverse_append, List.takeWhile_append_dropWhile, List.reverse_reverse]
  · intro c hc
    exact List.all_eq_true.1 List.all_takeWhile c (List.mem_reverse.1 hc)

/-- What is trimmed at the back may be trimmed again. -/
theorem trim_trimEnd (cs : List Char) : trim (trimEnd cs) = trim cs := by
  obtain ⟨back, hcs, hback⟩ := exists_trimEnd cs
  calc trim (trimEnd cs) = trim (trimEnd cs ++ back) := (trim_append_blank hback).symm
    _ = trim cs := by rw [← hcs]

/-! ## What is left -/

/-- No blank character is left in front. -/
theorem isBlank_of_head?_trimStart (h : (trimStart cs).head? = some c) : isBlank c = false := by
  have := List.head?_dropWhile_not isBlank cs
  rwa [show (cs.dropWhile isBlank).head? = some c from h] at this

/-- No blank character is left at the back. -/
theorem isBlank_of_getLast?_trimEnd (h : (trimEnd cs).getLast? = some c) : isBlank c = false := by
  rw [trimEnd, List.getLast?_reverse] at h
  exact isBlank_of_head?_trimStart h

/-- What begins with no blank character stays as it is in front. -/
theorem trimStart_eq_self (h : ∀ c, cs.head? = some c → isBlank c = false) : trimStart cs = cs := by
  cases cs with
  | nil => rfl
  | cons c cs => exact List.dropWhile_cons_of_neg (by simp [h c rfl])

/-- What ends with no blank character stays as it is at the back. -/
theorem trimEnd_eq_self (h : ∀ c, cs.getLast? = some c → isBlank c = false) : trimEnd cs = cs := by
  have mirrored : trimStart cs.reverse = cs.reverse :=
    trimStart_eq_self fun c hc => h c (by rwa [List.head?_reverse] at hc)
  rw [trimEnd, show cs.reverse.dropWhile isBlank = cs.reverse from mirrored, List.reverse_reverse]

/-- Trimming takes blank characters away at both ends and leaves none there. -/
theorem trimmed_trim (cs : List Char) : Trimmed cs (trim cs) := by
  obtain h | ⟨front, c, rest, rfl, hfront, hc⟩ := forall_isBlank_or_split cs
  · rw [trim_eq_nil_iff.2 h]
    exact ⟨⟨cs, [], by simp, h, nofun⟩, nofun, nofun⟩
  · obtain ⟨back, hrest, hback⟩ := exists_trimEnd rest
    have left : trim (front ++ c :: rest) = c :: trimEnd rest := by
      rw [trim_append_cons hc, trimStart_eq_nil_iff.2 hfront, List.nil_append]
    rw [left]
    refine ⟨⟨front, back, by rw [List.cons_append, ← hrest], hfront, hback⟩, ?_, fun h => ?_⟩
    · rintro _ ⟨⟩
      exact hc
    · rw [← List.nil_append (c :: trimEnd rest), ← trimEnd_append_cons hc] at h
      exact isBlank_of_getLast?_trimEnd h

/-- Nothing else is what trimming leaves. -/
theorem trim_eq_iff : trim cs = core ↔ Trimmed cs core := by
  constructor
  · rintro rfl
    exact trimmed_trim cs
  · rintro ⟨⟨front, back, rfl, hfront, hback⟩, hhead, hlast⟩
    rw [trim_blank_append hfront, trim_append_blank hback, trim,
      trimStart_eq_self fun _ => hhead, trimEnd_eq_self fun _ => hlast]

/-- What is left stays as it is. -/
theorem Trimmed.self (h : Trimmed cs core) : Trimmed core core where
  around := ⟨[], [], by simp, nofun, nofun⟩
  head := h.head
  last := h.last

/-- What is left was there. -/
theorem Trimmed.subset (h : Trimmed cs core) : core ⊆ cs := by
  obtain ⟨front, back, rfl, -, -⟩ := h.around
  intro c hc
  simp [hc]

/-- What is not blank is left. -/
theorem Trimmed.mem (h : Trimmed cs core) (hc : c ∈ cs) (hb : isBlank c = false) : c ∈ core := by
  obtain ⟨front, back, rfl, hfront, hback⟩ := h.around
  rw [List.mem_append, List.mem_append] at hc
  obtain hc | hc | hc := hc
  · rw [hfront c hc] at hb
    cases hb
  · exact hc
  · rw [hback c hc] at hb
    cases hb

/-- Blank characters in front do not change what is left. -/
theorem Trimmed.blank_append (h : Trimmed cs core) (hb : ∀ c ∈ front, isBlank c = true) :
    Trimmed (front ++ cs) core :=
  trim_eq_iff.1 ((trim_blank_append hb).trans (trim_eq_iff.2 h))

/-- Blank characters at the back do not change what is left. -/
theorem Trimmed.append_blank (h : Trimmed cs core) (hb : ∀ c ∈ back, isBlank c = true) :
    Trimmed (cs ++ back) core :=
  trim_eq_iff.1 ((trim_append_blank hb).trans (trim_eq_iff.2 h))

/-- The text that is left. -/
theorem trimmed_toList_iff {s : String} : Trimmed cs s.toList ↔ s = String.ofList (trim cs) := by
  rw [← trim_eq_iff]
  constructor
  · intro h
    rw [h, String.ofList_toList]
  · rintro rfl
    rw [String.toList_ofList]

end LabLease.Text
