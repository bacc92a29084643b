import LabLease.Json.Reader
import LabLease.Json.Writer
import Mathlib.Data.List.DropRight

/-!
# Reading what was written

`Json.Stands` says that characters are a written form of a value. A value has many, which differ in
white space; `Json.pretty` and `Json.compact` give one each. Whichever it is, it is read as the
value (`Stands.parse?_eq`).

All numbers that are written here are natural numbers in decimal digits, and `Stands` speaks of no
others (`Json.Plain`).
-/

namespace LabLease.Json

variable {cs rest ws : List Char} {v : Json} {fuel : Nat}

/-! ## White space -/

/-- Nothing but white space. -/
def Space (ws : List Char) : Prop := ∀ c ∈ ws, isSpace c = true

theorem space_singleton {c : Char} (hc : isSpace c = true) : Space [c] :=
  List.forall_mem_singleton.2 hc

theorem skipSpace_append (hw : Space ws) (cs : List Char) :
    skipSpace (ws ++ cs) = skipSpace cs := by
  rw [skipSpace, List.dropWhile_append_of_pos hw, skipSpace]

theorem skipSpace_cons {c : Char} (hc : isSpace c = false) (cs : List Char) :
    skipSpace (c :: cs) = c :: cs := by
  rw [skipSpace, List.dropWhile_cons_of_neg (by simp [hc])]

theorem skipSpace_closing (hw : Space ws) {c : Char} (hc : isSpace c = false) (cs : List Char) :
    skipSpace (ws ++ c :: cs) = c :: cs := by
  rw [skipSpace_append hw, skipSpace_cons hc]

theorem skipSpace_eq_nil (hw : Space ws) : skipSpace ws = [] := by
  rw [← List.append_nil ws, skipSpace_append hw]
  rfl

theorem skipSpace_skipSpace (cs : List Char) : skipSpace (skipSpace cs) = skipSpace cs :=
  List.dropWhile_idempotent isSpace cs

/-- White space in front of a value is passed over. -/
theorem readValue_append (hw : Space ws) (fuel : Nat) (cs : List Char) :
    readValue fuel (ws ++ cs) = readValue fuel cs := by
  cases fuel with
  | zero => rfl
  | succ fuel => rw [readValue, readValue, skipSpace_append hw]

theorem readValue_skipSpace (fuel : Nat) (cs : List Char) :
    readValue fuel (skipSpace cs) = readValue fuel cs := by
  cases fuel with
  | zero => rfl
  | succ fuel => rw [readValue, readValue, skipSpace_skipSpace]

theorem readElements_skipSpace (fuel : Nat) (cs : List Char) :
    readElements fuel (skipSpace cs) = readElements fuel cs := by
  cases fuel with
  | zero => rfl
  | succ fuel => rw [readElements, readElements, readValue_skipSpace]

theorem readMembers_skipSpace (fuel : Nat) (cs : List Char) :
    readMembers fuel (skipSpace cs) = readMembers fuel cs := by
  cases fuel with
  | zero => rfl
  | succ fuel => rw [readMembers, readMembers, skipSpace_skipSpace]

/-! ## Written forms -/

/-- Further parts of an array or an object, each behind a comma, and its end. -/
def moreParts (closing : List Char) : List (List Char) → List Char
  | [] => closing
  | p :: ps => ',' :: p ++ moreParts closing ps

theorem moreParts_cons_append (closing p : List Char) (ps : List (List Char)) (rest : List Char) :
    moreParts closing (p :: ps) ++ rest = ',' :: (p ++ (moreParts closing ps ++ rest)) := by
  rw [moreParts, List.cons_append, List.cons_append, List.append_assoc]

/-- A member of an object with a written form of its value, and the white space in front of it. -/
structure MemberForm where
  before : List Char
  key : Option String
  form : List Char
  value : Json

/-- The characters of a member. -/
def MemberForm.chars (m : MemberForm) : List Char := m.before ++ quote m.key ++ ':' :: m.form

theorem MemberForm.length_form_le (m : MemberForm) : m.form.length ≤ m.chars.length := by
  simp only [MemberForm.chars, List.length_append, List.length_cons]
  omega

/-- The characters are a written form of the value. -/
inductive Stands : List Char → Json → Prop
  | null : Stands ['n', 'u', 'l', 'l'] .null
  | bool (b : Bool) : Stands (word b) (.bool b)
  | number (n : Nat) : Stands (Nat.repr n).toList (.ofNat n)
  | text (s : Option String) : Stands (quote s) (.text s)
  | noElements : Stands ['[', ']'] (.array [])
  | array {ws : List Char} {p : List Char × Json} {ps : List (List Char × Json)} (hw : Space ws)
      (h : ∀ q ∈ p :: ps, Stands q.1 q.2) :
      Stands ('[' :: p.1 ++ moreParts (ws ++ [']']) (ps.map (·.1))) (.array (p.2 :: ps.map (·.2)))
  | noMembers : Stands ['{', '}'] (.object [])
  | object {ws : List Char} {m : MemberForm} {ms : List MemberForm} (hw : Space ws)
      (hb : ∀ q ∈ m :: ms, Space q.before) (h : ∀ q ∈ m :: ms, Stands q.form q.value) :
      Stands ('{' :: m.chars ++ moreParts (ws ++ ['}']) (ms.map (·.chars)))
        (.object ((m.key, m.value) :: ms.map fun q => (q.key, q.value)))
  | spaced {ws cs : List Char} {v : Json} (hw : Space ws) (h : Stands cs v) : Stands (ws ++ cs) v

/-! ## Scalars -/

/-- A string literal is read as what it denotes. -/
theorem readText_of_quote (s : Option String) :
    ∃ cs, quote s = '"' :: cs ∧ ∀ rest, readText (cs ++ rest) = some (s, rest) := by
  cases s with
  | some s =>
    refine ⟨s.toList.flatMap escape ++ ['"'], rfl, fun rest => ?_⟩
    rw [List.append_assoc]
    exact readText_quote s rest
  | none =>
    refine ⟨"\\ud800\"".toList, rfl, fun rest => ?_⟩
    have closing : readUnits ('"' :: rest) = some ([], rest) := by
      rw [readUnits.eq_def]
      simp
    have code : code? 'd' '8' '0' '0' = some 0xd800 := by decide
    simp [readText, readUnits, code, closing, joinUnits, isLow, isHigh]

/-- A number does not go on with what follows. -/
def Ends (rest : List Char) : Prop := ∀ c ∈ rest.head?, c.isDigit = false ∧ c ∉ ['.', 'e', 'E']

theorem ends_cons {c : Char} (hd : c.isDigit = false) (hc : c ∉ ['.', 'e', 'E']) :
    Ends (c :: rest) := by
  intro c' hc'
  obtain rfl := Option.some.inj hc'
  exact ⟨hd, hc⟩

/-- The digits of a positive number do not begin with zero. -/
theorem toDigits_of_pos {n : Nat} (hn : 0 < n) :
    ∃ c cs, Nat.toDigits 10 n = c :: cs ∧ c ≠ '0' := by
  induction n using Nat.strongRecOn with
  | ind n ih =>
    by_cases hlt : n < 10
    · have digits : ∀ n < 10, 0 < n → n.digitChar ≠ '0' := by decide
      exact ⟨_, [], Nat.toDigits_of_lt_base hlt, digits n hlt hn⟩
    · obtain ⟨c, cs, heq, hc⟩ := ih (n / 10) (by omega) (by omega)
      rw [Nat.toDigits_of_base_le (by decide) (by omega), heq]
      exact ⟨c, cs ++ [(n % 10).digitChar], rfl, hc⟩

/-- Digits are read up to what does not go on with them. -/
theorem readDigits_append {ds : List Char} (hne : ds ≠ []) (hd : ∀ c ∈ ds, c.isDigit = true)
    (he : Ends rest) : readDigits (ds ++ rest) = some (ds, rest) := by
  have stop : rest.takeWhile Char.isDigit = [] ∧ rest.dropWhile Char.isDigit = rest := by
    cases rest with
    | nil => exact ⟨rfl, rfl⟩
    | cons c rest =>
      have hc : c.isDigit = false := (he c rfl).1
      simp [hc]
  rw [readDigits, List.takeWhile_append_of_pos hd, List.dropWhile_append_of_pos hd, stop.1, stop.2,
    List.append_nil]
  cases ds with
  | nil => exact absurd rfl hne
  | cons => rfl

/-- The whole part of a number is read as far as the digits go. -/
theorem readWhole_toDigits (n : Nat) (he : Ends rest) :
    readWhole (Nat.toDigits 10 n ++ rest) = some (Nat.toDigits 10 n, rest) := by
  have digits : ∀ c ∈ Nat.toDigits 10 n, c.isDigit = true :=
    fun c hc => Nat.isDigit_of_mem_toDigits (by decide) (by decide) hc
  rcases Nat.eq_zero_or_pos n with rfl | hn
  · rfl
  · obtain ⟨c, cs, heq, hc⟩ := toDigits_of_pos hn
    have read := readDigits_append Nat.toDigits_ne_nil digits he
    rw [heq, List.cons_append] at read ⊢
    rw [readWhole, read]
    simpa using hc

/-- The digits of a number begin with one. -/
theorem toDigits_eq_cons (n : Nat) :
    ∃ c cs, Nat.toDigits 10 n = c :: cs ∧ ∀ c' : Char, c'.isDigit = false → c ≠ c' := by
  cases heq : Nat.toDigits 10 n with
  | nil => exact absurd heq Nat.toDigits_ne_nil
  | cons c cs =>
    have hc : c.isDigit = true :=
      Nat.isDigit_of_mem_toDigits (by decide) (by decide) (heq ▸ List.mem_cons_self)
    refine ⟨c, cs, rfl, ?_⟩
    rintro _ h rfl
    rw [hc] at h
    cases h

/-- A number in decimal digits is read as far as the digits go. -/
theorem readNumber_toDigits (n : Nat) (he : Ends rest) :
    readNumber (Nat.toDigits 10 n ++ rest) = some (Nat.toDigits 10 n, rest) := by
  have minus : readMinus (Nat.toDigits 10 n ++ rest) = ([], Nat.toDigits 10 n ++ rest) := by
    obtain ⟨c, cs, heq, other⟩ := toDigits_eq_cons n
    rw [heq, List.cons_append, readMinus]
    exact fun _ h => other '-' rfl (List.cons.inj h).1
  have fraction : readFraction rest = some ([], rest) := by
    cases rest with
    | nil => rfl
    | cons c rest =>
      have hc : c ≠ '.' := fun h => (he c rfl).2 (h ▸ List.mem_cons_self)
      rw [readFraction]
      exact fun _ h => hc (List.cons.inj h).1
  have exponent : readExponent rest = some ([], rest) := by
    cases rest with
    | nil => rfl
    | cons c rest =>
      have hc := (he c rfl).2
      rw [readExponent, if_neg]
      rintro (rfl | rfl) <;> simp at hc
  simp [readNumber, minus, readWhole_toDigits n he, fraction, exponent]

/-- A word or a number is read as what it is. -/
theorem readValue_of_readScalar {c : Char} (hc : isSpace c = false) (ht : c ≠ '"') (ha : c ≠ '[')
    (ho : c ≠ '{') {x : Option (Json × List Char)} (h : readScalar (c :: cs) = x) :
    readValue (fuel + 1) (c :: cs) = x := by
  rw [readValue, skipSpace_cons hc]
  simp only [ht, ha, ho, if_false, h]

/-- A word that begins with another character is not met. -/
theorem afterWord_of_ne {c c' : Char} (h : c' ≠ c) (w cs : List Char) :
    afterWord (c' :: w) (c :: cs) = none := by
  simp [afterWord, h]

/-- A natural number is read as itself. -/
theorem readValue_number (n : Nat) (he : Ends rest) :
    readValue (fuel + 1) ((Nat.repr n).toList ++ rest) = some (.ofNat n, rest) := by
  rw [Nat.toList_repr]
  have read := readNumber_toDigits n he
  have literal : String.ofList (Nat.toDigits 10 n) = Nat.repr n := rfl
  obtain ⟨c, cs, heq, other⟩ := toDigits_eq_cons n
  rw [heq, List.cons_append] at read ⊢
  refine readValue_of_readScalar ?_ (other _ rfl) (other _ rfl) (other _ rfl) ?_
  · simp [isSpace, other]
  · have no (c' : Char) (w : List Char) (hc : c'.isDigit = false) :
        afterWord (c' :: w) (c :: (cs ++ rest)) = none :=
      afterWord_of_ne (other c' hc).symm w _
    simp only [readScalar, no 'n' _ rfl, no 't' _ rfl, no 'f' _ rfl, read, Option.map_some, ← heq,
      literal]
    rfl

/-- A word is read as what it stands for. -/
theorem readValue_word (b : Bool) :
    readValue (fuel + 1) (word b ++ rest) = some (.bool b, rest) := by
  cases b with
  | true => exact readValue_of_readScalar rfl (by decide) (by decide) (by decide) rfl
  | false => exact readValue_of_readScalar rfl (by decide) (by decide) (by decide) rfl

theorem readValue_null :
    readValue (fuel + 1) (['n', 'u', 'l', 'l'] ++ rest) = some (.null, rest) :=
  readValue_of_readScalar rfl (by decide) (by decide) (by decide) rfl

/-- A string literal is read as the string. -/
theorem readValue_quote (s : Option String) :
    readValue (fuel + 1) (quote s ++ rest) = some (.text s, rest) := by
  obtain ⟨cs, heq, read⟩ := readText_of_quote s
  rw [heq, List.cons_append, readValue, skipSpace_cons rfl]
  simp only [if_true, read rest]
  rfl

/-! ## Arrays and objects -/

theorem ends_of_space {c : Char} (hc : isSpace c = true) : Ends (c :: rest) := by
  have : c = ' ' ∨ c = '\t' ∨ c = '\n' ∨ c = '\r' := by simpa [isSpace, or_assoc] using hc
  rcases this with rfl | rfl | rfl | rfl <;> exact ends_cons rfl (by decide)

/-- No number goes on with white space and what ends an array or an object. -/
theorem ends_closing {c : Char} (hw : Space ws) (he : Ends (c :: rest)) :
    Ends (ws ++ c :: rest) := by
  cases ws with
  | nil => exact he
  | cons c' ws => exact ends_of_space (hw c' List.mem_cons_self)

theorem ends_bracket : Ends (']' :: rest) := ends_cons rfl (by decide)

theorem ends_brace : Ends ('}' :: rest) := ends_cons rfl (by decide)

/-- A written form is read as the value, and what follows is left. A step into a value, or on to the
next one, takes one unit of fuel and leaves a character behind, so two for each suffice. -/
def ReadsAs (cs : List Char) (v : Json) : Prop :=
  ∀ (fuel : Nat) (rest : List Char), 2 * cs.length ≤ fuel → Ends rest →
    readValue fuel (cs ++ rest) = some (v, rest)

/-- An element that the bracket follows is the last. -/
theorem readElements_last {cs' : List Char} (h : ReadsAs cs v) (hf : 2 * cs.length ≤ fuel)
    (he : Ends rest) (hr : skipSpace rest = ']' :: cs') :
    readElements (fuel + 1) (cs ++ rest) = some ([v], cs') := by
  simp only [readElements, h fuel rest hf he, hr]

/-- An element that a comma follows is read, and then the others. -/
theorem readElements_more {cs' cs'' : List Char} {vs : List Json} (h : ReadsAs cs v)
    (hf : 2 * cs.length ≤ fuel) (he : Ends rest) (hr : skipSpace rest = ',' :: cs')
    (hrest : readElements fuel cs' = some (vs, cs'')) :
    readElements (fuel + 1) (cs ++ rest) = some (v :: vs, cs'') := by
  simp only [readElements, h fuel rest hf he, hr, hrest, Option.map_some]

/-- The elements of an array are read if each of them is. -/
theorem readElements_parts (hw : Space ws) {p : List Char × Json} {ps : List (List Char × Json)}
    (h : ∀ q ∈ p :: ps, ReadsAs q.1 q.2)
    (hf : 2 * (p.1 ++ moreParts (ws ++ [']']) (ps.map (·.1))).length ≤ fuel) :
    readElements fuel (p.1 ++ (moreParts (ws ++ [']']) (ps.map (·.1)) ++ rest)) =
      some (p.2 :: ps.map (·.2), rest) := by
  -- the elements behind the first; each comes to be the first in its turn
  induction ps generalizing p fuel with
  | nil =>
    simp only [List.map_nil, moreParts, List.length_append, List.length_singleton] at hf
    obtain ⟨fuel, rfl⟩ : ∃ f, fuel = f + 1 := ⟨fuel - 1, by omega⟩
    rw [List.map_nil, moreParts, List.append_assoc, List.singleton_append]
    exact readElements_last (h p List.mem_cons_self) (by omega) (ends_closing hw ends_bracket)
      (skipSpace_closing hw rfl rest)
  | cons q ps ih =>
    obtain ⟨first, others⟩ := List.forall_mem_cons.1 h
    simp only [List.map_cons, moreParts, List.cons_append, List.length_append, List.length_cons]
      at hf
    obtain ⟨fuel, rfl⟩ : ∃ f, fuel = f + 1 := ⟨fuel - 1, by omega⟩
    rw [List.map_cons, List.map_cons, moreParts_cons_append]
    exact readElements_more first (by omega) (ends_cons rfl (by decide)) (skipSpace_cons rfl _)
      (ih others (by rw [List.length_append]; omega))

/-- A member begins with its key, and goes on with a colon and the value. -/
theorem skipSpace_member {m : MemberForm} (hb : Space m.before) (rest : List Char) :
    ∃ cs, skipSpace (m.chars ++ rest) = '"' :: cs ∧
      readText cs = some (m.key, ':' :: (m.form ++ rest)) := by
  obtain ⟨cs, hquote, read⟩ := readText_of_quote m.key
  refine ⟨cs ++ ':' :: (m.form ++ rest), ?_, read _⟩
  rw [MemberForm.chars, List.append_assoc, List.append_assoc, skipSpace_append hb, hquote,
    List.cons_append, skipSpace_cons rfl, List.cons_append]

/-- A member that the brace follows is the last. -/
theorem readMembers_last {m : MemberForm} (hb : Space m.before) (h : ReadsAs m.form m.value)
    (hf : 2 * m.form.length ≤ fuel) (he : Ends rest) (hr : skipSpace rest = '}' :: cs) :
    readMembers (fuel + 1) (m.chars ++ rest) = some ([(m.key, m.value)], cs) := by
  obtain ⟨cs', hs, read⟩ := skipSpace_member hb rest
  simp only [readMembers, hs, read, skipSpace_cons (c := ':') rfl, h fuel rest hf he, hr]

/-- A member that a comma follows is read, and then the others. -/
theorem readMembers_more {m : MemberForm} {cs' : List Char} {ms : List (Option String × Json)}
    (hb : Space m.before) (h : ReadsAs m.form m.value) (hf : 2 * m.form.length ≤ fuel)
    (he : Ends rest) (hr : skipSpace rest = ',' :: cs)
    (hrest : readMembers fuel cs = some (ms, cs')) :
    readMembers (fuel + 1) (m.chars ++ rest) = some ((m.key, m.value) :: ms, cs') := by
  obtain ⟨cs'', hs, read⟩ := skipSpace_member hb rest
  simp only [readMembers, hs, read, skipSpace_cons (c := ':') rfl, h fuel rest hf he, hr, hrest,
    Option.map_some]

/-- The members of an object are read if the value of each of them is. -/
theorem readMembers_parts (hw : Space ws) {m : MemberForm} {ms : List MemberForm}
    (hb : ∀ q ∈ m :: ms, Space q.before) (h : ∀ q ∈ m :: ms, ReadsAs q.form q.value)
    (hf : 2 * (m.chars ++ moreParts (ws ++ ['}']) (ms.map (·.chars))).length ≤ fuel) :
    readMembers fuel (m.chars ++ (moreParts (ws ++ ['}']) (ms.map (·.chars)) ++ rest)) =
      some ((m.key, m.value) :: ms.map (fun q => (q.key, q.value)), rest) := by
  induction ms generalizing m fuel with
  | nil =>
    have := m.length_form_le
    simp only [List.map_nil, moreParts, List.length_append, List.length_singleton] at hf
    obtain ⟨fuel, rfl⟩ : ∃ f, fuel = f + 1 := ⟨fuel - 1, by omega⟩
    rw [List.map_nil, moreParts, List.append_assoc, List.singleton_append]
    exact readMembers_last (hb m List.mem_cons_self) (h m List.mem_cons_self) (by omega)
      (ends_closing hw ends_brace) (skipSpace_closing hw rfl rest)
  | cons q ms ih =>
    obtain ⟨before, befores⟩ := List.forall_mem_cons.1 hb
    obtain ⟨first, others⟩ := List.forall_mem_cons.1 h
    have := m.length_form_le
    simp only [List.map_cons, moreParts, List.cons_append, List.length_append, List.length_cons]
      at hf
    obtain ⟨fuel, rfl⟩ : ∃ f, fuel = f + 1 := ⟨fuel - 1, by omega⟩
    rw [List.map_cons, List.map_cons, moreParts_cons_append]
    exact readMembers_more before first (by omega) (ends_cons rfl (by decide))
      (skipSpace_cons rfl _) (ih befores others (by rw [List.length_append]; omega))

/-- No value begins with the bracket that ends an array. -/
theorem readElements_bracket (hr : skipSpace cs = ']' :: rest) : readElements fuel cs = none := by
  cases fuel with
  | zero => rfl
  | succ fuel =>
    have none : readValue fuel cs = none := by
      cases fuel with
      | zero => rfl
      | succ fuel => rw [readValue, hr]; rfl
    rw [readElements, none]

/-- No member begins with the brace that ends an object. -/
theorem readMembers_brace (hr : skipSpace cs = '}' :: rest) : readMembers fuel cs = none := by
  cases fuel with
  | zero => rfl
  | succ fuel =>
    rw [readMembers, hr]
    rfl

/-- An array is read if its elements are. -/
theorem readValue_array {vs : List Json} (h : readElements fuel cs = some (vs, rest)) :
    readValue (fuel + 1) ('[' :: cs) = some (.array vs, rest) := by
  -- the reader looks for the end of an empty array first
  have other (rest' : List Char) (hr : skipSpace cs = ']' :: rest') : False := by
    rw [readElements_bracket hr] at h
    cases h
  rw [readValue, skipSpace_cons rfl]
  simp only [show ('[' : Char) ≠ '"' by decide, if_false, if_true]
  rw [readElements_skipSpace, h, Option.map_some]

/-- An object is read if its members are. -/
theorem readValue_object {ms : List (Option String × Json)}
    (h : readMembers fuel cs = some (ms, rest)) :
    readValue (fuel + 1) ('{' :: cs) = some (.object ms, rest) := by
  have other (rest' : List Char) (hr : skipSpace cs = '}' :: rest') : False := by
    rw [readMembers_brace hr] at h
    cases h
  rw [readValue, skipSpace_cons rfl]
  simp only [show ('{' : Char) ≠ '"' by decide, show ('{' : Char) ≠ '[' by decide, if_false,
    if_true]
  rw [readMembers_skipSpace, h, Option.map_some]

/-! ## Reading -/

theorem readsAs_of_ne_nil (hne : cs ≠ [])
    (h : ∀ fuel rest, Ends rest → readValue (fuel + 1) (cs ++ rest) = some (v, rest)) :
    ReadsAs cs v := by
  intro fuel rest hf he
  have := List.length_pos_iff.2 hne
  obtain ⟨fuel, rfl⟩ : ∃ f, fuel = f + 1 := ⟨fuel - 1, by omega⟩
  exact h fuel rest he

/-- A written form is read as its value. -/
theorem Stands.readsAs (h : Stands cs v) : ReadsAs cs v := by
  induction h with
  | null => exact readsAs_of_ne_nil (by simp) fun _ _ _ => readValue_null
  | bool b => exact readsAs_of_ne_nil (by cases b <;> simp [word]) fun _ _ _ => readValue_word b
  | number n =>
    exact readsAs_of_ne_nil (by rw [Nat.toList_repr]; exact Nat.toDigits_ne_nil)
      fun _ _ he => readValue_number n he
  | text s =>
    obtain ⟨cs, heq, -⟩ := readText_of_quote s
    exact readsAs_of_ne_nil (by simp [heq]) fun _ _ _ => readValue_quote s
  | noElements => exact readsAs_of_ne_nil (by simp) fun _ _ _ => rfl
  | @array ws p ps hw _ ih =>
    intro fuel rest hf _
    rw [List.cons_append, List.length_cons] at hf
    obtain ⟨fuel, rfl⟩ : ∃ f, fuel = f + 1 := ⟨fuel - 1, by omega⟩
    rw [List.cons_append, List.cons_append, List.append_assoc]
    exact readValue_array (readElements_parts hw ih (by omega))
  | noMembers => exact readsAs_of_ne_nil (by simp) fun _ _ _ => rfl
  | @object ws m ms hw hb _ ih =>
    intro fuel rest hf _
    rw [List.cons_append, List.length_cons] at hf
    obtain ⟨fuel, rfl⟩ : ∃ f, fuel = f + 1 := ⟨fuel - 1, by omega⟩
    rw [List.cons_append, List.cons_append, List.append_assoc]
    exact readValue_object (readMembers_parts hw hb ih (by omega))
  | spaced hw _ ih =>
    intro fuel rest hf he
    rw [List.append_assoc, readValue_append hw]
    exact ih fuel rest (by rw [List.length_append] at hf; omega) he

/-- A text is read as the value of which it is a written form, whatever white space follows it. -/
theorem Stands.parse?_eq (h : Stands cs v) (hw : Space ws) :
    parse? (String.ofList (cs ++ ws)) = some v := by
  have ends : Ends ws := by
    cases ws with
    | nil => exact fun _ h => nomatch h
    | cons c ws => exact ends_of_space (hw c List.mem_cons_self)
  have read : readValue (2 * (cs ++ ws).length + 2) (cs ++ ws) = some (v, ws) :=
    h.readsAs _ _ (by rw [List.length_append]; omega) ends
  rw [parse?, String.toList_ofList, read]
  simp [skipSpace_eq_nil hw]

/-! ## The pretty form -/

/-- A value whose numbers are natural numbers. -/
inductive Plain : Json → Prop
  | null : Plain .null
  | bool (b : Bool) : Plain (.bool b)
  | number (n : Nat) : Plain (.ofNat n)
  | text (s : Option String) : Plain (.text s)
  | array {vs : List Json} (h : ∀ v ∈ vs, Plain v) : Plain (.array vs)
  | object {ms : List (Option String × Json)} (h : ∀ m ∈ ms, Plain m.2) : Plain (.object ms)

attribute [simp] Plain.null Plain.bool Plain.number Plain.text

@[simp] theorem plain_ofText (s : String) : Plain (ofText s) := .text _

theorem plain_ofFields {fs : List (String × Json)} (h : ∀ f ∈ fs, Plain f.2) :
    Plain (ofFields fs) := by
  refine .object fun m hm => ?_
  obtain ⟨f, hf, rfl⟩ := List.mem_map.1 hm
  exact h f hf

theorem space_line (depth : Nat) : Space (line depth) := by
  intro c hc
  rcases List.mem_cons.1 hc with rfl | hc
  · rfl
  · rw [List.eq_of_mem_replicate hc]
    rfl

/-- An element at a depth, on a line of its own. -/
def prettyElement (depth : Nat) (v : Json) : List Char × Json :=
  (line (depth + 1) ++ prettyChars (depth + 1) v, v)

/-- A member at a depth, on a line of its own. -/
def prettyMember (depth : Nat) (m : Option String × Json) : MemberForm :=
  ⟨line (depth + 1), m.1, ' ' :: prettyChars (depth + 1) m.2, m.2⟩

theorem morePrettyElements_eq (depth : Nat) (vs : List Json) :
    morePrettyElements depth vs =
      moreParts (line depth ++ [']']) ((vs.map (prettyElement depth)).map (·.1)) := by
  induction vs with
  | nil => rfl
  | cons v vs ih => simp [morePrettyElements, moreParts, prettyElement, ih]

theorem morePrettyMembers_eq (depth : Nat) (ms : List (Option String × Json)) :
    morePrettyMembers depth ms =
      moreParts (line depth ++ ['}']) ((ms.map (prettyMember depth)).map (·.chars)) := by
  induction ms with
  | nil => rfl
  | cons m ms ih => simp [morePrettyMembers, moreParts, prettyMember, MemberForm.chars, ih]

/-- The pretty form of a plain value is a written form of it. -/
theorem Plain.stands_prettyChars (h : Plain v) (depth : Nat) : Stands (prettyChars depth v) v := by
  induction h generalizing depth with
  | null => exact .null
  | bool b => exact .bool b
  | number n => exact .number n
  | text s => exact .text s
  | @array vs _ ih =>
    cases vs with
    | nil => exact .noElements
    | cons v vs =>
      have parts : ∀ q ∈ (v :: vs).map (prettyElement depth), Stands q.1 q.2 := by
        intro q hq
        obtain ⟨v, hv, rfl⟩ := List.mem_map.1 hq
        exact .spaced (space_line _) (ih v hv _)
      have stands := Stands.array (space_line depth) parts
      rw [← morePrettyElements_eq] at stands
      simpa [prettyChars, prettyElement, Function.comp_def] using stands
  | @object ms _ ih =>
    cases ms with
    | nil => exact .noMembers
    | cons m ms =>
      have before : ∀ q ∈ (m :: ms).map (prettyMember depth), Space q.before := by
        intro q hq
        obtain ⟨m, -, rfl⟩ := List.mem_map.1 hq
        exact space_line _
      have parts : ∀ q ∈ (m :: ms).map (prettyMember depth), Stands q.form q.value := by
        intro q hq
        obtain ⟨m, hm, rfl⟩ := List.mem_map.1 hq
        exact .spaced (space_singleton rfl) (ih m hm _)
      have stands := Stands.object (space_line depth) before parts
      rw [← morePrettyMembers_eq] at stands
      simpa [prettyChars, prettyMember, MemberForm.chars, Function.comp_def] using stands

/-- The pretty form of a plain value is read as the value, and so is the line it stands on. -/
theorem Plain.parse?_pretty (h : Plain v) : parse? (v.pretty ++ "\n") = some v := by
  have read := (h.stands_prettyChars 0).parse?_eq (space_singleton (c := '\n') rfl)
  rwa [String.ofList_append] at read

/-! ## The compact form -/

/-- A member without white space. -/
def compactMember (m : Option String × Json) : MemberForm := ⟨[], m.1, chars m.2, m.2⟩

theorem moreElements_eq (vs : List Json) :
    moreElements vs = moreParts [']'] ((vs.map fun v => (chars v, v)).map (·.1)) := by
  induction vs with
  | nil => rfl
  | cons v vs ih => simp [moreElements, moreParts, ih]

theorem moreMembers_eq (ms : List (Option String × Json)) :
    moreMembers ms = moreParts ['}'] ((ms.map compactMember).map (·.chars)) := by
  induction ms with
  | nil => rfl
  | cons m ms ih => simp [moreMembers, moreParts, compactMember, MemberForm.chars, ih]

/-- The compact form of a plain value is a written form of it. -/
theorem Plain.stands_chars (h : Plain v) : Stands (chars v) v := by
  have nothing : Space [] := List.forall_mem_nil _
  induction h with
  | null => exact .null
  | bool b => exact .bool b
  | number n => exact .number n
  | text s => exact .text s
  | @array vs _ ih =>
    cases vs with
    | nil => exact .noElements
    | cons v vs =>
      have parts : ∀ q ∈ (v :: vs).map fun v => (chars v, v), Stands q.1 q.2 := by
        intro q hq
        obtain ⟨v, hv, rfl⟩ := List.mem_map.1 hq
        exact ih v hv
      have stands := Stands.array nothing parts
      rw [List.nil_append, ← moreElements_eq] at stands
      simpa [chars, Function.comp_def] using stands
  | @object ms _ ih =>
    cases ms with
    | nil => exact .noMembers
    | cons m ms =>
      have before : ∀ q ∈ (m :: ms).map compactMember, Space q.before := by
        intro q hq
        obtain ⟨m, -, rfl⟩ := List.mem_map.1 hq
        exact nothing
      have parts : ∀ q ∈ (m :: ms).map compactMember, Stands q.form q.value := by
        intro q hq
        obtain ⟨m, hm, rfl⟩ := List.mem_map.1 hq
        exact ih m hm
      have stands := Stands.object nothing before parts
      rw [List.nil_append, ← moreMembers_eq] at stands
      simpa [chars, compactMember, MemberForm.chars, Function.comp_def] using stands

/-! ## Both forms -/

/-- The text is one of the two written forms of a value. -/
inductive Written (v : Json) : String → Prop
  | compact : Written v v.compact
  | pretty : Written v v.pretty

/-- Either form of a plain value is read as the value. -/
theorem Plain.parse?_written {text : String} (h : Plain v) (hw : Written v text) :
    parse? text = some v := by
  have nothing : Space [] := List.forall_mem_nil _
  cases hw with
  | compact =>
    have read := h.stands_chars.parse?_eq nothing
    rwa [List.append_nil] at read
  | pretty =>
    have read := (h.stands_prettyChars 0).parse?_eq nothing
    rwa [List.append_nil] at read

end LabLease.Json
