/-!
# String literals

How a text stands in JSON, in both directions. `Json.quote` escapes quotation marks, backslashes
and control characters, and lets everything else stand for itself. `Json.readText` reads a literal
in two steps: into the units it is made of, characters and escaped code units (`readUnits`), and
then into the text that they denote, a pair of surrogate units being one character (`joinUnits`). A
literal with half a pair denotes no text, and is written with half a pair.

`readText_quote` says that every text is read back as it was written.
-/

namespace LabLease.Json

/-- A hexadecimal digit, in lower case. -/
def hexDigit (n : Nat) : Char := Nat.digitChar n

/-- One character inside a string literal. -/
def escape (c : Char) : List Char :=
  if c = '"' then ['\\', '"']
  else if c = '\\' then ['\\', '\\']
  else if c = '\n' then ['\\', 'n']
  else if c = '\r' then ['\\', 'r']
  else if c = '\t' then ['\\', 't']
  else if c = '\x08' then ['\\', 'b']
  else if c = '\x0c' then ['\\', 'f']
  else if c < ' ' then ['\\', 'u', '0', '0', hexDigit (c.toNat / 16), hexDigit (c.toNat % 16)]
  else [c]

/-- A string literal. One that denotes no text is half of a surrogate pair. -/
def quote : Option String → List Char
  | some s => '"' :: s.toList.flatMap escape ++ ['"']
  | none => "\"\\ud800\"".toList

/-- What a string literal is made of. -/
inductive Unit16
  /-- A character that stands for itself, or is escaped by one letter. -/
  | char (c : Char)
  /-- A code unit of 16 bits. -/
  | code (n : Nat)
deriving DecidableEq, Repr

/-- The value of a hexadecimal digit. -/
def hexValue? (c : Char) : Option Nat :=
  if '0' ≤ c ∧ c ≤ '9' then some (c.toNat - '0'.toNat)
  else if 'a' ≤ c ∧ c ≤ 'f' then some (c.toNat - 'a'.toNat + 10)
  else if 'A' ≤ c ∧ c ≤ 'F' then some (c.toNat - 'A'.toNat + 10)
  else none

/-- The value of four hexadecimal digits. -/
def code? (a b c d : Char) : Option Nat := do
  let a ← hexValue? a
  let b ← hexValue? b
  let c ← hexValue? c
  let d ← hexValue? d
  some (((a * 16 + b) * 16 + c) * 16 + d)

/-- The character that a letter behind a backslash stands for. -/
def unescape? (c : Char) : Option Char :=
  if c = '"' ∨ c = '\\' ∨ c = '/' then some c
  else if c = 'b' then some '\x08'
  else if c = 'f' then some '\x0c'
  else if c = 'n' then some '\n'
  else if c = 'r' then some '\r'
  else if c = 't' then some '\t'
  else none

/-- Reads the units of a string literal behind its opening quotation mark, up to the closing one,
and gives what follows that. -/
def readUnits : List Char → Option (List Unit16 × List Char)
  | [] => none
  | c :: cs =>
    if c = '"' then some ([], cs)
    else if c = '\\' then
      match cs with
      | 'u' :: h₁ :: h₂ :: h₃ :: h₄ :: cs =>
        match code? h₁ h₂ h₃ h₄ with
        | none => none
        | some n => (readUnits cs).map fun (us, rest) => (.code n :: us, rest)
      | e :: cs =>
        match unescape? e with
        | none => none
        | some c => (readUnits cs).map fun (us, rest) => (.char c :: us, rest)
      | [] => none
    else if c < ' ' then none
    else (readUnits cs).map fun (us, rest) => (.char c :: us, rest)

/-- The first unit of a surrogate pair. -/
def isHigh (n : Nat) : Bool := 0xd800 ≤ n && n < 0xdc00

/-- The second unit of a surrogate pair. -/
def isLow (n : Nat) : Bool := 0xdc00 ≤ n && n < 0xe000

/-- The characters that units denote, unless one of them is half of a pair. -/
def joinUnits : List Unit16 → Option (List Char)
  | [] => some []
  | .char c :: us => (joinUnits us).map (c :: ·)
  | .code n :: us =>
    if isLow n then none
    else if isHigh n then
      match us with
      | .code m :: us =>
        if isLow m then
          (joinUnits us).map (Char.ofNat (0x10000 + (n - 0xd800) * 0x400 + (m - 0xdc00)) :: ·)
        else none
      | _ => none
    else (joinUnits us).map (Char.ofNat n :: ·)

/-- Reads a string behind its opening quotation mark. -/
def readText (cs : List Char) : Option (Option String × List Char) :=
  (readUnits cs).map fun (us, rest) => ((joinUnits us).map String.ofList, rest)

/-- The unit that a character is read back as. -/
def unitOf (c : Char) : Unit16 :=
  if c < ' ' ∧ c ≠ '\n' ∧ c ≠ '\r' ∧ c ≠ '\t' ∧ c ≠ '\x08' ∧ c ≠ '\x0c' then .code c.toNat
  else .char c

/-- A written hexadecimal digit has its value. -/
theorem hexValue?_hexDigit : ∀ n < 16, hexValue? (hexDigit n) = some n := by decide

/-- The escape of a control character has its code as value. -/
theorem code?_control {n : Nat} (h : n < 32) :
    code? '0' '0' (hexDigit (n / 16)) (hexDigit (n % 16)) = some n := by
  have h0 : hexValue? '0' = some 0 := by decide
  simp only [code?, h0, hexValue?_hexDigit (n / 16) (by omega),
    hexValue?_hexDigit (n % 16) (by omega), Option.bind_eq_bind, Option.bind_some]
  congr 1
  omega

/-- A written character is read as one unit. -/
theorem readUnits_escape (c : Char) (cs : List Char) :
    readUnits (escape c ++ cs) =
      (readUnits cs).map fun (us, rest) => (unitOf c :: us, rest) := by
  by_cases h1 : c = '"'
  · subst h1; simp [escape, readUnits, unescape?, unitOf]
  by_cases h2 : c = '\\'
  · subst h2; simp [escape, readUnits, unescape?, unitOf]
  by_cases h3 : c = '\n'
  · subst h3; simp [escape, readUnits, unescape?, unitOf]
  by_cases h4 : c = '\r'
  · subst h4; simp [escape, readUnits, unescape?, unitOf]
  by_cases h5 : c = '\t'
  · subst h5; simp [escape, readUnits, unescape?, unitOf]
  by_cases h6 : c = '\x08'
  · subst h6; simp [escape, readUnits, unescape?, unitOf]
  by_cases h7 : c = '\x0c'
  · subst h7; simp [escape, readUnits, unescape?, unitOf]
  by_cases h8 : c < ' '
  · have hn : c.toNat < 32 := h8
    simp [escape, h1, h2, h3, h4, h5, h6, h7, h8, readUnits, code?_control hn, unitOf]
  · have h : escape c = [c] := by simp [escape, h1, h2, h3, h4, h5, h6, h7, h8]
    rw [h, List.singleton_append, readUnits.eq_def]
    simp [h1, h2, h8, unitOf]

/-- A written text is read as the units of its characters, up to the quotation mark. -/
theorem readUnits_quote (s rest : List Char) :
    readUnits (s.flatMap escape ++ '"' :: rest) = some (s.map unitOf, rest) := by
  induction s with
  | nil =>
    rw [List.flatMap_nil, List.nil_append, readUnits.eq_def]
    simp
  | cons c s ih => simp [List.flatMap_cons, List.append_assoc, readUnits_escape, ih]

/-- The units of a text denote the text. -/
theorem joinUnits_map_unitOf (s : List Char) : joinUnits (s.map unitOf) = some s := by
  induction s with
  | nil => rfl
  | cons c s ih =>
    rw [List.map_cons, unitOf]
    split
    · next h =>
      have hn : c.toNat < 32 := h.1
      have h1 : isLow c.toNat = false := by simp [isLow]; omega
      have h2 : isHigh c.toNat = false := by simp [isHigh]; omega
      have hc : Char.ofNat c.toNat = c := Char.ofNat_toNat c
      rw [joinUnits.eq_def]
      simp [h1, h2, ih, hc]
    · rw [joinUnits, ih]
      rfl

/-- Reading gives back what was written, whatever follows it. -/
theorem readText_quote (s : String) (rest : List Char) :
    readText (s.toList.flatMap escape ++ '"' :: rest) = some (some s, rest) := by
  simp [readText, readUnits_quote, joinUnits_map_unitOf]

end LabLease.Json
