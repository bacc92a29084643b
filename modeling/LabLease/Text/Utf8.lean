/-!
# UTF-8

The bytes of a text (`Text.bytes`), and what is made of bytes that need not be those of one. They
can be shown as a text all the same (`Text.shown`): whatever does not begin a character is replaced
by the replacement character, one for as many bytes as could have begun one. A text is shown as it
is (`Text.shown_bytes`). Or they can be refused, for the first bytes that begin no character
(`Text.flaw?`), and exactly the bytes of a text are not (`Text.flaw?_eq_none_iff`).
-/

namespace LabLease.Text

/-- The UTF-8 bytes of a list of characters. -/
def bytes (cs : List Char) : List UInt8 := cs.flatMap String.utf8EncodeChar

/-- What the first byte of a character says: the bits of the character that it holds, the least and
the greatest second byte, and how many bytes follow. -/
def firstByte (b : Nat) : Option (Nat × Nat × Nat × Nat) :=
  if b < 0x80 then some (b, 0x80, 0xbf, 0)
  else if b < 0xc2 then none
  else if b < 0xe0 then some (b - 0xc0, 0x80, 0xbf, 1)
  else if b = 0xe0 then some (0, 0xa0, 0xbf, 2)
  else if b = 0xed then some (0xd, 0x80, 0x9f, 2)
  else if b < 0xf0 then some (b - 0xe0, 0x80, 0xbf, 2)
  else if b = 0xf0 then some (0, 0x90, 0xbf, 3)
  else if b < 0xf4 then some (b - 0xf0, 0x80, 0xbf, 3)
  else if b = 0xf4 then some (4, 0x80, 0x8f, 3)
  else none

/-- Reads as many further bytes of a character as the first argument says, each within bounds of
which the first two are for the next byte. Gives the character's number, unless a byte is missing,
and what follows the bytes that were read. -/
def nextBytes : Nat → Nat → Nat → Nat → List UInt8 → Option Nat × List UInt8
  | 0, _, _, n, bs => (some n, bs)
  | _ + 1, _, _, _, [] => (none, [])
  | k + 1, low, high, n, b :: bs =>
    if low ≤ b.toNat ∧ b.toNat ≤ high then nextBytes k 0x80 0xbf (64 * n + b.toNat % 64) bs
    else (none, b :: bs)

/-- Reading leaves no more bytes than there were. -/
theorem length_nextBytes_le (k low high n : Nat) (bs : List UInt8) :
    (nextBytes k low high n bs).2.length ≤ bs.length := by
  fun_induction nextBytes k low high n bs with
  | case1 | case2 | case4 => simp
  | case3 _ _ _ _ _ _ _ ih => exact Nat.le_succ_of_le ih

/-- The characters that bytes are shown as. -/
def shownChars (bs : List UInt8) : List Char :=
  match bs with
  | [] => []
  | b :: bs =>
    match firstByte b.toNat with
    | none => '\ufffd' :: shownChars bs
    | some (n, low, high, more) =>
      have := length_nextBytes_le more low high n bs
      ((nextBytes more low high n bs).1.elim '\ufffd' Char.ofNat) ::
        shownChars (nextBytes more low high n bs).2
termination_by bs.length
decreasing_by all_goals simp only [List.length_cons]; omega

/-- The text that bytes are shown as. -/
def shown (bs : List UInt8) : String := String.ofList (shownChars bs)

/-- Why bytes are not those of a text. -/
structure Flaw where
  /-- How many bytes are before the first that begin no character. -/
  start : Nat
  /-- How many bytes are taken together that begin no character. There is no number if a character
  is begun and the bytes end in the middle of it. -/
  length : Option Nat
deriving DecidableEq, Repr, Inhabited

/-- A flaw in words. -/
def Flaw.message : Flaw → String
  | ⟨start, some length⟩ =>
    "invalid utf-8 sequence of " ++ Nat.repr length ++ " bytes from index " ++ Nat.repr start
  | ⟨start, none⟩ => "incomplete utf-8 byte sequence from index " ++ Nat.repr start

/-- What is wrong with bytes in front of which there are `start` others, if they are not those of a
text. -/
def flawFrom (start : Nat) (bs : List UInt8) : Option Flaw :=
  match bs with
  | [] => none
  | b :: bs =>
    match firstByte b.toNat with
    | none => some ⟨start, some 1⟩
    | some (n, low, high, more) =>
      have := length_nextBytes_le more low high n bs
      let rest := (nextBytes more low high n bs).2
      let read := bs.length + 1 - rest.length
      if (nextBytes more low high n bs).1.isSome then flawFrom (start + read) rest
      else some ⟨start, if rest.isEmpty then none else some read⟩
termination_by bs.length
decreasing_by simp only [List.length_cons]; omega

/-- What is wrong with bytes that are not those of a text. -/
def flaw? (bs : List UInt8) : Option Flaw := flawFrom 0 bs

/-! ## A text is shown as it is -/

/-- What is shown of a first byte with so many bytes behind it. -/
theorem shownChars_cons {b : UInt8} {n low high more : Nat} {bs : List UInt8}
    (h : firstByte b.toNat = some (n, low, high, more)) :
    shownChars (b :: bs) =
      (nextBytes more low high n bs).1.elim '\ufffd' Char.ofNat ::
        shownChars (nextBytes more low high n bs).2 := by
  rw [shownChars]
  split
  · next heq => rw [h] at heq; cases heq
  · next heq => rw [h] at heq; cases heq; rfl

/-- A byte of six bits is read within the bounds for it. -/
theorem nextBytes_cons {k low high n b : Nat} {bs : List UInt8} (hb : b < 64)
    (hl : low ≤ b + 0x80) (hh : b + 0x80 ≤ high) :
    nextBytes (k + 1) low high n (UInt8.ofNat (b + 0x80) :: bs) =
      nextBytes k 0x80 0xbf (64 * n + b) bs := by
  have h : (UInt8.ofNat (b + 0x80)).toNat = b + 0x80 := by rw [UInt8.toNat_ofNat']; omega
  rw [nextBytes, h, if_pos ⟨hl, hh⟩]
  congr 1
  omega

/-- The first of three bytes. -/
theorem firstByte_three : ∀ a < 0x10, firstByte (a + 0xe0) =
    some (a, if a = 0 then 0xa0 else 0x80, if a = 0xd then 0x9f else 0xbf, 2) := by
  decide

/-- The first of four bytes. -/
theorem firstByte_four : ∀ a < 5, firstByte (a + 0xf0) =
    some (a, if a = 0 then 0x90 else 0x80, if a = 4 then 0x8f else 0xbf, 3) := by
  decide

/-- What the bytes of a character begin with, and how the others are read. -/
theorem exists_firstByte (c : Char) : ∃ b n low high more cont,
    String.utf8EncodeChar c = b :: cont ∧ firstByte b.toNat = some (n, low, high, more) ∧
    ∀ bs, nextBytes more low high n (cont ++ bs) = (some c.val.toNat, bs) := by
  have hn : c.val.toNat < 0xd800 ∨ 0xdfff < c.val.toNat ∧ c.val.toNat < 0x110000 := c.valid
  have hb : ∀ k < 256, (UInt8.ofNat k).toNat = k := fun k hk => by
    rw [UInt8.toNat_ofNat']
    omega
  rw [String.utf8EncodeChar]
  generalize c.val.toNat = n at hn
  split
  · refine ⟨_, n, 0x80, 0xbf, 0, _, rfl, ?_, fun bs => rfl⟩
    rw [hb _ (by omega), firstByte, if_pos (by omega)]
  split
  · refine ⟨_, n / 64 % 0x20, 0x80, 0xbf, 1, _, rfl, ?_, fun bs => ?_⟩
    · rw [hb _ (by omega), firstByte, if_neg (by omega), if_neg (by omega), if_pos (by omega)]
      simp
    · rw [List.cons_append, nextBytes_cons (by omega) (by omega) (by omega), nextBytes]
      have h : 64 * (n / 64 % 0x20) + n % 0x40 = n := by omega
      rw [h, List.nil_append]
  split
  · have hf := firstByte_three (n / 4096 % 0x10) (by omega)
    refine ⟨_, _, _, _, _, _, rfl, (congrArg firstByte (hb _ (by omega))).trans hf, fun bs => ?_⟩
    rw [List.cons_append, nextBytes_cons (by omega) (by split <;> omega) (by split <;> omega),
      List.cons_append, nextBytes_cons (by omega) (by omega) (by omega), nextBytes]
    have h : 64 * (64 * (n / 4096 % 0x10) + n / 64 % 0x40) + n % 0x40 = n := by omega
    rw [h, List.nil_append]
  · have hf := firstByte_four (n / 262144 % 0x08) (by omega)
    refine ⟨_, _, _, _, _, _, rfl, (congrArg firstByte (hb _ (by omega))).trans hf, fun bs => ?_⟩
    rw [List.cons_append, nextBytes_cons (by omega) (by split <;> omega) (by split <;> omega),
      List.cons_append, nextBytes_cons (by omega) (by omega) (by omega),
      List.cons_append, nextBytes_cons (by omega) (by omega) (by omega), nextBytes]
    have h : 64 * (64 * (64 * (n / 262144 % 0x08) + n / 4096 % 0x40) + n / 64 % 0x40) +
        n % 0x40 = n := by omega
    rw [h, List.nil_append]

/-- The bytes of a character are shown as that character. -/
theorem shownChars_utf8EncodeChar (c : Char) (bs : List UInt8) :
    shownChars (String.utf8EncodeChar c ++ bs) = c :: shownChars bs := by
  obtain ⟨b, n, low, high, more, cont, henc, hf, hnext⟩ := exists_firstByte c
  have hc : Char.ofNat c.val.toNat = c := Char.ofNat_toNat c
  rw [henc, List.cons_append, shownChars_cons hf, hnext, Option.elim_some, hc]

/-- A text is shown as it is. -/
theorem shown_bytes (cs : List Char) : shown (bytes cs) = String.ofList cs := by
  have h : shownChars (bytes cs) = cs := by
    induction cs with
    | nil => rw [bytes, List.flatMap_nil, shownChars]
    | cons c cs ih => rw [bytes, List.flatMap_cons, shownChars_utf8EncodeChar, ← bytes, ih]
  rw [shown, h]

/-! ## Exactly the bytes of a text have no flaw -/

/-- What is wrong with bytes of which the first is that of a character. -/
theorem flawFrom_cons {start n low high more : Nat} {b : UInt8} {bs : List UInt8}
    (h : firstByte b.toNat = some (n, low, high, more)) :
    flawFrom start (b :: bs) =
      let rest := (nextBytes more low high n bs).2
      let read := bs.length + 1 - rest.length
      if (nextBytes more low high n bs).1.isSome then flawFrom (start + read) rest
      else some ⟨start, if rest.isEmpty then none else some read⟩ := by
  rw [flawFrom]
  split
  · next heq => rw [h] at heq; cases heq
  · next heq => rw [h] at heq; cases heq; rfl

/-- There is no flaw in the bytes of a character. -/
theorem flawFrom_utf8EncodeChar (start : Nat) (c : Char) (bs : List UInt8) :
    flawFrom start (String.utf8EncodeChar c ++ bs) =
      flawFrom (start + (String.utf8EncodeChar c).length) bs := by
  obtain ⟨b, n, low, high, more, cont, henc, hf, hnext⟩ := exists_firstByte c
  rw [henc, List.cons_append, flawFrom_cons hf, hnext]
  simp only [Option.isSome_some, if_true, List.length_append, List.length_cons]
  congr 1
  omega

/-- There is none in the bytes of a text. -/
theorem flawFrom_bytes (start : Nat) (cs : List Char) : flawFrom start (bytes cs) = none := by
  induction cs generalizing start with
  | nil => rw [bytes, List.flatMap_nil, flawFrom]
  | cons c cs ih => rw [bytes, List.flatMap_cons, flawFrom_utf8EncodeChar, ← bytes, ih]

/-- A further byte is read exactly if it lies within its bounds. -/
theorem nextBytes_succ_eq_some_iff {k low high n m : Nat} {bs rest : List UInt8} :
    nextBytes (k + 1) low high n bs = (some m, rest) ↔
      ∃ b bs', bs = b :: bs' ∧ (low ≤ b.toNat ∧ b.toNat ≤ high) ∧
        nextBytes k 0x80 0xbf (64 * n + b.toNat % 64) bs' = (some m, rest) := by
  cases bs with
  | nil => simp [nextBytes]
  | cons b bs =>
    rw [nextBytes]
    split
    · next h =>
      constructor
      · exact fun hr => ⟨b, bs, rfl, h, hr⟩
      · rintro ⟨b', bs', hb, -, hr⟩
        cases hb
        exact hr
    · next h =>
      constructor
      · intro hr
        cases hr
      · rintro ⟨b', bs', hb, hr, -⟩
        cases hb
        exact absurd hr h

/-- The first byte of a character by the number of bytes behind it. -/
theorem firstByte_eq_some {b n low high more : Nat} (h : firstByte b = some (n, low, high, more)) :
    more = 0 ∧ b < 0x80 ∧ n = b ∨
    more = 1 ∧ 0xc2 ≤ b ∧ b < 0xe0 ∧ n = b - 0xc0 ∧ low = 0x80 ∧ high = 0xbf ∨
    more = 2 ∧ 0xe0 ≤ b ∧ b < 0xf0 ∧ n = b - 0xe0 ∧
      0x80 ≤ low ∧ high ≤ 0xbf ∧ (n = 0 → 0xa0 ≤ low) ∧ (n = 0xd → high ≤ 0x9f) ∨
    more = 3 ∧ 0xf0 ≤ b ∧ b < 0xf5 ∧ n = b - 0xf0 ∧
      0x80 ≤ low ∧ high ≤ 0xbf ∧ (n = 0 → 0x90 ≤ low) ∧ (n = 4 → high ≤ 0x8f) := by
  unfold firstByte at h
  grind

/-- Bytes that are read as a character are its bytes. -/
theorem exists_utf8EncodeChar {b : UInt8} {bs rest : List UInt8} {n low high more m : Nat}
    (hf : firstByte b.toNat = some (n, low, high, more))
    (hr : nextBytes more low high n bs = (some m, rest)) :
    ∃ c, b :: bs = String.utf8EncodeChar c ++ rest := by
  have char {m : Nat} (h : m.isValidChar) : ∃ c : Char, c.val.toNat = m :=
    ⟨Char.ofNatAux m h, rfl⟩
  have byte {k : Nat} {b : UInt8} (h : k = b.toNat) : UInt8.ofNat k = b := by
    rw [h, UInt8.ofNat_toNat]
  obtain ⟨rfl, hb, hn⟩ | ⟨rfl, hb, hb', hn, rfl, rfl⟩ | ⟨rfl, hb, hb', hn, hl, hh, hl0, hhd⟩ |
    ⟨rfl, hb, hb', hn, hl, hh, hl0, hh4⟩ := firstByte_eq_some hf
  · cases hr
    obtain ⟨c, hc⟩ := char (m := n) (.inl (by omega))
    refine ⟨c, ?_⟩
    simp only [String.utf8EncodeChar, hc]
    rw [if_pos (by omega), byte hn]
    rfl
  · obtain ⟨b₁, bs₁, rfl, ⟨hl₁, hh₁⟩, hr⟩ := nextBytes_succ_eq_some_iff.1 hr
    cases hr
    obtain ⟨c, hc⟩ := char (m := 64 * n + b₁.toNat % 64) (.inl (by omega))
    refine ⟨c, ?_⟩
    simp only [String.utf8EncodeChar, hc]
    rw [if_neg (by omega), if_pos (by omega), byte (b := b) (by omega), byte (b := b₁) (by omega)]
    rfl
  · obtain ⟨b₁, bs₁, rfl, ⟨hl₁, hh₁⟩, hr⟩ := nextBytes_succ_eq_some_iff.1 hr
    obtain ⟨b₂, bs₂, rfl, ⟨hl₂, hh₂⟩, hr⟩ := nextBytes_succ_eq_some_iff.1 hr
    cases hr
    have valid : (64 * (64 * n + b₁.toNat % 64) + b₂.toNat % 64).isValidChar := by
      rw [Nat.isValidChar]
      omega
    obtain ⟨c, hc⟩ := char valid
    refine ⟨c, ?_⟩
    simp only [String.utf8EncodeChar, hc]
    rw [if_neg (by omega), if_neg (by omega), if_pos (by omega), byte (b := b) (by omega),
      byte (b := b₁) (by omega), byte (b := b₂) (by omega)]
    rfl
  · obtain ⟨b₁, bs₁, rfl, ⟨hl₁, hh₁⟩, hr⟩ := nextBytes_succ_eq_some_iff.1 hr
    obtain ⟨b₂, bs₂, rfl, ⟨hl₂, hh₂⟩, hr⟩ := nextBytes_succ_eq_some_iff.1 hr
    obtain ⟨b₃, bs₃, rfl, ⟨hl₃, hh₃⟩, hr⟩ := nextBytes_succ_eq_some_iff.1 hr
    cases hr
    have valid :
        (64 * (64 * (64 * n + b₁.toNat % 64) + b₂.toNat % 64) + b₃.toNat % 64).isValidChar := by
      rw [Nat.isValidChar]
      omega
    obtain ⟨c, hc⟩ := char valid
    refine ⟨c, ?_⟩
    simp only [String.utf8EncodeChar, hc]
    rw [if_neg (by omega), if_neg (by omega), if_neg (by omega), byte (b := b) (by omega),
      byte (b := b₁) (by omega), byte (b := b₂) (by omega), byte (b := b₃) (by omega)]
    rfl

/-- Bytes without a flaw are those of the text that they are shown as. -/
theorem bytes_of_flawFrom {start : Nat} {bs : List UInt8} (h : flawFrom start bs = none) :
    ∃ cs, bytes cs = bs := by
  fun_induction flawFrom start bs with
  | case1 => exact ⟨[], rfl⟩
  | case2 => cases h
  | case3 start b bs n low high more hf _ rest read hsome ih =>
    obtain ⟨cs, hcs⟩ := ih h
    obtain ⟨m, hm⟩ := Option.isSome_iff_exists.1 hsome
    obtain ⟨c, hc⟩ := exists_utf8EncodeChar hf (Prod.ext hm rfl : _ = (some m, rest))
    refine ⟨c :: cs, ?_⟩
    rw [hc, ← hcs]
    rfl
  | case4 => cases h

/-- Exactly the bytes of a text have no flaw. -/
theorem flaw?_eq_none_iff {bs : List UInt8} : flaw? bs = none ↔ ∃ cs, bytes cs = bs := by
  constructor
  · exact bytes_of_flawFrom
  · rintro ⟨cs, rfl⟩
    exact flawFrom_bytes 0 cs

end LabLease.Text
