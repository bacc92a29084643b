import LabLease.Text.Utf8

/-!
# The order of texts is the order of their bytes

Texts are compared character by character. Comparing their UTF-8 bytes gives the same: the bytes of
a smaller character come first, whatever follows (`Text.utf8EncodeChar_lt`), so the order of two
texts is that of their bytes (`Text.le_iff_bytes_le`).
-/

namespace LabLease.Text

/-- The order of bytes below 256 is that of the numbers they are made of. -/
theorem ofNat_lt_ofNat_iff {m n : Nat} (hm : m < 256) (hn : n < 256) :
    UInt8.ofNat m < UInt8.ofNat n ↔ m < n := by
  rw [UInt8.lt_iff_toNat_lt, UInt8.toNat_ofNat', UInt8.toNat_ofNat']
  omega

/-- Bytes below 256 are the same only if the numbers they are made of are. -/
theorem ofNat_eq_ofNat_iff {m n : Nat} (hm : m < 256) (hn : n < 256) :
    UInt8.ofNat m = UInt8.ofNat n ↔ m = n := by
  rw [← UInt8.toNat_inj, UInt8.toNat_ofNat', UInt8.toNat_ofNat']
  omega

/-- The bytes of a smaller character come first, whatever follows. -/
theorem utf8EncodeChar_lt {c d : Char} (h : c < d) (xs ys : List UInt8) :
    String.utf8EncodeChar c ++ xs < String.utf8EncodeChar d ++ ys := by
  have hlt : c.val.toNat < d.val.toNat := h
  have hd : d.val.toNat < 0x110000 := by
    have : d.val.toNat < 0xd800 ∨ 0xdfff < d.val.toNat ∧ d.val.toNat < 0x110000 := d.valid
    omega
  rw [String.utf8EncodeChar, String.utf8EncodeChar]
  generalize c.val.toNat = m at hlt
  generalize d.val.toNat = n at hlt hd
  have hdiv (k : Nat) (hk : k < 0x110000) :
      k / 64 / 64 = k / 4096 ∧ k / 4096 / 64 = k / 262144 ∧ k / 262144 % 0x08 = k / 262144 :=
    ⟨Nat.div_div_eq_div_mul k 64 64, Nat.div_div_eq_div_mul k 4096 64, by omega⟩
  obtain ⟨hm, hm', hm''⟩ := hdiv m (by omega)
  obtain ⟨hn, hn', hn''⟩ := hdiv n hd
  -- With fewer bytes for the smaller character the first bytes differ. With as many for both, the
  -- first bytes that differ do so in the highest bits in which the characters differ.
  repeat' split
  all_goals
    first
    | omega
    | simp (disch := omega) only [List.cons_append, List.nil_append, List.cons_lt_cons_iff,
        ofNat_lt_ofNat_iff, ofNat_eq_ofNat_iff]
      omega

/-- Smaller texts have smaller bytes. -/
theorem bytes_lt_bytes {cs ds : List Char} (h : cs < ds) : bytes cs < bytes ds := by
  induction h with
  | nil =>
    next d ds =>
    obtain ⟨b, bs, hb⟩ := List.exists_cons_of_ne_nil (String.utf8EncodeChar_ne_nil (c := d))
    rw [bytes, bytes, List.flatMap_nil, List.flatMap_cons, hb]
    exact List.nil_lt_cons b _
  | cons _ ih =>
    rw [bytes, bytes, List.flatMap_cons, List.flatMap_cons]
    exact List.append_left_lt ih
  | rel h =>
    rw [bytes, bytes, List.flatMap_cons, List.flatMap_cons]
    exact utf8EncodeChar_lt h _ _

/-- Texts are ordered as their bytes are. -/
theorem le_iff_bytes_le {s t : String} : s ≤ t ↔ bytes s.toList ≤ bytes t.toList := by
  constructor
  · intro h hlt
    by_cases hts : t ≤ s
    · obtain rfl := String.le_antisymm h hts
      exact List.lt_irrefl _ hlt
    · exact List.lt_asymm hlt (bytes_lt_bytes (String.not_le.1 hts))
  · intro h hlt
    exact h (bytes_lt_bytes hlt)

end LabLease.Text
