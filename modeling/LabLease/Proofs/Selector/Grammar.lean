import LabLease.Proofs.Failure.Steps
import LabLease.Proofs.Text.Trimming
import LabLease.Selector

/-!
# The grammar of selectors

Commas divide a text into its pieces (`Selector.Pieces`), and the first equals sign of a piece
divides it into a key and a value (`Clause.Divides`). A piece with a key that is not blank reads as
a clause (`Clause.Reads`), and any other has a flaw (`Clause.Flawed`).

That is all there is to a selector: `Selector.parse` accepts the blank texts and those whose pieces
all read as clauses, gives the clauses of the pieces in order, and refuses every other text for the
first piece with a flaw (`Selector.parse_meets`). The parser trims a piece before it divides it, and
once more what it has divided, where the grammar trims the key and the value only. The two agree
because an equals sign is not blank (`Clause.Divides.divide_trim`).
-/

namespace LabLease

open Text

namespace Clause

variable {piece key value : List Char} {pieces : List (List Char)} {c : Clause}
  {clauses : List Clause} {flaw : SelectorFlaw}

/-- A piece is divided at its first equals sign. -/
structure Divides (piece key value : List Char) : Prop where
  joined : piece = key ++ '=' :: value
  first : '=' ∉ key

/-- A piece contains an equals sign, and what stands before the first one is not blank. -/
def WellFormed (piece : List Char) : Prop :=
  ∃ key value, Divides piece key value ∧ ∃ ch ∈ key, isBlank ch = false

/-- The clause of a piece: its key and its value, without the blank characters around them. -/
inductive Reads (piece : List Char) (c : Clause) : Prop
  | divided {key value : List Char} (h : Divides piece key value)
      (hkey : ∃ ch ∈ key, isBlank ch = false) (hk : Trimmed key c.key.toList)
      (hv : Trimmed value c.value.toList) : Reads piece c

/-- What is wrong with a piece, which is shown without the blank characters around it. -/
inductive Flawed (piece : List Char) : SelectorFlaw → Prop
  | missingEquals {shown : String} (ht : Trimmed piece shown.toList) (h : '=' ∉ piece) :
      Flawed piece (.missingEquals shown)
  | emptyKey {shown : String} {key value : List Char} (ht : Trimmed piece shown.toList)
      (h : Divides piece key value) (hb : ∀ ch ∈ key, isBlank ch = true) :
      Flawed piece (.emptyKey shown)

/-- The first of several pieces with a flaw has this one. -/
def FirstFlaw (pieces : List (List Char)) (flaw : SelectorFlaw) : Prop :=
  ∃ before piece after, pieces = before ++ piece :: after ∧ (∀ p ∈ before, WellFormed p) ∧
    Flawed piece flaw

/-! ## One piece -/

/-- Dividing fails without an equals sign. -/
theorem divide_eq_none (h : '=' ∉ piece) : divide piece = none := by
  induction piece with
  | nil => rfl
  | cons ch piece ih =>
    rw [divide, if_neg (List.ne_of_not_mem_cons h).symm, ih (List.not_mem_of_not_mem_cons h),
      Option.map_none]

/-- Dividing is at the first equals sign. -/
theorem divide_append_cons (h : '=' ∉ key) : divide (key ++ '=' :: value) = some (key, value) := by
  induction key with
  | nil => rw [List.nil_append, divide, if_pos rfl]
  | cons ch key ih =>
    rw [List.cons_append, divide, if_neg (List.ne_of_not_mem_cons h).symm,
      ih (List.not_mem_of_not_mem_cons h), Option.map_some]

/-- A piece has no equals sign, or it is divided at the first one. -/
theorem not_mem_or_divides (piece : List Char) :
    '=' ∉ piece ∨ ∃ key value, Divides piece key value := by
  induction piece with
  | nil => exact .inl List.not_mem_nil
  | cons ch piece ih =>
    by_cases hch : '=' = ch
    · exact .inr ⟨[], piece, by rw [hch]; rfl, List.not_mem_nil⟩
    · obtain h | ⟨key, value, rfl, hkey⟩ := ih
      · exact .inl (List.not_mem_cons_of_ne_of_not_mem hch h)
      · exact .inr ⟨ch :: key, value, rfl, List.not_mem_cons_of_ne_of_not_mem hch hkey⟩

/-- Trimming a piece first does not change how it is divided: its key is trimmed in front, and its
value at the back. -/
theorem Divides.divide_trim (h : Divides piece key value) :
    divide (trim piece) = some (trimStart key, trimEnd value) := by
  have hkey : '=' ∉ trimStart key := mt (List.dropWhile_subset _ ·) h.first
  rw [h.joined, trim_append_cons (by decide), divide_append_cons hkey]

/-- What reads as a clause is read as that. -/
theorem Reads.parse_eq (h : Reads piece c) : parse piece = .ok c := by
  obtain ⟨hdiv, ⟨ch, hch, hb⟩, hk, hv⟩ := h
  obtain ⟨key, value⟩ := c
  obtain rfl := trimmed_toList_iff.1 hk
  obtain rfl := trimmed_toList_iff.1 hv
  simp only [parse, hdiv.divide_trim, trim_trimStart, trim_trimEnd]
  split
  · next hnil =>
    rw [trim_eq_nil_iff.1 hnil ch hch] at hb
    cases hb
  · rfl

/-- What has a flaw is refused for it. -/
theorem Flawed.parse_eq (h : Flawed piece flaw) : parse piece = .error flaw := by
  cases h with
  | missingEquals ht h =>
    obtain rfl := trimmed_toList_iff.1 ht
    obtain ⟨front, back, hp, -⟩ := (trimmed_trim piece).around
    rw [hp, List.mem_append, List.mem_append] at h
    simp only [parse, divide_eq_none fun hmem => h (.inr (.inl hmem))]
  | emptyKey ht hdiv hb =>
    obtain rfl := trimmed_toList_iff.1 ht
    simp only [parse, hdiv.divide_trim, trim_trimStart, trim_eq_nil_iff.2 hb]

/-- A piece reads as a clause or has a flaw. -/
theorem reads_or_flawed (piece : List Char) :
    (∃ c, Reads piece c) ∨ ∃ flaw, Flawed piece flaw := by
  have shown : Trimmed piece (String.ofList (trim piece)).toList := trimmed_toList_iff.2 rfl
  obtain h | ⟨key, value, hdiv⟩ := not_mem_or_divides piece
  · exact .inr ⟨_, .missingEquals shown h⟩
  · obtain hb | ⟨front, ch, back, rfl, -, hch⟩ := forall_isBlank_or_split key
    · exact .inr ⟨_, .emptyKey shown hdiv hb⟩
    · exact .inl ⟨⟨_, _⟩, hdiv, ⟨ch, by simp, hch⟩, trimmed_toList_iff.2 rfl,
        trimmed_toList_iff.2 rfl⟩

/-- A piece is read as the clause that it is, or refused for its flaw. -/
theorem parse_described (piece : List Char) :
    Described (parse piece) (Reads piece) (Flawed piece) :=
  .of_total (fun _ => Reads.parse_eq) (fun _ => Flawed.parse_eq) (reads_or_flawed piece)

/-- The well-formed pieces are those that read as a clause. -/
theorem wellFormed_iff : WellFormed piece ↔ ∃ c, Reads piece c := by
  constructor
  · rintro ⟨key, value, hdiv, hkey⟩
    exact ⟨⟨_, _⟩, hdiv, hkey, trimmed_toList_iff.2 rfl, trimmed_toList_iff.2 rfl⟩
  · rintro ⟨_, hdiv, hkey, -⟩
    exact ⟨_, _, hdiv, hkey⟩

/-! ## All pieces -/

/-- Pieces that all read as clauses are read as these. -/
theorem parseAll_eq_ok (h : List.Forall₂ Reads pieces clauses) :
    parseAll pieces = .ok clauses := by
  induction h with
  | nil => rfl
  | cons hc _ ih => simp only [parseAll, hc.parse_eq, ih]

/-- Pieces are refused for the first flaw. -/
theorem FirstFlaw.parseAll_eq (h : FirstFlaw pieces flaw) : parseAll pieces = .error flaw := by
  obtain ⟨before, piece, after, rfl, hbefore, hflaw⟩ := h
  induction before with
  | nil => simp only [List.nil_append, parseAll, hflaw.parse_eq]
  | cons p before ih =>
    obtain ⟨hp, hrest⟩ := List.forall_mem_cons.1 hbefore
    obtain ⟨c, hc⟩ := wellFormed_iff.1 hp
    simp only [List.cons_append, parseAll, hc.parse_eq, ih hrest]

/-- All pieces read as clauses, or one is the first with a flaw. -/
theorem forall_reads_or_firstFlaw (pieces : List (List Char)) :
    (∃ clauses, List.Forall₂ Reads pieces clauses) ∨ ∃ flaw, FirstFlaw pieces flaw := by
  induction pieces with
  | nil => exact .inl ⟨[], .nil⟩
  | cons piece pieces ih =>
    obtain ⟨c, hc⟩ | ⟨flaw, hflaw⟩ := (parse_described piece).total
    · obtain ⟨clauses, hall⟩ | ⟨flaw, before, p, after, rfl, hbefore, hflaw⟩ := ih
      · exact .inl ⟨c :: clauses, .cons hc hall⟩
      · exact .inr ⟨flaw, piece :: before, p, after, rfl,
          List.forall_mem_cons.2 ⟨wellFormed_iff.2 ⟨c, hc⟩, hbefore⟩, hflaw⟩
    · exact .inr ⟨flaw, [], piece, pieces, rfl, nofun, hflaw⟩

/-- Pieces are read one by one, up to the first flaw. -/
theorem parseAll_described (pieces : List (List Char)) :
    Described (parseAll pieces) (List.Forall₂ Reads pieces) (FirstFlaw pieces) :=
  .of_total (fun _ => parseAll_eq_ok) (fun _ => FirstFlaw.parseAll_eq)
    (forall_reads_or_firstFlaw pieces)

/-- Clauses can be read off pieces that are all well-formed, and off no others. -/
theorem exists_forall_reads_iff :
    (∃ clauses, List.Forall₂ Reads pieces clauses) ↔ ∀ p ∈ pieces, WellFormed p := by
  simp only [wellFormed_iff]
  induction pieces with
  | nil => simp
  | cons piece pieces ih =>
    rw [List.forall_mem_cons, ← ih]
    constructor
    · rintro ⟨_, hall⟩
      cases hall with
      | cons hc hall => exact ⟨⟨_, hc⟩, _, hall⟩
    · rintro ⟨⟨c, hc⟩, clauses, hall⟩
      exact ⟨c :: clauses, .cons hc hall⟩

end Clause

namespace Selector

variable {text : List Char} {pieces : List (List Char)}

/-- The pieces of a text: they hold no comma, and with commas between them they are the text. -/
structure Pieces (text : List Char) (pieces : List (List Char)) : Prop where
  ne_nil : pieces ≠ []
  free {p : List Char} (hp : p ∈ pieces) : ',' ∉ p
  joined : [','].intercalate pieces = text

/-- What stands between commas holds none. -/
theorem not_mem_of_mem_splitOn {p : List Char} (hp : p ∈ text.splitOn ',') : ',' ∉ p := by
  induction text generalizing p with
  | nil =>
    rw [List.splitOn_nil, List.mem_singleton] at hp
    rw [hp]
    exact List.not_mem_nil
  | cons ch text ih =>
    obtain ⟨q, qs, hq⟩ := List.exists_cons_of_ne_nil (List.splitOn_ne_nil ',' text)
    rw [List.splitOn_cons_eq_if_modifyHead, hq] at hp
    rw [hq] at ih
    obtain ⟨hfirst, hrest⟩ := List.forall_mem_cons.1 fun p => @ih p
    split at hp
    · rcases List.mem_cons.1 hp with rfl | hp
      · exact List.not_mem_nil
      · exact ih hp
    · next hch =>
      rcases List.mem_cons.1 hp with rfl | hp
      · exact List.not_mem_cons_of_ne_of_not_mem (fun h => hch (beq_iff_eq.2 h.symm)) hfirst
      · exact hrest p hp

/-- A text has these pieces and no others. -/
theorem pieces_iff : Pieces text pieces ↔ pieces = text.splitOn ',' := by
  constructor
  · rintro ⟨hne, hfree, rfl⟩
    exact (List.splitOn_intercalate ',' (fun _ => hfree) hne).symm
  · rintro rfl
    exact ⟨List.splitOn_ne_nil _ _, not_mem_of_mem_splitOn, List.intercalate_splitOn ','⟩

/-- The selector of a text: a blank one demands nothing, and any other has a clause for each of its
pieces. -/
inductive Reads (text : String) : Selector → Prop
  | blank (hb : ∀ ch ∈ text.toList, isBlank ch = true) : Reads text ⟨text, []⟩
  | clauses {pieces : List (List Char)} {clauses : List Clause}
      (hb : ¬ ∀ ch ∈ text.toList, isBlank ch = true) (hp : Pieces text.toList pieces)
      (hall : List.Forall₂ Clause.Reads pieces clauses) : Reads text ⟨text, clauses⟩

/-- The failure for a text that is no selector tells its first flaw. -/
inductive Flawed (text : String) : Failure → Prop
  | first {pieces : List (List Char)} {flaw : SelectorFlaw}
      (hb : ¬ ∀ ch ∈ text.toList, isBlank ch = true) (hp : Pieces text.toList pieces)
      (hflaw : Clause.FirstFlaw pieces flaw) : Flawed text (.invalidSelector text flaw)

/-- A text is read as the selector that it is, or refused for its first flaw. -/
theorem parse_described (text : String) : Described (parse text) (Reads text) (Flawed text) := by
  have nonblank (hb : ¬ ∀ ch ∈ text.toList, isBlank ch = true) : ¬ allBlank text = true :=
    mt List.all_eq_true.1 hb
  refine .of_total ?_ ?_ ?_
  · intro s hs
    cases hs with
    | blank hb => rw [parse, if_pos (show allBlank text = true from List.all_eq_true.2 hb)]
    | clauses hb hp hall =>
      rw [parse, if_neg (nonblank hb), ← pieces_iff.1 hp,
        (Clause.parseAll_described _).ok_iff.2 hall]
  · intro f hf
    cases hf with
    | first hb hp hflaw =>
      rw [parse, if_neg (nonblank hb), ← pieces_iff.1 hp,
        (Clause.parseAll_described _).error_iff.2 hflaw]
  · by_cases hb : ∀ ch ∈ text.toList, isBlank ch = true
    · exact .inl ⟨_, .blank hb⟩
    · obtain ⟨clauses, hall⟩ | ⟨flaw, hflaw⟩ := (Clause.parseAll_described _).total
      · exact .inl ⟨_, .clauses hb (pieces_iff.2 rfl) hall⟩
      · exact .inr ⟨_, .first hb (pieces_iff.2 rfl) hflaw⟩

/-- A selector keeps its text. -/
theorem Reads.text_eq {text : String} {s : Selector} (h : Reads text s) : s.text = text := by
  cases h <;> rfl

/-- Only a blank text demands nothing. -/
theorem Reads.isEmpty_iff {text : String} {s : Selector} (h : Reads text s) :
    s.isEmpty = true ↔ ∀ ch ∈ text.toList, isBlank ch = true := by
  cases h with
  | blank hb => exact iff_of_true rfl hb
  | clauses hb hp hall =>
    refine iff_of_false (fun hnil => ?_) hb
    -- There is at least one piece, and so at least one clause.
    rw [isEmpty, List.isEmpty_iff] at hnil
    subst hnil
    cases hall
    exact absurd rfl hp.ne_nil

/-- Labels satisfy a selector if each key is there with exactly its value. -/
theorem holds_iff {s : Selector} {labels : Labels} :
    s.holds labels = true ↔ ∀ c ∈ s.clauses, labels.find? c.key = some c.value := by
  simp only [holds, List.all_eq_true, Clause.holds, beq_iff_eq]

/-- What should come of reading a text with these pieces. -/
structure ParseSpec (text : String) (pieces : List (List Char)) (a : Except Failure Selector) :
    Prop where
  /-- A text is accepted if it is blank or all its pieces are well-formed. -/
  ok_iff : (∃ s, a = .ok s) ↔
    (∀ ch ∈ text.toList, isBlank ch = true) ∨ ∀ p ∈ pieces, Clause.WellFormed p
  /-- The selector keeps the text, and demands nothing exactly if the text is blank. -/
  kept {s : Selector} (h : a = .ok s) :
    s.text = text ∧ (s.isEmpty = true ↔ ∀ ch ∈ text.toList, isBlank ch = true)
  /-- If it is not blank, the clauses are those of the pieces, in order. -/
  clauses {s : Selector} (h : a = .ok s) (hb : ¬ ∀ ch ∈ text.toList, isBlank ch = true) :
    List.Forall₂ Clause.Reads pieces s.clauses
  /-- A text is refused for the first piece that is not well-formed. -/
  error_iff {f : Failure} : a = .error f ↔
    (¬ ∀ ch ∈ text.toList, isBlank ch = true) ∧
      ∃ flaw, Clause.FirstFlaw pieces flaw ∧ f = .invalidSelector text flaw
  /-- Labels satisfy the selector if each key is there with exactly its value. -/
  holds_iff {s : Selector} (h : a = .ok s) (labels : Labels) :
    s.holds labels = true ↔ ∀ c ∈ s.clauses, labels.find? c.key = some c.value

/-- Every text has one division into pieces at its commas. It is read as a selector exactly if it is
blank or each piece has an equals sign behind a key that is not blank, and is otherwise refused for
the first piece that has not. Reference: `Selector.parse`, §4.2. -/
theorem parse_meets (text : String) :
    ∃ pieces, (∀ ps, Pieces text.toList ps ↔ ps = pieces) ∧ ParseSpec text pieces (parse text) := by
  refine ⟨text.toList.splitOn ',', fun _ => pieces_iff, ?_⟩
  have pieces : Pieces text.toList (text.toList.splitOn ',') := pieces_iff.2 rfl
  have described := parse_described text
  refine ⟨?_, fun {s} h => ?_, fun {s} h hb => ?_, fun {f} => ?_, fun _ _ => holds_iff⟩
  · simp only [described.ok_iff]
    constructor
    · rintro ⟨_, hb | ⟨-, hp, hall⟩⟩
      · exact .inl hb
      · exact .inr (Clause.exists_forall_reads_iff.1 ⟨_, pieces_iff.1 hp ▸ hall⟩)
    · intro h
      by_cases hb : ∀ ch ∈ text.toList, isBlank ch = true
      · exact ⟨_, .blank hb⟩
      · obtain ⟨clauses, hall⟩ := Clause.exists_forall_reads_iff.2 (h.resolve_left hb)
        exact ⟨_, .clauses hb pieces hall⟩
  · have hs := described.ok_iff.1 h
    exact ⟨hs.text_eq, hs.isEmpty_iff⟩
  · cases described.ok_iff.1 h with
    | blank hb' => exact absurd hb' hb
    | clauses _ hp hall => exact pieces_iff.1 hp ▸ hall
  · rw [described.error_iff]
    constructor
    · rintro ⟨hb, hp, hflaw⟩
      exact ⟨hb, _, pieces_iff.1 hp ▸ hflaw, rfl⟩
    · rintro ⟨hb, flaw, hflaw, rfl⟩
      exact .first hb pieces hflaw

/-- Blank characters around a key or a value do not count, and a value may hold equals signs. -/
example : parse " board = j7 ,boot=a=b, note=" =
    .ok ⟨" board = j7 ,boot=a=b, note=", [⟨"board", "j7"⟩, ⟨"boot", "a=b"⟩, ⟨"note", ""⟩]⟩ := by
  decide

end Selector

end LabLease
