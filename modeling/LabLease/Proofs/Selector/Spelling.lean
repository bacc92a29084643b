import LabLease.Proofs.Selector.Grammar
import Mathlib.Logic.Relation

/-!
# Spellings of a selector

What a selector demands can be written in many ways. Its clauses can be written out, each as a key,
an equals sign and a value, with commas between them (`Selector.written`); two selectors can be put
one behind the other with a comma between them; and a text can be respelled, by another order of its
pieces, by a piece that is put in once more, or by blank characters at the ends of a piece or beside
its first equals sign (`Selector.Respelled`).

Main statement: clauses that are written out are read back as they are, a comma joins two lists of
clauses, and however often a text is respelled, it is accepted still and satisfied by the same label
sets (`Selector.spelling_meets`). The last holds because label sets only see which clauses there are
(`Selector.holds_congr`), and these are what the pieces read as, each on its own
(`Clause.mem_iff_exists_reads`).
-/

namespace LabLease

open Text Relation

namespace Clause

variable {piece piece' key key' value value' : List Char} {pieces : List (List Char)}
  {c c' : Clause} {clauses : List Clause}

/-! ## Clauses and their pieces -/

/-- A piece is divided in one way. -/
theorem Divides.unique (h : Divides piece key value) (h' : Divides piece key' value') :
    key = key' ∧ value = value' := by
  have divided : divide (key ++ '=' :: value) = some (key, value) := divide_append_cons h.first
  rw [← h.joined, h'.joined, divide_append_cons h'.first] at divided
  simpa [eq_comm] using divided

/-- A piece reads as one clause. -/
theorem Reads.unique (h : Reads piece c) (h' : Reads piece c') : c = c' := by
  have parsed := h.parse_eq
  rw [h'.parse_eq] at parsed
  exact (Except.ok.inj parsed).symm

/-- A piece that reads as a clause has an equals sign. -/
theorem Reads.equals_mem (h : Reads piece c) : '=' ∈ piece := by
  obtain ⟨hdiv, -, -, -⟩ := h
  rw [hdiv.joined]
  simp

/-- The clauses are what the pieces read as. -/
theorem mem_iff_exists_reads (h : List.Forall₂ Reads pieces clauses) :
    c ∈ clauses ↔ ∃ p ∈ pieces, Reads p c := by
  induction h with
  | nil => simp
  | @cons p c' pieces clauses hp _ ih =>
    rw [List.mem_cons, ih, List.exists_mem_cons_iff]
    refine or_congr_left ⟨?_, fun h => h.unique hp⟩
    rintro rfl
    exact hp

/-! ## Clauses in writing -/

/-- A clause in writing. -/
def written (c : Clause) : String := c.key ++ "=" ++ c.value

theorem toList_written (c : Clause) : c.written.toList = c.key.toList ++ '=' :: c.value.toList := by
  simp [written]

/-- What a piece read as can be read again from its own writing. -/
theorem Reads.reads_written (h : Reads piece c) : Reads c.written.toList c := by
  obtain ⟨hdiv, ⟨ch, hch, hb⟩, hk, hv⟩ := h
  have first : '=' ∉ c.key.toList := fun hmem => hdiv.first (hk.subset hmem)
  exact ⟨⟨c.toList_written, first⟩, ⟨ch, hk.mem hch hb, hb⟩, hk.self, hv.self⟩

/-- The writing of a clause has no comma if its piece has none. -/
theorem Reads.comma_not_mem_written (h : Reads piece c) (hc : ',' ∉ piece) :
    ',' ∉ c.written.toList := by
  obtain ⟨hdiv, -, hk, hv⟩ := h
  rw [hdiv.joined, List.mem_append, List.mem_cons] at hc
  rw [toList_written, List.mem_append, List.mem_cons]
  rintro (hmem | hmem | hmem)
  · exact hc (.inl (hk.subset hmem))
  · cases hmem
  · exact hc (.inr (.inr (hv.subset hmem)))

/-! ## Blank characters -/

/-- Blank characters are put into a piece: at one of its ends, or beside its first equals sign. -/
inductive Padded (piece : List Char) : List Char → Prop
  | front {blanks : List Char} (hb : ∀ ch ∈ blanks, isBlank ch = true) :
      Padded piece (blanks ++ piece)
  | back {blanks : List Char} (hb : ∀ ch ∈ blanks, isBlank ch = true) :
      Padded piece (piece ++ blanks)
  | beforeEquals {key value blanks : List Char} (h : Divides piece key value)
      (hb : ∀ ch ∈ blanks, isBlank ch = true) : Padded piece (key ++ blanks ++ '=' :: value)
  | behindEquals {key value blanks : List Char} (h : Divides piece key value)
      (hb : ∀ ch ∈ blanks, isBlank ch = true) : Padded piece (key ++ '=' :: (blanks ++ value))

/-- No blank character is an equals sign. -/
theorem equals_not_mem_of_blank {blanks : List Char} (hb : ∀ ch ∈ blanks, isBlank ch = true) :
    '=' ∉ blanks := by
  intro h
  have := hb _ h
  revert this
  decide

/-- With blank characters put into it a piece reads as before. -/
theorem Padded.reads (hp : Padded piece piece') (h : Reads piece c) : Reads piece' c := by
  obtain @⟨key, value, hdiv, ⟨ch, hch, hvis⟩, hk, hv⟩ := h
  cases hp with
  | @front blanks hb =>
    have divided : Divides (blanks ++ piece) (blanks ++ key) value :=
      ⟨by rw [hdiv.joined, List.append_assoc],
        List.not_mem_append (equals_not_mem_of_blank hb) hdiv.first⟩
    exact ⟨divided, ⟨ch, List.mem_append_right _ hch, hvis⟩, hk.blank_append hb, hv⟩
  | @back blanks hb =>
    have divided : Divides (piece ++ blanks) key (value ++ blanks) :=
      ⟨by simp [hdiv.joined], hdiv.first⟩
    exact ⟨divided, ⟨ch, hch, hvis⟩, hk, hv.append_blank hb⟩
  | beforeEquals hdiv' hb =>
    obtain ⟨rfl, rfl⟩ := hdiv.unique hdiv'
    exact ⟨⟨rfl, List.not_mem_append hdiv.first (equals_not_mem_of_blank hb)⟩,
      ⟨ch, List.mem_append_left _ hch, hvis⟩, hk.append_blank hb, hv⟩
  | behindEquals hdiv' hb =>
    obtain ⟨rfl, rfl⟩ := hdiv.unique hdiv'
    exact ⟨⟨rfl, hdiv.first⟩, ⟨ch, hch, hvis⟩, hk, hv.blank_append hb⟩

end Clause

namespace Selector

variable {text text' other : String} {clauses clauses' : List Clause} {ps qs : List (List Char)}
  {s s' : Selector}

/-! ## Texts and their pieces -/

/-- The pieces of the text all read as clauses, and these are they. -/
def Spells (text : String) (clauses : List Clause) : Prop :=
  ∃ ps, Pieces text.toList ps ∧ List.Forall₂ Clause.Reads ps clauses

/-- A text that spells clauses is not blank. -/
theorem Spells.not_blank (h : Spells text clauses) : ¬ ∀ ch ∈ text.toList, isBlank ch = true := by
  intro hb
  obtain ⟨ps, hp, hall⟩ := h
  have comma : ',' ∉ text.toList := fun hmem => absurd (hb _ hmem) (by decide)
  rw [pieces_iff.1 hp, List.splitOn_eq_singleton comma] at hall
  cases hall with
  | cons hread _ => exact absurd (hb _ hread.equals_mem) (by decide)

/-- Texts that are not blank are accepted for the clauses that they spell. -/
theorem spells_iff :
    Spells text clauses ↔ allBlank text = false ∧ parse text = .ok ⟨text, clauses⟩ := by
  rw [← Bool.not_eq_true, allBlank, List.all_eq_true, (parse_described text).ok_iff]
  constructor
  · intro h
    have hb := h.not_blank
    obtain ⟨ps, hp, hall⟩ := h
    exact ⟨hb, .clauses hb hp hall⟩
  · rintro ⟨hb, hb' | ⟨-, hp, hall⟩⟩
    · exact absurd hb' hb
    · exact ⟨_, hp, hall⟩

/-- A text that is not blank, and is accepted, spells the clauses of the selector. -/
theorem spells_of_parse (hb : allBlank text = false) (h : parse text = .ok s) :
    Spells text s.clauses := by
  obtain ⟨text', clauses⟩ := s
  obtain rfl : text' = text := ((parse_described text).ok_iff.1 h).text_eq
  exact spells_iff.2 ⟨hb, h⟩

/-- Label sets only see which clauses a selector has. -/
theorem holds_congr (h : ∀ c, c ∈ s.clauses ↔ c ∈ s'.clauses) (labels : Labels) :
    s.holds labels = s'.holds labels := by
  rw [Bool.eq_iff_iff, holds_iff, holds_iff]
  simp only [h]

/-! ## Clauses in writing -/

/-- Clauses in writing, with commas between them. -/
def written (clauses : List Clause) : String := ",".intercalate (clauses.map Clause.written)

/-- The writing of clauses that a text spells, spells them. -/
theorem Spells.written (h : Spells text clauses) : Spells (written clauses) clauses := by
  obtain ⟨ps, hp, hall⟩ := h
  have source {c : Clause} (hc : c ∈ clauses) : ∃ p ∈ ps, Clause.Reads p c :=
    (Clause.mem_iff_exists_reads hall).1 hc
  have pieces : Pieces (Selector.written clauses).toList (clauses.map (·.written.toList)) := by
    refine ⟨?_, fun {q} hq => ?_, ?_⟩
    · rw [Ne, List.map_eq_nil_iff]
      rintro rfl
      cases hall
      exact hp.ne_nil rfl
    · obtain ⟨c, hc, rfl⟩ := List.mem_map.1 hq
      obtain ⟨p, hmem, hread⟩ := source hc
      exact hread.comma_not_mem_written (hp.free hmem)
    · rw [Selector.written, String.toList_intercalate, List.map_map]
      rfl
  refine ⟨_, pieces, List.forall₂_map_left_iff.2 (List.forall₂_same.2 fun c hc => ?_)⟩
  obtain ⟨p, -, hread⟩ := source hc
  exact hread.reads_written

/-! ## Two selectors with a comma between them -/

/-- The pieces of a text with a comma between two others are those of the others. -/
theorem Pieces.join (hp : Pieces text.toList ps) (hq : Pieces other.toList qs) :
    Pieces (text ++ "," ++ other).toList (ps ++ qs) := by
  rw [pieces_iff] at hp hq ⊢
  rw [hp, hq, ← List.splitOn_append_cons_self]
  simp

/-- It spells the clauses of both. -/
theorem Spells.join (h : Spells text clauses) (h' : Spells other clauses') :
    Spells (text ++ "," ++ other) (clauses ++ clauses') := by
  obtain ⟨ps, hp, hall⟩ := h
  obtain ⟨qs, hq, hall'⟩ := h'
  exact ⟨_, hp.join hq, List.rel_append hall hall'⟩

/-- Texts that are not blank are accepted if all their pieces are well-formed. -/
theorem isOk_iff_wellFormed (hb : allBlank text = false) (hp : Pieces text.toList ps) :
    (∃ s, parse text = .ok s) ↔ ∀ p ∈ ps, Clause.WellFormed p := by
  rw [← Clause.exists_forall_reads_iff]
  constructor
  · rintro ⟨s, hs⟩
    obtain ⟨qs, hq, hall⟩ := spells_of_parse hb hs
    rw [pieces_iff.1 hp, ← pieces_iff.1 hq]
    exact ⟨_, hall⟩
  · rintro ⟨clauses, hall⟩
    exact ⟨_, (spells_iff.1 ⟨ps, hp, hall⟩).2⟩

/-- A text with a comma in it is not blank. -/
theorem allBlank_join (text other : String) : allBlank (text ++ "," ++ other) = false := by
  have comma : ',' ∈ (text ++ "," ++ other).toList := by simp
  rw [allBlank, List.all_eq_false]
  exact ⟨',', comma, by decide⟩

/-- It is accepted if the texts on both sides are. -/
theorem join_isOk_iff (hb : allBlank text = false) (ho : allBlank other = false) :
    (∃ s, parse (text ++ "," ++ other) = .ok s) ↔
      (∃ s, parse text = .ok s) ∧ ∃ s, parse other = .ok s := by
  have hp : Pieces text.toList _ := pieces_iff.2 rfl
  have hq : Pieces other.toList _ := pieces_iff.2 rfl
  rw [isOk_iff_wellFormed (allBlank_join text other) (hp.join hq), isOk_iff_wellFormed hb hp,
    isOk_iff_wellFormed ho hq, List.forall_mem_append]

/-! ## Respelling -/

/-- The pieces of a selector are put in another order, one of them is put in once more, or blank
characters are put into one of them. -/
inductive Edit : List (List Char) → List (List Char) → Prop
  | reordered {ps qs : List (List Char)} (h : ps.Perm qs) : Edit ps qs
  | repeated {before after : List (List Char)} {p : List Char} (h : p ∈ before ++ after) :
      Edit (before ++ after) (before ++ p :: after)
  | padded {before after : List (List Char)} {p q : List Char} (h : Clause.Padded p q) :
      Edit (before ++ p :: after) (before ++ q :: after)

/-- The second text is the first one with its pieces edited. -/
def Respelled (text text' : String) : Prop :=
  ∃ ps qs, Pieces text.toList ps ∧ Pieces text'.toList qs ∧ Edit ps qs

/-- Editing keeps pieces readable, and they read as the same clauses. -/
theorem Edit.reads (h : Edit ps qs) (hps : ∀ p ∈ ps, ∃ c, Clause.Reads p c) :
    (∀ q ∈ qs, ∃ c, Clause.Reads q c) ∧
      ∀ c, (∃ q ∈ qs, Clause.Reads q c) ↔ ∃ p ∈ ps, Clause.Reads p c := by
  cases h with
  | reordered h => exact ⟨fun q hq => hps q (h.mem_iff.2 hq), fun c => by simp only [h.mem_iff]⟩
  | @repeated before after p hp =>
    have same (q : List Char) : q ∈ before ++ p :: after ↔ q ∈ before ++ after := by
      grind
    exact ⟨fun q hq => hps q ((same q).1 hq), fun c => by simp only [same]⟩
  | @padded before after p q hpad =>
    obtain ⟨c₀, hc₀⟩ := hps p (by simp)
    -- whatever else it could be read as, the edited piece reads as the piece did
    have same (c : Clause) : Clause.Reads q c ↔ Clause.Reads p c := by
      refine ⟨fun hc => ?_, hpad.reads⟩
      rw [hc.unique (hpad.reads hc₀)]
      exact hc₀
    simp only [List.mem_append, List.mem_cons, or_imp, forall_and, forall_eq, or_and_right,
      exists_or, exists_eq_left] at hps ⊢
    exact ⟨⟨hps.1, ⟨c₀, hpad.reads hc₀⟩, hps.2.2⟩, fun c => by rw [same c]⟩

/-- A respelled text spells clauses that are in the ones before, and all of them. -/
theorem Respelled.spells (h : Respelled text text') (hs : Spells text clauses) :
    ∃ clauses', Spells text' clauses' ∧ ∀ c, c ∈ clauses' ↔ c ∈ clauses := by
  obtain ⟨ps, qs, hp, hq, hedit⟩ := h
  obtain ⟨ps', hp', hall⟩ := hs
  obtain rfl : ps' = ps := (pieces_iff.1 hp').trans (pieces_iff.1 hp).symm
  have readable : ∀ p ∈ ps', ∃ c, Clause.Reads p c := fun p hmem =>
    Clause.wellFormed_iff.1 (Clause.exists_forall_reads_iff.1 ⟨_, hall⟩ p hmem)
  obtain ⟨readable', same⟩ := hedit.reads readable
  obtain ⟨clauses', hall'⟩ := Clause.exists_forall_reads_iff.2 fun q hmem =>
    Clause.wellFormed_iff.2 (readable' q hmem)
  refine ⟨clauses', ⟨qs, hq, hall'⟩, fun c => ?_⟩
  rw [Clause.mem_iff_exists_reads hall', same, Clause.mem_iff_exists_reads hall]

/-- So does a text that is respelled any number of times. -/
theorem spells_of_respelled (h : ReflTransGen Respelled text text') (hs : Spells text clauses) :
    ∃ clauses', Spells text' clauses' ∧ ∀ c, c ∈ clauses' ↔ c ∈ clauses := by
  induction h with
  | refl => exact ⟨clauses, hs, fun _ => Iff.rfl⟩
  | tail _ hstep ih =>
    obtain ⟨clauses₁, hs₁, same₁⟩ := ih
    obtain ⟨clauses₂, hs₂, same₂⟩ := hstep.spells hs₁
    exact ⟨clauses₂, hs₂, fun c => (same₂ c).trans (same₁ c)⟩

/-! ## All spellings -/

/-- How a text that is not blank may be spelled otherwise, and what comes of it. -/
structure SpellingSpec (text : String) : Prop where
  /-- The clauses in writing are read back. -/
  written {s : Selector} (h : parse text = .ok s) :
    parse (written s.clauses) = .ok ⟨written s.clauses, s.clauses⟩
  /-- With another text behind a comma it is accepted exactly if both are. -/
  join_isOk_iff {other : String} (ho : allBlank other = false) :
    (∃ s, parse (text ++ "," ++ other) = .ok s) ↔
      (∃ s, parse text = .ok s) ∧ ∃ s, parse other = .ok s
  /-- Then the clauses of the other follow its own, and labels have to satisfy both. -/
  join {other : String} {s s' : Selector} (ho : allBlank other = false) (h : parse text = .ok s)
    (h' : parse other = .ok s') :
    ∃ t, parse (text ++ "," ++ other) = .ok t ∧ t.clauses = s.clauses ++ s'.clauses ∧
      ∀ labels, t.holds labels = (s.holds labels && s'.holds labels)
  /-- However often it is respelled, it is accepted and satisfied by the same labels. -/
  respelled {text' : String} {s : Selector} (h : parse text = .ok s)
    (hr : ReflTransGen Respelled text text') :
    ∃ s', parse text' = .ok s' ∧ ∀ labels, s'.holds labels = s.holds labels

/-- The clauses of a text that is not blank can be written out and read back, a comma between two
such texts stands for their conjunction, and the order, the number and the blank characters of the
pieces do not count. Reference: `Selector.parse`, §4.2. -/
theorem spelling_meets (hb : allBlank text = false) : SpellingSpec text where
  written h := (spells_iff.1 (spells_of_parse hb h).written).2
  join_isOk_iff ho := join_isOk_iff hb ho
  join {other s s'} ho h h' := by
    have joined := (spells_of_parse hb h).join (spells_of_parse ho h')
    refine ⟨_, (spells_iff.1 joined).2, rfl, fun labels => ?_⟩
    simp only [holds, List.all_append]
  respelled h hr := by
    obtain ⟨clauses', hs, same⟩ := spells_of_respelled hr (spells_of_parse hb h)
    exact ⟨_, (spells_iff.1 hs).2, fun labels => holds_congr same labels⟩

/-- A text with two clauses. -/
def boardText : String := " board = j7 ,boot=a=b"

/-- The same clauses in the other order, one of them twice, and with a no-break space behind the
first equals sign of the other. -/
def boardRespelled : String := "boot=\u00a0a=b, board = j7 , board = j7 "

/-- What the text reads as. -/
def boardSelector : Selector := ⟨boardText, [⟨"board", "j7"⟩, ⟨"boot", "a=b"⟩]⟩

theorem respelled_board : ReflTransGen Respelled boardText boardRespelled := by
  let board := " board = j7 ".toList
  let boot := "boot=a=b".toList
  let spacedBoot := "boot=\u00a0a=b".toList
  have first : Pieces boardText.toList [board, boot] := pieces_iff.2 (by decide)
  have swapped : Pieces "boot=a=b, board = j7 ".toList [boot, board] := pieces_iff.2 (by decide)
  have padded : Pieces "boot=\u00a0a=b, board = j7 ".toList [spacedBoot, board] :=
    pieces_iff.2 (by decide)
  have repeated : Pieces boardRespelled.toList [spacedBoot, board, board] :=
    pieces_iff.2 (by decide)
  have divided : Clause.Divides boot "boot".toList "a=b".toList := ⟨by decide, by decide⟩
  have space : ∀ ch ∈ ['\u00a0'], isBlank ch = true :=
    List.forall_mem_singleton.2 (by decide)
  have behind : Clause.Padded boot spacedBoot := .behindEquals divided space
  have swap : Respelled boardText "boot=a=b, board = j7 " :=
    ⟨_, _, first, swapped, .reordered (.swap _ _ _)⟩
  have pad : Respelled "boot=a=b, board = j7 " "boot=\u00a0a=b, board = j7 " :=
    ⟨_, _, swapped, padded, @Edit.padded [] [board] _ _ behind⟩
  have again : Respelled "boot=\u00a0a=b, board = j7 " boardRespelled :=
    ⟨_, _, padded, repeated, @Edit.repeated [spacedBoot, board] [] _ (by simp)⟩
  exact ((ReflTransGen.single swap).tail pad).tail again

/-- The two clauses in writing, with a third one behind them, and respelled. -/
theorem spelling_meets_board :
    allBlank boardText = false ∧ parse boardText = .ok boardSelector ∧
    parse "board=j7,boot=a=b" = .ok ⟨"board=j7,boot=a=b", boardSelector.clauses⟩ ∧
    (∃ t, parse (boardText ++ "," ++ "rack=") = .ok t ∧
      t.clauses = [⟨"board", "j7"⟩, ⟨"boot", "a=b"⟩, ⟨"rack", ""⟩]) ∧
    ReflTransGen Respelled boardText boardRespelled ∧
    ∃ s, parse boardRespelled = .ok s ∧ ∀ labels, s.holds labels = boardSelector.holds labels := by
  have parsed : parse boardText = .ok boardSelector := by decide
  have other : allBlank "rack=" = false := by decide
  have behind : parse "rack=" = .ok ⟨"rack=", [⟨"rack", ""⟩]⟩ := by decide
  have meets : SpellingSpec boardText := spelling_meets (by decide)
  obtain ⟨t, ht, hclauses, -⟩ := meets.join other parsed behind
  exact ⟨by decide, parsed, meets.written parsed, ⟨t, ht, hclauses⟩, respelled_board,
    meets.respelled parsed respelled_board⟩

end Selector

end LabLease
