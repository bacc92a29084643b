import LabLease.KeyMap
import LabLease.Lease

/-!
# Records and their positions

A ledger finds a record by its identifier through an index of positions, and so does a store in
process memory. `Locates` says that such an index is right about a list of records. It means that no
identifier stands twice (`Locates.nodup`), and it survives the two things that happen to the list: a
record is replaced by one with its identifier (`Locates.set`), or a record with a new one is put
behind the others (`Locates.append`). Which of the two it is when a lease is saved, its identifier
decides (`savedInto`).
-/

namespace LabLease

variable {index : KeyMap Nat} {ls : List Lease} {l l' : Lease} {pos i j : Nat} {id : String}

/-- The index maps each identifier of a record, and no other text, to the record's position. -/
def Locates (index : KeyMap Nat) (ls : List Lease) : Prop :=
  ∀ (id : String) (pos : Nat), index.find? id = some pos ↔ ∃ l, ls[pos]? = some l ∧ l.id = id

/-- No records, nothing to find. -/
theorem locates_empty : Locates KeyMap.empty [] := by
  intro id pos
  simp

/-- A record stands where its identifier says. -/
theorem Locates.pos_eq (h : Locates index ls) (hl : ls[i]? = some l) (hl' : ls[j]? = some l')
    (hid : l.id = l'.id) : i = j := by
  have hi : index.find? l.id = some i := (h _ _).2 ⟨l, hl, rfl⟩
  have hj : index.find? l.id = some j := (h _ _).2 ⟨l', hl', hid.symm⟩
  rw [hi] at hj
  exact Option.some.inj hj

/-- No identifier stands twice. -/
theorem Locates.nodup (h : Locates index ls) : (ls.map (·.id)).Nodup := by
  rw [List.nodup_iff_pairwise_ne, List.pairwise_map, List.pairwise_iff_getElem]
  intro i j hi hj hij heq
  have := h.pos_eq (List.getElem?_eq_getElem hi) (List.getElem?_eq_getElem hj) heq
  omega

/-- What is not found is the identifier of no record. -/
theorem Locates.find?_eq_none_iff (h : Locates index ls) :
    index.find? id = none ↔ ∀ l ∈ ls, l.id ≠ id := by
  constructor
  · intro hf l hl hid
    obtain ⟨pos, hpos⟩ := List.mem_iff_getElem?.1 hl
    rw [(h _ _).2 ⟨l, hpos, hid⟩] at hf
    cases hf
  · intro hno
    cases hf : index.find? id with
    | none => rfl
    | some pos =>
      obtain ⟨l, hl, hid⟩ := (h _ _).1 hf
      exact absurd hid (hno l (List.mem_of_getElem? hl))

/-- Replacing a record by one with its identifier changes no identifier. -/
theorem map_id_set (hl : ls[pos]? = some l) (hid : l'.id = l.id) :
    (ls.set pos l').map (·.id) = ls.map (·.id) := by
  rw [List.map_set]
  refine List.ext_getElem? fun j => ?_
  rw [List.getElem?_set]
  split
  · next hj =>
    subst hj
    obtain ⟨hlt, rfl⟩ := List.getElem?_eq_some_iff.1 hl
    simp [hlt, hid]
  · rfl

/-- Replacing a record by one with its identifier leaves the index right. -/
theorem Locates.set (h : Locates index ls) (hl : ls[pos]? = some l) (hid : l'.id = l.id) :
    Locates index (ls.set pos l') := by
  intro id p
  have hmap (ls : List Lease) :
      (∃ l, ls[p]? = some l ∧ l.id = id) ↔ (ls.map (·.id))[p]? = some id := by
    simp
  rw [hmap, map_id_set hl hid, ← hmap]
  exact h id p

/-- A record with a new identifier is found behind the others. -/
theorem Locates.append (h : Locates index ls) (hnew : ∀ l' ∈ ls, l'.id ≠ l.id) :
    Locates (index.insert l.id ls.length) (ls ++ [l]) := by
  intro id p
  simp only [KeyMap.find?_insert, List.getElem?_append, List.getElem?_singleton]
  split
  · next hid =>
    subst hid
    constructor
    · rintro ⟨⟩
      exact ⟨l, by simp, rfl⟩
    · rintro ⟨l', hl', hid'⟩
      split at hl'
      · exact absurd hid' (hnew l' (List.mem_of_getElem? hl'))
      · split at hl'
        · congr 1
          omega
        · cases hl'
  · next hid =>
    rw [h]
    constructor
    · rintro ⟨l', hl', hid'⟩
      obtain ⟨hlt, -⟩ := List.getElem?_eq_some_iff.1 hl'
      exact ⟨l', by rw [if_pos hlt, hl'], hid'⟩
    · rintro ⟨l', hl', hid'⟩
      split at hl'
      · exact ⟨l', hl', hid'⟩
      · split at hl'
        · cases hl'
          exact absurd hid' hid
        · cases hl'

/-- Where identifiers are distinct, changing the record at a position is changing whatever has its
identifier. -/
theorem set_eq_map (f : Lease → Lease) (hn : (ls.map (·.id)).Nodup) (hl : ls[pos]? = some l) :
    ls.set pos (f l) = ls.map fun l' => if l'.id = l.id then f l' else l' := by
  refine List.ext_getElem? fun j => ?_
  rw [List.getElem?_set, List.getElem?_map]
  split
  · next hj =>
    subst hj
    obtain ⟨hlt, -⟩ := List.getElem?_eq_some_iff.1 hl
    rw [if_pos hlt, hl, Option.map_some, if_pos rfl]
  · next hj =>
    cases hl' : ls[j]? with
    | none => rfl
    | some l' =>
      have hid : l'.id ≠ l.id := by
        intro hid
        obtain ⟨hlt, -⟩ := List.getElem?_eq_some_iff.1 hl
        refine hj ((List.getElem?_inj (by simpa using hlt) hn).1 ?_)
        rw [List.getElem?_map, List.getElem?_map, hl, hl', Option.map_some, Option.map_some, hid]
      simp [hid]

/-! ## One record per identifier -/

/-- Records once a lease is saved among them. Of the record with its identifier and the lease `mix`
makes one; without such a record the lease comes behind the others. -/
def savedInto (mix : Lease → Lease → Lease) (ls : List Lease) (l : Lease) : List Lease :=
  if ls.any (·.id == l.id) then ls.map fun old => if old.id = l.id then mix old l else old
  else ls ++ [l]

variable {mix : Lease → Lease → Lease}

/-- A lease with the identifier of a record changes that record. -/
theorem savedInto_of_getElem? (hn : (ls.map (·.id)).Nodup) (hl : ls[pos]? = some l)
    (hid : l'.id = l.id) : savedInto mix ls l' = ls.set pos (mix l l') := by
  have there : ls.any (·.id == l'.id) = true :=
    List.any_eq_true.2 ⟨l, List.mem_of_getElem? hl, beq_iff_eq.2 hid.symm⟩
  rw [savedInto, if_pos there, hid]
  exact (set_eq_map (mix · l') hn hl).symm

/-- A lease with a new identifier comes behind the records. -/
theorem savedInto_of_new (hnew : ∀ l' ∈ ls, l'.id ≠ l.id) : savedInto mix ls l = ls ++ [l] := by
  have absent : ls.any (·.id == l.id) = false := by simpa using hnew
  rw [savedInto, absent]
  rfl

end LabLease
