/-!
# Maps from text keys, kept in ascending order of the keys

A `KeyMap` holds at most one value per key, and its entries stand in ascending order of the keys:
by code points, which is also the order of their UTF-8 bytes. The order is a proof field, so that
a map has one representation: `KeyMap.ext_find?` says that two maps with the same look-ups are
equal. Labels, the registry, and the ledger's two look-up tables are such maps, and their listings
need no sorting.

`find?_insert` and `find?_erase` are the equations through which everything else is stated.
-/

namespace LabLease

universe u

/-- A finite map from text to `α`, its entries in ascending order of the keys. -/
structure KeyMap (α : Type u) where
  /-- The entries, ascending by key. -/
  entries : List (String × α)
  /-- Keys ascend strictly, so none stands twice. -/
  ascending : entries.Pairwise (fun a b => a.1 < b.1)
deriving Repr, DecidableEq

namespace KeyMap

variable {α : Type u}

/-- Puts an entry into a list of entries: in front of the first larger key, or in place of the
entry with the same key. -/
def insertEntry (k : String) (v : α) : List (String × α) → List (String × α)
  | [] => [(k, v)]
  | e :: es =>
    if k < e.1 then (k, v) :: e :: es
    else if k = e.1 then (k, v) :: es
    else e :: insertEntry k v es

/-- The value of the first entry with the key. -/
def findEntry (k : String) : List (String × α) → Option α
  | [] => none
  | e :: es => if e.1 = k then some e.2 else findEntry k es

theorem mem_insertEntry {k : String} {v : α} {es : List (String × α)} {x : String × α}
    (h : x ∈ insertEntry k v es) : x = (k, v) ∨ x ∈ es := by
  induction es with
  | nil => simpa [insertEntry] using h
  | cons e es ih =>
    rw [insertEntry] at h
    split at h
    · simpa using h
    · split at h
      · rcases List.mem_cons.1 h with h | h
        · exact .inl h
        · exact .inr (List.mem_cons_of_mem _ h)
      · rcases List.mem_cons.1 h with h | h
        · exact .inr (h ▸ List.mem_cons_self)
        · exact (ih h).imp id (List.mem_cons_of_mem _)

/-- A key that is neither smaller nor equal is larger. -/
theorem lt_of_not_lt_of_ne {a b : String} (h : ¬ a < b) (hne : a ≠ b) : b < a :=
  Decidable.byContradiction fun h' =>
    hne (String.le_antisymm (String.not_lt.1 h') (String.not_lt.1 h))

theorem insertEntry_ascending {k : String} {v : α} {es : List (String × α)}
    (h : es.Pairwise (fun a b => a.1 < b.1)) :
    (insertEntry k v es).Pairwise (fun a b => a.1 < b.1) := by
  induction es with
  | nil => simp [insertEntry]
  | cons e es ih =>
    obtain ⟨he, hes⟩ := List.pairwise_cons.1 h
    rw [insertEntry]
    split
    · next hlt =>
      refine List.pairwise_cons.2 ⟨fun x hx => ?_, h⟩
      rcases List.mem_cons.1 hx with rfl | hx
      · exact hlt
      · exact String.lt_trans hlt (he x hx)
    · next hlt =>
      split
      · next heq => exact List.pairwise_cons.2 ⟨fun x hx => heq ▸ he x hx, hes⟩
      · next hne =>
        refine List.pairwise_cons.2 ⟨fun x hx => ?_, ih hes⟩
        rcases mem_insertEntry hx with rfl | hx
        · exact lt_of_not_lt_of_ne hlt hne
        · exact he x hx

/-- The map with no entries. -/
def empty : KeyMap α := ⟨[], .nil⟩

instance : Inhabited (KeyMap α) := ⟨empty⟩

/-- The value under a key. -/
def find? (m : KeyMap α) (k : String) : Option α := findEntry k m.entries

/-- Puts a value under a key, in place of the value that was there. -/
def insert (m : KeyMap α) (k : String) (v : α) : KeyMap α :=
  ⟨insertEntry k v m.entries, insertEntry_ascending m.ascending⟩

/-- Takes a key away. -/
def erase (m : KeyMap α) (k : String) : KeyMap α :=
  ⟨m.entries.filter (·.1 ≠ k), m.ascending.filter _⟩

/-- Whether a key has a value. -/
def contains (m : KeyMap α) (k : String) : Bool := (m.find? k).isSome

/-- The values, in ascending order of their keys. -/
def values (m : KeyMap α) : List α := m.entries.map (·.2)

/-- The number of entries. -/
def size (m : KeyMap α) : Nat := m.entries.length

/-- The map of a list of entries; of several with one key the last counts. -/
def ofList (es : List (String × α)) : KeyMap α :=
  es.foldl (fun m e => m.insert e.1 e.2) empty

@[simp] theorem find?_empty (k : String) : (empty : KeyMap α).find? k = none := rfl

theorem findEntry_insertEntry (k k' : String) (v : α) (es : List (String × α)) :
    findEntry k' (insertEntry k v es) = if k = k' then some v else findEntry k' es := by
  induction es with
  | nil => simp [insertEntry, findEntry]
  | cons e es ih =>
    rw [insertEntry]
    split
    · rfl
    · split
      · next h => by_cases hk : k = k' <;> simp_all [findEntry]
      · next h => by_cases hk : e.1 = k' <;> simp_all [findEntry]

/-- An insertion changes the look-up of its key and of no other. -/
theorem find?_insert (m : KeyMap α) (k k' : String) (v : α) :
    (m.insert k v).find? k' = if k = k' then some v else m.find? k' :=
  findEntry_insertEntry k k' v m.entries

@[simp] theorem find?_insert_self (m : KeyMap α) (k : String) (v : α) :
    (m.insert k v).find? k = some v := by simp [find?_insert]

theorem findEntry_filter_ne (k k' : String) (es : List (String × α)) :
    findEntry k' (es.filter (·.1 ≠ k)) = if k = k' then none else findEntry k' es := by
  induction es with
  | nil => simp [findEntry]
  | cons e es ih =>
    by_cases h : e.1 = k
    · simp only [h, ne_eq, not_true_eq_false, decide_false, Bool.false_eq_true,
        not_false_eq_true, List.filter_cons_of_neg, ih]
      by_cases hk : k = k' <;> simp_all [findEntry]
    · simp only [h, ne_eq, not_false_eq_true, decide_true, List.filter_cons_of_pos, findEntry, ih]
      by_cases hk : k = k' <;> by_cases he : e.1 = k' <;> simp_all

/-- An erasure changes the look-up of its key and of no other. -/
theorem find?_erase (m : KeyMap α) (k k' : String) :
    (m.erase k).find? k' = if k = k' then none else m.find? k' :=
  findEntry_filter_ne k k' m.entries

/-- Entries in ascending order are found under their own keys. -/
theorem findEntry_eq_some_iff {es : List (String × α)} (h : es.Pairwise (fun a b => a.1 < b.1))
    {k : String} {v : α} : findEntry k es = some v ↔ (k, v) ∈ es := by
  induction es with
  | nil => simp [findEntry]
  | cons e es ih =>
    obtain ⟨he, hes⟩ := List.pairwise_cons.1 h
    obtain ⟨k', v'⟩ := e
    by_cases hk : k' = k
    · subst hk
      have hnot : ∀ w, (k', w) ∉ es := fun w hw => String.lt_irrefl k' (he _ hw)
      simp only [findEntry, if_true, Option.some.injEq, List.mem_cons, Prod.mk.injEq, true_and]
      exact ⟨fun h => .inl h.symm, fun h => h.elim Eq.symm fun h => absurd h (hnot v)⟩
    · simp [findEntry, hk, ih hes, Ne.symm hk]

/-- A look-up finds exactly the entries. -/
theorem find?_eq_some_iff {m : KeyMap α} {k : String} {v : α} :
    m.find? k = some v ↔ (k, v) ∈ m.entries :=
  findEntry_eq_some_iff m.ascending

theorem nodup_of_ascending {es : List (String × α)} (h : es.Pairwise (fun a b => a.1 < b.1)) :
    es.Nodup :=
  List.nodup_iff_pairwise_ne.2
    (h.imp fun {a b} hlt (he : a = b) => String.lt_irrefl b.1 (he ▸ hlt))

theorem entries_ext {es es' : List (String × α)} (h : es.Pairwise (fun a b => a.1 < b.1))
    (h' : es'.Pairwise (fun a b => a.1 < b.1)) (heq : ∀ k, findEntry k es = findEntry k es') :
    es = es' := by
  have perm : es.Perm es' := by
    refine (List.perm_ext_iff_of_nodup (nodup_of_ascending h) (nodup_of_ascending h')).2 fun x => ?_
    obtain ⟨k, v⟩ := x
    rw [← findEntry_eq_some_iff h, ← findEntry_eq_some_iff h', heq k]
  exact perm.eq_of_pairwise (fun a b _ _ hab hba => absurd hba (String.lt_asymm hab)) h h'

/-- Maps with the same look-ups are equal. -/
theorem ext_find? {m m' : KeyMap α} (h : ∀ k, m.find? k = m'.find? k) : m = m' := by
  obtain ⟨es, hes⟩ := m
  obtain ⟨es', hes'⟩ := m'
  obtain rfl := entries_ext hes hes' h
  rfl

end KeyMap

end LabLease
