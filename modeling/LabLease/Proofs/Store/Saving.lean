import LabLease.Proofs.Store.Table
import Mathlib.Data.List.Induction

/-!
# What a store gives back

After any saves a store gives back one record for each identifier, in the order of the first saves.
What it makes of the saves under one identifier differs: process memory has the last of them, and a
table the first of them with the name, the status and the deadline of the last (`RecordsOf`).

Both go from save to save in the same way (`LeaseStore.SavesInto`), and there it is enough that what
comes of two saves and a third is what comes of the first and the third (`Mixes`). A save that a
table refuses leaves nothing behind, so in its case only those count that it took
(`LeaseStore.taken`). The two kinds of stores give the same records as long as every save fits in
the table, and those under one identifier agree on what a table does not write again
(`LeaseStore.saves_meet`).
-/

namespace LabLease

variable {mix mix' : Lease → Lease → Lease} {saves ls ls' : List Lease} {l : Lease} {id : String}

/-! ## Saves under an identifier -/

/-- The first save under an identifier. -/
def firstSave? (saves : List Lease) (id : String) : Option Lease := saves.find? (·.id == id)

/-- The last save under an identifier. -/
def lastSave? (saves : List Lease) (id : String) : Option Lease := firstSave? saves.reverse id

theorem mem_of_firstSave? (h : firstSave? saves id = some l) : l ∈ saves ∧ l.id = id := by
  rw [firstSave?] at h
  exact ⟨List.mem_of_find?_eq_some h, by simpa using List.find?_some h⟩

theorem mem_of_lastSave? (h : lastSave? saves id = some l) : l ∈ saves ∧ l.id = id := by
  obtain ⟨hl, hid⟩ := mem_of_firstSave? h
  exact ⟨List.mem_reverse.1 hl, hid⟩

/-- Under a new identifier there is no save. -/
theorem firstSave?_eq_none (h : id ∉ saves.map (·.id)) : firstSave? saves id = none := by
  refine List.find?_eq_none.2 fun l hl hid => h ?_
  exact List.mem_map.2 ⟨l, hl, beq_iff_eq.1 hid⟩

/-- Another save is the first one if there was none. -/
theorem firstSave?_concat : firstSave? (saves ++ [l]) id =
    (firstSave? saves id).or (if l.id = id then some l else none) := by
  rw [firstSave?, List.find?_append, firstSave?, List.find?_singleton]
  simp

/-- Another save is the last one. -/
theorem lastSave?_concat : lastSave? (saves ++ [l]) id =
    if l.id = id then some l else lastSave? saves id := by
  rw [lastSave?, firstSave?, List.reverse_append, List.reverse_singleton, List.singleton_append,
    List.find?_cons]
  split <;> simp_all [lastSave?, firstSave?]

/-! ## Records from saves -/

/-- The records that should come of some saves, if `mix` makes one of the first and the last save
under an identifier. -/
structure RecordsOf (mix : Lease → Lease → Lease) (saves ls : List Lease) : Prop where
  /-- There is one for each identifier, in the order of the first saves. -/
  ids : ls.map (·.id) = (saves.map (·.id)).eraseDups
  /-- It is made of the first and the last save under that. -/
  record {l : Lease} (hl : l ∈ ls) : ∃ first last, firstSave? saves l.id = some first ∧
    lastSave? saves l.id = some last ∧ l = mix first last

/-- Of two leases with one identifier one is made, which has it too; what is saved in between leaves
nothing behind. -/
structure Mixes (mix : Lease → Lease → Lease) : Prop where
  id {a b : Lease} (h : a.id = b.id) : (mix a b).id = a.id
  self (a : Lease) : mix a a = a
  between (a b c : Lease) : mix (mix a b) c = mix a c

theorem mixes_new : Mixes fun _ new => new := ⟨fun h => h.symm, fun _ => rfl, fun _ _ _ => rfl⟩

theorem mixes_updatedBy : Mixes Lease.updatedBy := ⟨fun _ => rfl, fun _ => rfl, fun _ _ _ => rfl⟩

/-- The identifiers of one more save. -/
theorem eraseDups_concat {ids : List String} : (ids ++ [id]).eraseDups =
    if id ∈ ids then ids.eraseDups else ids.eraseDups ++ [id] := by
  rw [List.eraseDups_append]
  split <;> simp [List.removeAll, List.eraseDups_cons, *]

/-- The records have the identifiers of the saves. -/
theorem RecordsOf.any_id_eq (h : RecordsOf mix saves ls) :
    ls.any (·.id == id) = true ↔ id ∈ saves.map (·.id) := by
  rw [← List.mem_eraseDups, ← h.ids]
  simp

/-- A record is not touched by a save under another identifier. -/
theorem RecordsOf.record_concat {l' : Lease} (h : RecordsOf mix saves ls) (hl : l ∈ ls)
    (hid : l'.id ≠ l.id) : ∃ first last, firstSave? (saves ++ [l']) l.id = some first ∧
      lastSave? (saves ++ [l']) l.id = some last ∧ l = mix first last := by
  obtain ⟨first, last, hfirst, hlast, heq⟩ := h.record hl
  refine ⟨first, last, ?_, ?_, heq⟩
  · rw [firstSave?_concat, hfirst, Option.some_or]
  · rw [lastSave?_concat, if_neg hid, hlast]

/-- A save under an identifier that there was changes its record. -/
theorem RecordsOf.concat_of_known (hm : Mixes mix) (h : RecordsOf mix saves ls)
    (known : l.id ∈ saves.map (·.id)) : RecordsOf mix (saves ++ [l])
      (ls.map fun old => if old.id = l.id then mix old l else old) := by
  have kept (old : Lease) : (if old.id = l.id then mix old l else old).id = old.id := by
    split
    · next hid => exact hm.id hid
    · rfl
  constructor
  · rw [List.map_append, List.map_singleton, eraseDups_concat, if_pos known, ← h.ids, List.map_map]
    exact List.map_congr_left fun old _ => kept old
  · intro l' hl'
    obtain ⟨old, hold, rfl⟩ := List.mem_map.1 hl'
    rw [kept]
    split
    · next hid =>
      obtain ⟨first, last, hfirst, hlast, heq⟩ := h.record hold
      refine ⟨first, l, ?_, ?_, ?_⟩
      · rw [firstSave?_concat, hfirst, Option.some_or]
      · rw [lastSave?_concat, if_pos hid.symm]
      · rw [heq, hm.between]
    · next hid => exact h.record_concat hold (Ne.symm hid)

/-- A save under a new identifier comes last. -/
theorem RecordsOf.concat_of_new (hm : Mixes mix) (h : RecordsOf mix saves ls)
    (unknown : l.id ∉ saves.map (·.id)) : RecordsOf mix (saves ++ [l]) (ls ++ [l]) := by
  constructor
  · rw [List.map_append, List.map_append, List.map_singleton, eraseDups_concat, if_neg unknown,
      h.ids]
  · intro l' hl'
    obtain hl' | hl' := List.mem_append.1 hl'
    · refine h.record_concat hl' fun hid => unknown (h.any_id_eq.1 ?_)
      exact List.any_eq_true.2 ⟨l', hl', beq_iff_eq.2 hid.symm⟩
    · obtain rfl := List.mem_singleton.1 hl'
      refine ⟨l', l', ?_, ?_, (hm.self l').symm⟩
      · rw [firstSave?_concat, firstSave?_eq_none unknown, if_pos rfl, Option.none_or]
      · rw [lastSave?_concat, if_pos rfl]

/-- What should come of one more save. -/
theorem RecordsOf.concat (hm : Mixes mix) (h : RecordsOf mix saves ls) (l : Lease) :
    RecordsOf mix (saves ++ [l]) (savedInto mix ls l) := by
  rw [savedInto]
  split
  · next there => exact h.concat_of_known hm (h.any_id_eq.1 there)
  · next absent => exact h.concat_of_new hm fun known => absent (h.any_id_eq.2 known)

/-- What should come of saves, one after the other. -/
theorem recordsOf_foldl (hm : Mixes mix) (saves : List Lease) :
    RecordsOf mix saves (saves.foldl (savedInto mix) []) := by
  induction saves using List.reverseRecOn with
  | nil => exact ⟨rfl, nofun⟩
  | append_singleton saves l ih =>
    rw [List.foldl_concat]
    exact ih.concat hm l

/-- What comes of saves does not depend on how leases become one, as long as it makes no difference
for saves under one identifier. -/
theorem RecordsOf.unique (h : RecordsOf mix saves ls) (h' : RecordsOf mix' saves ls')
    (same : ∀ a ∈ saves, ∀ b ∈ saves, a.id = b.id → mix a b = mix' a b) : ls = ls' := by
  have ids : ls.map (·.id) = ls'.map (·.id) := h.ids.trans h'.ids.symm
  have length : ls.length = ls'.length := by simpa using congrArg List.length ids
  refine List.ext_getElem length fun i hi hi' => ?_
  have id : ls[i].id = ls'[i].id := by
    have := congrArg (·[i]?) ids
    simpa [hi, hi'] using this
  obtain ⟨first, last, hfirst, hlast, heq⟩ := h.record (List.getElem_mem hi)
  obtain ⟨first', last', hfirst', hlast', heq'⟩ := h'.record (List.getElem_mem hi')
  rw [← id, hfirst] at hfirst'
  rw [← id, hlast] at hlast'
  cases hfirst'
  cases hlast'
  obtain ⟨hmem, hid⟩ := mem_of_firstSave? hfirst
  obtain ⟨hmem', hid'⟩ := mem_of_lastSave? hlast
  rw [heq, heq', same first hmem last hmem' (hid.trans hid'.symm)]

/-! ## Stores -/

namespace LeaseStore

variable {σ : Type} [LeaseStore σ] {holds : σ → List Lease → Prop} {s : σ}

/-- A store after some saves, whether or not it took them. -/
def afterSaves (s : σ) (saves : List Lease) : σ := saves.foldl (fun s l => (save s l).2) s

/-- Those of the saves that a store takes. -/
def taken (s : σ) : List Lease → List Lease
  | [] => []
  | l :: ls =>
    match save s l with
    | (.ok (), s) => l :: taken s ls
    | (.error _, s) => taken s ls

/-- What a store takes goes before the rest, and what it refuses does not count. -/
theorem taken_cons_of_ok {s' : σ} (h : save s l = (.ok (), s')) :
    taken s (l :: saves) = l :: taken s' saves := by
  simp only [taken, h]

theorem taken_cons_of_error {s' : σ} {fault : StoreFault} (h : save s l = (.error fault, s')) :
    taken s (l :: saves) = taken s' saves := by
  simp only [taken, h]

/-- A store that takes all saves. -/
theorem Takes.taken_eq (h : Takes s saves) : taken s saves = saves := by
  induction saves generalizing s with
  | nil => rfl
  | cons l saves ih => rw [taken_cons_of_ok h.save_eq, ih h.2]

/-- After saves a store holds what comes of those that it took. -/
theorem SavesInto.holds_afterSaves (h : SavesInto holds mix) (hs : holds s ls)
    (saves : List Lease) :
    holds (afterSaves s saves) ((taken s saves).foldl (savedInto mix) ls) := by
  induction saves generalizing s ls with
  | nil => exact hs
  | cons l saves ih =>
    rw [afterSaves, List.foldl_cons]
    obtain ⟨⟨fault⟩ | ⟨⟨⟩⟩, s', hw⟩ : ∃ answer s', save s l = (answer, s') := ⟨_, _, rfl⟩
    · rw [taken_cons_of_error hw, hw]
      exact ih (h.refused hs hw)
    · rw [taken_cons_of_ok hw, hw, List.foldl_cons]
      exact ih (h.saved hs hw)

/-- If it held nothing before, it gives back what should come of those. -/
theorem SavesInto.load_afterSaves (h : SavesInto holds mix) (hm : Mixes mix) (hs : holds s [])
    (saves : List Lease) :
    ∃ ls, LeaseStore.load (afterSaves s saves) = .ok ls ∧ RecordsOf mix (taken s saves) ls :=
  ⟨_, h.load (h.holds_afterSaves hs saves), recordsOf_foldl hm _⟩

/-! ### Process memory -/

/-- The records that process memory was filled with count as saves. -/
theorem afterSaves_ofRecords (records saves : List Lease) :
    afterSaves (MemoryStore.ofRecords records) saves =
      afterSaves MemoryStore.empty (records ++ saves) := by
  rw [afterSaves, afterSaves, List.foldl_append]
  rfl

/-- Process memory has the last save under each identifier, and finds it. -/
theorem afterSaves_memory (records saves : List Lease) :
    ∃ ls, load (afterSaves (MemoryStore.ofRecords records) saves) = .ok ls ∧
      RecordsOf (fun _ last => last) (records ++ saves) ls ∧
      Locates (afterSaves (MemoryStore.ofRecords records) saves).index ls := by
  have empty : ∃ m, MemoryStore.empty = m ∧ m.Holds [] := ⟨_, rfl, MemoryStore.holds_empty⟩
  obtain ⟨m, hm, hh⟩ := fronts_memory.savesInto.holds_afterSaves empty (records ++ saves)
  rw [(takes_memory _ _).taken_eq] at hh
  rw [afterSaves_ofRecords, hm]
  have loaded : load m = .ok _ := congrArg Except.ok hh.records_eq
  exact ⟨_, loaded, recordsOf_foldl mixes_new _, hh.locates⟩

/-! ### Tables -/

end LeaseStore

/-- No number of a lease is larger than the largest signed integer of 64 bits. -/
def Lease.InRange (l : Lease) : Prop :=
  l.createdAt.toNat ≤ 0x7fffffffffffffff ∧ l.durationMs.toNat ≤ 0x7fffffffffffffff ∧
    l.expiresAt.toNat ≤ 0x7fffffffffffffff

instance : DecidablePred Lease.InRange := fun l =>
  inferInstanceAs (Decidable (l.createdAt.toNat ≤ 0x7fffffffffffffff ∧ _ ∧ _))

theorem LeaseTable.fits_iff_inRange : fits l = true ↔ l.InRange := fits_iff

namespace LeaseStore

variable {s : TableStore}

/-- A table that may be written to takes the saves whose numbers are in range. -/
theorem taken_table (hr : s.readOnly = false) (saves : List Lease) :
    taken s saves = saves.filter (·.InRange) := by
  induction saves generalizing s with
  | nil => rfl
  | cons l saves ih =>
    obtain ⟨hf, hs⟩ | ⟨-, hr', -⟩ | ⟨hf, -, t, hs⟩ := save_table s l
    · have out : ¬ l.InRange := by simp [← LeaseTable.fits_iff_inRange, hf]
      rw [taken_cons_of_error hs, List.filter_cons_of_neg (by simpa using out), ih hr]
    · rw [hr] at hr'
      cases hr'
    · have within := LeaseTable.fits_iff_inRange.1 hf
      rw [taken_cons_of_ok hs, List.filter_cons_of_pos (by simpa using within),
        ih (s := { s with table := t }) hr]

/-! ## What is given back -/

/-- What should be given back after saves, by process memory that was filled with records, and by a
table. -/
structure SavingSpec (records saves : List Lease) (s : TableStore) : Prop where
  /-- Process memory takes all saves. -/
  memory_takes : Takes (MemoryStore.ofRecords records) saves
  /-- It has the last record or save under each identifier, and finds it by an index that is right
  about all of them and nothing else. -/
  memory : ∃ ls, load (afterSaves (MemoryStore.ofRecords records) saves) = .ok ls ∧
    RecordsOf (fun _ last => last) (records ++ saves) ls ∧
    Locates (afterSaves (MemoryStore.ofRecords records) saves).index ls
  /-- At no time does a table take a lease with a number that is out of range, and then it is left
  as it was. -/
  table_refuses (pre : List Lease) {l : Lease} (hl : ¬ l.InRange) :
    save (afterSaves s pre) l = (.error (.backend .numberTooLarge), afterSaves s pre)
  /-- A table that may be written to takes all others. -/
  table_takes (hr : s.readOnly = false) : taken s saves = saves.filter (·.InRange)
  /-- A table has, of what it took, the first save under each identifier, with the name, the status
  and the deadline of the last. -/
  table : ∃ ls, load (afterSaves s saves) = .ok ls ∧
    RecordsOf (fun first last =>
      { first with name := last.name, status := last.status, expiresAt := last.expiresAt })
      (taken s saves) ls
  /-- Where all is in range, and the saves under an identifier agree in what a table does not write
  again, it makes no difference where they are kept. -/
  agree (hr : s.readOnly = false) (range : ∀ l ∈ records ++ saves, l.InRange)
    (fixed : ∀ a ∈ records ++ saves, ∀ b ∈ records ++ saves, a.id = b.id →
      a.selector = b.selector ∧ a.exporter = b.exporter ∧ a.createdAt = b.createdAt ∧
        a.durationMs = b.durationMs) :
    load (afterSaves s (records ++ saves)) =
      load (afterSaves (MemoryStore.ofRecords records) saves)

/-- Whatever is saved, process memory gives back the last save under each identifier. A table that
was empty gives back the first save under each that it took, with the name, the status and the
deadline of the last; unless it must not be written to, it takes all whose numbers fit its columns.
So the two agree where the saves under an identifier differ in nothing else. Reference:
`InMemoryLeaseStore.save` and `SqliteLeaseStore.save`, §6. -/
theorem saves_meet (hs : s.table = LeaseTable.empty) (records saves : List Lease) :
    SavingSpec records saves s := by
  have holds : s.table.leases = .ok [] := by rw [hs]; rfl
  refine ⟨takes_memory _ _, afterSaves_memory records saves, fun pre l hl => ?_,
    fun hr => taken_table hr saves, savesInto_table.load_afterSaves mixes_updatedBy holds saves, ?_⟩
  · obtain ⟨-, hsave⟩ | ⟨hf, -⟩ | ⟨hf, -⟩ := save_table (afterSaves s pre) l
    · exact hsave
    · exact absurd (LeaseTable.fits_iff_inRange.1 hf) hl
    · exact absurd (LeaseTable.fits_iff_inRange.1 hf) hl
  · intro hr range fixed
    have takes : Takes s (records ++ saves) :=
      (takes_table_iff hr).2 fun l hl => LeaseTable.fits_iff_inRange.2 (range l hl)
    obtain ⟨ls, hload, hback⟩ :=
      savesInto_table.load_afterSaves mixes_updatedBy holds (records ++ saves)
    obtain ⟨ls', hload', hback', -⟩ := afterSaves_memory records saves
    rw [takes.taken_eq] at hback
    rw [hload, hload', hback.unique hback' fun a ha b hb hid => ?_]
    obtain ⟨hse, he, hc, hd⟩ := fixed a ha b hb hid
    simp only [Lease.updatedBy, hid, hse, he, hc, hd]

/-- A lease of a board from the beginning of time. -/
def boardSince (id selector : String) (status : Status) : Lease :=
  ⟨id, none, selector, "e1", status, 0, 60000, 60000⟩

/-- A lease is kept in process memory. -/
def seeded : List Lease := [boardSince "a" "type=board" .active]

/-- There are two more saves of it, the second with another selector, and two of a new lease; in
between one has a number that is out of range. -/
def crossed : List Lease :=
  [boardSince "b" "type=board" .active, boardSince "a" "type=board" .active,
    { boardSince "b" "type=board" .active with expiresAt := 9223372036854775808 },
    boardSince "a" "type=camera" .released, boardSince "b" "type=board" .expired]

/-- A table without rows that can be written to. -/
def blankTable : TableStore := { path := "leases.db" }

/-- The table takes four of those saves, and keeps the selector of the first in each case. Without
the third save and those behind it, it makes no difference where the leases are kept. -/
theorem saves_meet_crossed :
    blankTable.table = .empty ∧ blankTable.readOnly = false ∧
    SavingSpec seeded crossed blankTable ∧
    load (afterSaves (MemoryStore.ofRecords seeded) crossed) =
      .ok [boardSince "a" "type=camera" .released, boardSince "b" "type=board" .expired] ∧
    (taken blankTable crossed).map (·.id) = ["b", "a", "a", "b"] ∧
    load (afterSaves blankTable crossed) =
      .ok [boardSince "b" "type=board" .expired, boardSince "a" "type=board" .released] ∧
    load (afterSaves blankTable (seeded ++ crossed.take 2)) =
      load (afterSaves (MemoryStore.ofRecords seeded) (crossed.take 2)) := by
  have empty : blankTable.table = .empty := rfl
  refine ⟨empty, rfl, saves_meet empty seeded crossed, rfl, ?_, rfl, ?_⟩
  · rw [(saves_meet empty seeded crossed).table_takes rfl]
    rfl
  · exact (saves_meet empty seeded (crossed.take 2)).agree rfl (by decide) (by decide)

end LeaseStore

end LabLease
