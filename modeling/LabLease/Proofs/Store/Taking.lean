import LabLease.Store.Rehearsal
import LabLease.Store.Table

/-!
# What stores take and what they refuse

`LeaseStore.Takes` says that a store takes a list of records, one after the other. Process memory
takes everything (`takes_memory`), and a table that may be written to takes exactly what fits in its
columns (`takes_table_iff`).

A store is careful if a refusal does not change what is read from it (`LeaseStore.Careful`). Process
memory and tables are careful, and so is what is made of them, whatever its schedule of faults. All
of them describe themselves in the same way at all times (`LeaseStore.Steady`).
-/

namespace LabLease.LeaseStore

variable {σ : Type} [LeaseStore σ]

/-- The store takes the records, one after the other. -/
def Takes (s : σ) : List Lease → Prop
  | [] => True
  | l :: ls => (save s l).1 = .ok () ∧ Takes (save s l).2 ls

/-- After a record that is taken it depends on the others. -/
theorem takes_cons_of_ok {s s' : σ} {l : Lease} {ls : List Lease} (h : save s l = (.ok (), s')) :
    Takes s (l :: ls) ↔ Takes s' ls := by
  simp [Takes, h]

/-- The first of the records is written. -/
theorem Takes.save_eq {s : σ} {l : Lease} {ls : List Lease} (h : Takes s (l :: ls)) :
    save s l = (.ok (), (save s l).2) :=
  Prod.ext h.1 rfl

/-- A record that is refused is not taken, whatever follows. -/
theorem not_takes_of_error {s s' : σ} {l : Lease} {ls : List Lease} {fault : StoreFault}
    (h : save s l = (.error fault, s')) : ¬ Takes s (l :: ls) := by
  rintro ⟨hok, -⟩
  rw [h] at hok
  cases hok

/-- A store that is as `ok` tells takes every record that is as `fit` tells, and stays so. -/
structure Accepts (ok : σ → Prop) (fit : Lease → Prop) : Prop where
  takes {s : σ} {l : Lease} (hs : ok s) (hl : fit l) : (save s l).1 = .ok ()
  stays {s : σ} (hs : ok s) (l : Lease) : ok (save s l).2

/-- Then it takes lists of such records. -/
theorem Accepts.takes_all {ok : σ → Prop} {fit : Lease → Prop} (h : Accepts ok fit) {s : σ}
    (hs : ok s) {ls : List Lease} (hl : ∀ l ∈ ls, fit l) : Takes s ls := by
  induction ls generalizing s with
  | nil => trivial
  | cons l ls ih =>
    obtain ⟨first, others⟩ := List.forall_mem_cons.1 hl
    exact ⟨h.takes hs first, ih (h.stays hs l) others⟩

/-- What it refuses was not such a record. -/
theorem Accepts.not_fit {ok : σ → Prop} {fit : Lease → Prop} (h : Accepts ok fit) {s s' : σ}
    {l : Lease} {fault : StoreFault} (hs : ok s) (hw : save s l = (.error fault, s')) :
    ¬ fit l := by
  intro hl
  have := h.takes hs hl
  rw [hw] at this
  cases this

/-- A store always describes itself in the same way. -/
def Steady (σ : Type) [LeaseStore σ] : Prop :=
  ∀ (s : σ) (l : Lease), describe (save s l).2 = describe s

/-- What a store refuses does not change what is read from it. -/
def Careful (σ : Type) [LeaseStore σ] : Prop :=
  ∀ {s s' : σ} {l : Lease} {fault : StoreFault}, save s l = (.error fault, s') → load s' = load s

/-! ## Process memory -/

/-- Process memory accepts everything. -/
theorem accepts_memory : Accepts (fun _ : MemoryStore => True) fun _ => True where
  takes _ _ := rfl
  stays _ _ := trivial

/-- Process memory takes everything. -/
theorem takes_memory (s : MemoryStore) (ls : List Lease) : Takes s ls :=
  accepts_memory.takes_all trivial fun _ _ => trivial

/-- Process memory is always process memory. -/
theorem steady_memory : Steady MemoryStore := fun _ _ => rfl

/-- Process memory never refuses, so it is careful. -/
theorem careful_memory : Careful MemoryStore := by
  intro s s' l fault h
  cases h

/-! ## Tables -/

/-- A table refuses a lease for its numbers, or because nothing may be written to it. -/
theorem save_table (s : TableStore) (l : Lease) :
    (LeaseTable.fits l = false ∧ save s l = (.error (.backend .numberTooLarge), s)) ∨
    (LeaseTable.fits l = true ∧ s.readOnly = true ∧
      save s l = (.error (.backend .readOnly), s)) ∨
    (LeaseTable.fits l = true ∧ s.readOnly = false ∧
      ∃ t, save s l = (.ok (), { s with table := t })) := by
  cases hf : LeaseTable.fits l with
  | false => exact .inl ⟨rfl, by simp [save, LeaseTable.save, hf]⟩
  | true =>
    obtain ⟨t, ht⟩ : ∃ t, s.table.save l = .ok t := by
      simp only [LeaseTable.save, hf, Bool.not_true, Bool.false_eq_true, if_false]
      split
      · exact ⟨_, rfl⟩
      · exact ⟨_, rfl⟩
    cases hr : s.readOnly with
    | true => exact .inr (.inl ⟨rfl, rfl, by simp [save, ht, hr]⟩)
    | false => exact .inr (.inr ⟨rfl, rfl, t, by simp [save, ht, hr]⟩)

/-- A table that may be written to takes exactly the leases whose numbers fit in its columns. -/
theorem takes_table_iff {s : TableStore} (hr : s.readOnly = false) {ls : List Lease} :
    Takes s ls ↔ ∀ l ∈ ls, LeaseTable.fits l = true := by
  induction ls generalizing s with
  | nil => simp [Takes]
  | cons l ls ih =>
    rw [List.forall_mem_cons]
    obtain ⟨hf, hs⟩ | ⟨-, hr', -⟩ | ⟨hf, -, t, hs⟩ := save_table s l
    · simp [not_takes_of_error hs, hf]
    · rw [hr] at hr'
      cases hr'
    · rw [takes_cons_of_ok hs, ih (s := { s with table := t }) hr]
      simp [hf]

/-- A table that may be written to accepts what fits in its columns, and keeps its path. -/
theorem accepts_table (path : String) :
    Accepts (fun s : TableStore => s.path = path ∧ s.readOnly = false)
      fun l => LeaseTable.fits l = true where
  takes {s l} hs hf := ((takes_table_iff hs.2).2 (List.forall_mem_singleton.2 hf)).1
  stays {s} hs l := by
    obtain ⟨-, h⟩ | ⟨-, -, h⟩ | ⟨-, -, t, h⟩ := save_table s l
    · rwa [h]
    · rwa [h]
    · rw [h]
      exact hs

/-- A table is always known by its path. -/
theorem steady_table : Steady TableStore := by
  intro s l
  obtain ⟨-, hs⟩ | ⟨-, -, hs⟩ | ⟨-, -, t, hs⟩ := save_table s l
  · rw [hs]
  · rw [hs]
  · rw [hs]
    rfl

/-- A table that refuses a lease is left as it was. -/
theorem careful_table : Careful TableStore := by
  intro s s' l fault h
  obtain ⟨-, hs⟩ | ⟨-, -, hs⟩ | ⟨-, -, t, hs⟩ := save_table s l
  · rw [hs] at h
    cases h
    rfl
  · rw [hs] at h
    cases h
    rfl
  · rw [hs] at h
    cases h

/-! ## Stores made of stores -/

/-- A store that fails by a schedule is as careful as the store behind it. -/
theorem careful_faulty (h : Careful σ) : Careful (FaultyStore σ) := by
  intro s s' l fault hs
  simp only [save] at hs
  split at hs
  · cases hs
    rfl
  · injection hs with he hs
    subst hs
    have inner : load (save s.inner l).2 = load s.inner := h (Prod.ext he rfl)
    simp only [load, inner]

/-- A store that fails by a schedule keeps its label. -/
theorem steady_faulty : Steady (FaultyStore σ) := by
  intro s l
  simp only [save]
  split <;> rfl

end LabLease.LeaseStore
