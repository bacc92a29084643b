import LabLease.Proofs.Ledger.Positions
import LabLease.Store.Rehearsal

/-!
# Stores that keep records

A ledger writes two things: a record it has, with another status, and a record with a new
identifier. `LeaseStore.Keeps holds` says what it relies on: a store that holds a list of records
gives them when it is loaded, and after a write that it took it holds the changed list; after one
that it refused, the same list.

That follows from what such a store makes of any save (`SavesInto`), if a record of which only the
status changes is written as it is (`SavesInto.keeps`). Process memory replaces records
(`MemoryStore.Holds.upsert`), and so does everything that passes writes on to process memory or
refuses them, whatever it refuses (`Fronts`, `Fronts.savesInto`). What tables make of saves is shown
where tables are (`savesInto_table`).
-/

namespace LabLease.LeaseStore

variable {σ : Type} [LeaseStore σ]

/-- A store holds what a ledger has written to it; `holds s ls` says that `s` holds `ls`. -/
structure Keeps (holds : σ → List Lease → Prop) : Prop where
  load {s : σ} {ls : List Lease} (h : holds s ls) : load s = .ok ls
  refused {s s' : σ} {ls : List Lease} {l : Lease} {fault : StoreFault} (h : holds s ls)
    (hs : save s l = (.error fault, s')) : holds s' ls
  /-- A record is written with another status. -/
  closed {s s' : σ} {ls : List Lease} {pos : Nat} {l : Lease} {status : Status} (h : holds s ls)
    (hn : (ls.map (·.id)).Nodup) (hl : ls[pos]? = some l)
    (hs : save s { l with status := status } = (.ok (), s')) :
    holds s' (ls.set pos { l with status := status })
  /-- A record with a new identifier is written. -/
  entered {s s' : σ} {ls : List Lease} {l : Lease} (h : holds s ls) (hl : ∀ l' ∈ ls, l'.id ≠ l.id)
    (hs : save s l = (.ok (), s')) : holds s' (ls ++ [l])

/-- A store that holds records holds, after a save that it took, what `mix` makes of them and of the
lease, and after one that it refused the same records. -/
structure SavesInto (holds : σ → List Lease → Prop) (mix : Lease → Lease → Lease) : Prop where
  load {s : σ} {ls : List Lease} (h : holds s ls) : load s = .ok ls
  refused {s s' : σ} {ls : List Lease} {l : Lease} {fault : StoreFault} (h : holds s ls)
    (hs : save s l = (.error fault, s')) : holds s' ls
  saved {s s' : σ} {ls : List Lease} {l : Lease} (h : holds s ls)
    (hs : save s l = (.ok (), s')) : holds s' (savedInto mix ls l)

/-- That is enough for a ledger, if a change of status comes through. -/
theorem SavesInto.keeps {holds : σ → List Lease → Prop} {mix : Lease → Lease → Lease}
    (h : SavesInto holds mix)
    (hmix : ∀ (l : Lease) (status : Status), mix l { l with status := status } =
      { l with status := status }) : Keeps holds where
  load := h.load
  refused := h.refused
  closed {s s' ls pos l status} hh hn hl hs := by
    have into : savedInto mix ls { l with status := status } = ls.set pos _ :=
      savedInto_of_getElem? hn hl rfl
    rw [← hmix l status, ← into]
    exact h.saved hh hs
  entered hh hnew hs := by
    rw [← savedInto_of_new hnew]
    exact h.saved hh hs

end LeaseStore

/-! ## Process memory -/

namespace MemoryStore

/-- The store has the records, and its index is right about them. -/
structure Holds (s : MemoryStore) (ls : List Lease) : Prop where
  records_eq : s.records = ls
  locates : Locates s.index ls

variable {s : MemoryStore} {ls : List Lease} {l : Lease} {pos : Nat}

theorem holds_empty : empty.Holds [] := ⟨rfl, locates_empty⟩

/-- Writing a record in place of the one with its identifier. -/
theorem Holds.upsert_set {l' : Lease} (h : s.Holds ls) (hl : ls[pos]? = some l)
    (hid : l'.id = l.id) : (s.upsert l').Holds (ls.set pos l') := by
  have hf : s.index.find? l'.id = some pos := (h.locates _ _).2 ⟨l, hl, hid.symm⟩
  rw [upsert, hf]
  exact ⟨congrArg (·.set pos l') h.records_eq, h.locates.set hl hid⟩

/-- Writing a record with a new identifier. -/
theorem Holds.upsert_append (h : s.Holds ls) (hnew : ∀ l' ∈ ls, l'.id ≠ l.id) :
    (s.upsert l).Holds (ls ++ [l]) := by
  have hf : s.index.find? l.id = none := h.locates.find?_eq_none_iff.2 hnew
  rw [upsert, hf, h.records_eq]
  exact ⟨rfl, h.locates.append hnew⟩

/-- A record is replaced by what is saved under its identifier. -/
theorem Holds.upsert (h : s.Holds ls) : (s.upsert l).Holds (savedInto (fun _ new => new) ls l) := by
  cases hf : s.index.find? l.id with
  | none =>
    have hnew := h.locates.find?_eq_none_iff.1 hf
    rw [savedInto_of_new hnew]
    exact h.upsert_append hnew
  | some pos =>
    obtain ⟨l', hl', hid⟩ := (h.locates _ _).1 hf
    rw [savedInto_of_getElem? h.locates.nodup hl' hid.symm]
    exact h.upsert_set hl' hid.symm

/-- A store that was filled with records holds what it has. -/
theorem holds_ofRecords (records : List Lease) :
    (ofRecords records).Holds (ofRecords records).records := by
  suffices ∀ {s : MemoryStore}, s.Holds s.records →
      (records.foldl .upsert s).Holds (records.foldl .upsert s).records from this holds_empty
  induction records with
  | nil => exact id
  | cons l records ih =>
    intro s h
    have h' := h.upsert (l := l)
    rw [← h'.records_eq] at h'
    exact ih h'

end MemoryStore

namespace LeaseStore

/-- A store that keeps its records in process memory, of which `shows` tells, and may refuse any
write. -/
structure Fronts {σ : Type} [LeaseStore σ] (shows : σ → MemoryStore → Prop) : Prop where
  load {s : σ} {m : MemoryStore} (h : shows s m) : load s = .ok m.records
  save {s : σ} {m : MemoryStore} (h : shows s m) (l : Lease) :
    (save s l).1 = .ok () ∧ shows (save s l).2 (m.upsert l) ∨
    (∃ fault, (save s l).1 = .error fault) ∧ shows (save s l).2 m

/-- Process memory stands for itself, and refuses nothing. -/
theorem fronts_memory : Fronts fun s m : MemoryStore => s = m where
  load h := by rw [← h]; rfl
  save h l := .inl ⟨rfl, by rw [← h]; rfl⟩

/-- A store that fails by a schedule stands for the memory behind it, if it can be read. -/
theorem fronts_faulty :
    Fronts fun (s : FaultyStore MemoryStore) m => s.inner = m ∧ s.loadFault = none where
  load {s m} h := by
    obtain ⟨rfl, hr⟩ := h
    simp only [LeaseStore.load, hr]
  save {s m} h l := by
    obtain ⟨rfl, hr⟩ := h
    simp only [LeaseStore.save]
    split
    · exact .inr ⟨⟨_, rfl⟩, rfl, hr⟩
    · exact .inl ⟨rfl, rfl, hr⟩

/-- What stands for process memory replaces records. -/
theorem Fronts.savesInto {σ : Type} [LeaseStore σ] {shows : σ → MemoryStore → Prop}
    (hs : Fronts shows) :
    SavesInto (fun s ls => ∃ m, shows s m ∧ m.Holds ls) fun _ new => new where
  load h := by
    obtain ⟨m, hm, hh⟩ := h
    rw [hs.load hm, hh.records_eq]
  refused {s s' ls l fault} h hw := by
    obtain ⟨m, hm, hh⟩ := h
    obtain ⟨hok, -⟩ | ⟨-, hm'⟩ := hs.save hm l
    · rw [hw] at hok
      cases hok
    · rw [hw] at hm'
      exact ⟨m, hm', hh⟩
  saved {s s' ls l} h hw := by
    obtain ⟨m, hm, hh⟩ := h
    obtain ⟨-, hm'⟩ | ⟨⟨fault, hno⟩, -⟩ := hs.save hm l
    · rw [hw] at hm'
      exact ⟨_, hm', hh.upsert⟩
    · rw [hw] at hno
      cases hno

/-- What stands for process memory keeps records. -/
theorem Fronts.keeps {σ : Type} [LeaseStore σ] {shows : σ → MemoryStore → Prop}
    (hs : Fronts shows) : Keeps fun s ls => ∃ m, shows s m ∧ m.Holds ls :=
  hs.savesInto.keeps fun _ _ => rfl

end LeaseStore

end LabLease
