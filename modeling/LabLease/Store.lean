import LabLease.Failure
import LabLease.KeyMap

/-!
# Stores of lease records

A ledger writes every change through to a store and is rebuilt from one. What it needs of a store
is said by the class `LeaseStore`: reading all records, oldest first, writing one record, and a
short description. Writing answers whether it succeeded and gives the store afterwards in either
case, since a store may keep count of what was tried.

A ledger can be kept in process memory (`MemoryStore`), in a table of a database (`TableStore`),
or in whichever of two kinds of store was chosen when it was opened (the instance on sums).

The store in process memory is that of a broker whose leases do not outlive it. Its records stand in
the order in which their identifiers were first saved; saving an identifier again replaces its whole
record in place. An index from identifiers to positions saves the search.
-/

namespace LabLease

/-- A place that keeps lease records by their identifiers. Reference: `LeaseStore`, §6. -/
class LeaseStore (σ : Type) where
  /-- All records, oldest first. -/
  load : σ → Except StoreFault (List Lease)
  /-- Writes a record, in place of the one with its identifier if there is one. -/
  save : σ → Lease → Except StoreFault Unit × σ
  /-- A short description of the kind of place. -/
  describe : σ → String

/-- One of two kinds of store. -/
instance {σ τ : Type} [LeaseStore σ] [LeaseStore τ] : LeaseStore (σ ⊕ τ) where
  load
    | .inl s => LeaseStore.load s
    | .inr s => LeaseStore.load s
  save
    | .inl s, l => ((LeaseStore.save s l).1, .inl (LeaseStore.save s l).2)
    | .inr s, l => ((LeaseStore.save s l).1, .inr (LeaseStore.save s l).2)
  describe
    | .inl s => LeaseStore.describe s
    | .inr s => LeaseStore.describe s

/-! ## Records in process memory -/

/-- Lease records in process memory. Reference: `InMemoryLeaseStore`. -/
structure MemoryStore where
  /-- The records, in the order of their first saves. -/
  records : List Lease
  /-- The position of each identifier among the records. -/
  index : KeyMap Nat
deriving DecidableEq, Repr, Inhabited

namespace MemoryStore

/-- The store without records. -/
def empty : MemoryStore := ⟨[], KeyMap.empty⟩

/-- Writes a record in its place, or as the last one if its identifier is new. Reference:
`InMemoryLeaseStore.upsert`. -/
def upsert (s : MemoryStore) (l : Lease) : MemoryStore :=
  match s.index.find? l.id with
  | some pos => { s with records := s.records.set pos l }
  | none => ⟨s.records ++ [l], s.index.insert l.id s.records.length⟩

/-- The store of records that were kept before, saved one after the other. Reference:
`InMemoryLeaseStore.with_records`. -/
def ofRecords (records : List Lease) : MemoryStore := records.foldl upsert empty

instance : LeaseStore MemoryStore where
  load s := .ok s.records
  save s l := (.ok (), s.upsert l)
  describe _ := "memory"

@[simp] theorem load_eq (s : MemoryStore) : LeaseStore.load s = .ok s.records := rfl

@[simp] theorem save_eq (s : MemoryStore) (l : Lease) :
    LeaseStore.save s l = (.ok (), s.upsert l) := rfl

end MemoryStore

end LabLease
