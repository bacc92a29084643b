import LabLease.Store

/-!
# Stores for rehearsing faults

Two stores with which the behaviour of a ledger can be tried out. A `FaultyStore` passes writes on
to another store except where its schedule of faults says otherwise; a write that fails leaves the
other store as it is. A `FixedStore` always gives the same records and keeps nothing.
-/

namespace LabLease

/-- A store that fails by a schedule. -/
structure FaultyStore (σ : Type) where
  /-- How the store describes itself. -/
  label : String
  /-- The store that keeps the records. -/
  inner : σ
  /-- How many writes have been tried. -/
  tried : Nat := 0
  /-- The fault of the write with a given number, counted from 0, if it is to fail. -/
  faultAt : Nat → Option StoreFault := fun _ => none
  /-- The fault of every reading, if readings are to fail. -/
  loadFault : Option StoreFault := none

namespace FaultyStore

variable {σ : Type}

/-- Replaces the schedule: after `after` more writes that succeed, as many fail as `count` says,
or all if it says nothing. -/
def failing (s : FaultyStore σ) (fault : StoreFault) (after : Nat) (count : Option Nat) :
    FaultyStore σ :=
  let first := s.tried + after
  { s with faultAt := fun n =>
      if n < first then none
      else match count with
        | none => some fault
        | some count => if n < first + count then some fault else none }

/-- Ends all failing of writes. -/
def mended (s : FaultyStore σ) : FaultyStore σ := { s with faultAt := fun _ => none }

instance [LeaseStore σ] : LeaseStore (FaultyStore σ) where
  load s :=
    match s.loadFault with
    | some fault => .error fault
    | none => LeaseStore.load s.inner
  save s l :=
    match s.faultAt s.tried with
    | some fault => (.error fault, { s with tried := s.tried + 1 })
    | none =>
      ((LeaseStore.save s.inner l).1,
        { s with inner := (LeaseStore.save s.inner l).2, tried := s.tried + 1 })
  describe s := s.label

end FaultyStore

/-- A store with the same records for ever. -/
structure FixedStore where
  /-- How the store describes itself. -/
  label : String
  /-- What it gives at every reading. -/
  records : List Lease
deriving DecidableEq, Repr, Inhabited

instance : LeaseStore FixedStore where
  load s := .ok s.records
  save s _ := (.ok (), s)
  describe s := s.label

end LabLease
