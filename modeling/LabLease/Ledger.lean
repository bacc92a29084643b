import LabLease.Selector
import LabLease.Store

/-!
# The ledger

A ledger holds every lease record, oldest first, and never drops one. Beside the records it keeps
two look-up tables: the position of each lease, and for each exporter that is taken the lease that
holds it. Every change is written to the store first; if the store fails, records and tables stay
as they were.

An operation gives its answer together with the ledger afterwards, since a ledger may change even
where the answer is a failure: a lease found past its deadline is recorded as expired on the way.
Clock readings and the identifiers of new leases are arguments. A new identifier has to be one that
the ledger does not know (`Ledger.knows`). Drawing is a sequence of texts here, and `Ledger.unused`
takes the first that serves. One of the first texts does if they all differ, since the ledger knows
no more identifiers than it has records.

A sweep records the leases that are due as expired (`Ledger.sweep`). Readers do not depend on it,
since they treat a due lease as expired in any case: it only lets the records catch up. A pass takes
the leases that are due when it starts, one after the other; where the store fails, the lease is
left for the next pass.

The records of a store make a ledger if no identifier stands twice and no two records that are not
over name one exporter (`Ledger.ofStore`). `Ledger.tabulate` goes through them in order, and names
the first record that breaks either rule; a record that breaks both is reported for its identifier.
Nothing is written to the store.

Here and elsewhere, a reference at the end of a docstring names the item of the program that is
rendered, or the section of its specification that asks for what is said.
-/

namespace LabLease

/-- Refuses a span outside the range. Reference: `DurationBounds.check`. -/
def SpanRange.check (r : SpanRange) (s : Span) : Except Failure Unit :=
  if s ∈ r then .ok () else .error (.spanOutOfRange s r)

/-- The records of leases, with what finds them, written through to a store. Reference:
`LedgerState` and `LeaseLedger`, §4.3. -/
structure Ledger (σ : Type) where
  /-- The lengths of time that may be granted. -/
  bounds : SpanRange
  /-- Every record, oldest first. -/
  leases : List Lease
  /-- The position of each lease among the records. -/
  index : KeyMap Nat
  /-- For each exporter that is taken, the lease that holds it. -/
  holders : KeyMap String
  /-- Where the records are kept. -/
  store : σ

/-- What a claim asks for. Reference: the arguments of `LeaseLedger.claim`. -/
structure Booking where
  /-- The exporter to be bound. -/
  exporter : String
  /-- For how long. -/
  span : Span
  /-- A name for the lease. -/
  name : Option String := none
  /-- The selector text that led to the exporter. -/
  selector : String := ""
deriving DecidableEq, Repr

namespace Identifier

/-- The characters of an identifier, 64 in number. -/
def alphabet : List Char :=
  "_-0123456789abcdefghijklmnopqrstuvwxyzABCDEFGHIJKLMNOPQRSTUVWXYZ".toList

/-- How many characters of an identifier are drawn. -/
def width : Nat := 16

/-- A number's last `width` digits to the base 64, the last digit first. -/
def digits : Nat → Nat → List Char
  | 0, _ => []
  | width + 1, n => alphabet.getD (n % 64) '_' :: digits width (n / 64)

/-- The identifier with a number. Reference: `LedgerState.next_id`. -/
def ofNumber (n : Nat) : String := "lease_" ++ String.ofList (digits width n)

end Identifier

namespace Ledger

variable {σ : Type}

/-- A ledger without records, over a store that has none. Reference: `LeaseLedger.new`. -/
def blank (bounds : SpanRange) (store : σ) : Ledger σ :=
  ⟨bounds, [], KeyMap.empty, KeyMap.empty, store⟩

/-- Whether a lease has the identifier. -/
def knows (L : Ledger σ) (id : String) : Bool := L.index.contains id

/-- The record of a lease, with its position. -/
def record? (L : Ledger σ) (id : String) : Option (Nat × Lease) :=
  match L.index.find? id with
  | none => none
  | some pos => L.leases[pos]?.map fun l => (pos, l)

/-- The record of a lease. Reference: `LeaseLedger.get`. -/
def get (L : Ledger σ) (id : String) : Except Failure Lease :=
  match L.record? id with
  | none => .error (.unknownLease id)
  | some (_, l) => .ok l

/-- The lease that holds an exporter at `now`, if one does. Reference: `LeaseLedger.holder`. -/
def holder? (L : Ledger σ) (exporter : String) (now : Instant) : Option Lease :=
  match L.holders.find? exporter with
  | none => none
  | some id =>
    match L.record? id with
    | none => none
    | some (_, l) => if l.isLive now then some l else none

/-- The identifiers of the leases that are due at `now`, oldest first. Reference:
`LeaseLedger.due`. -/
def due (L : Ledger σ) (now : Instant) : List String := (L.leases.filter (·.isDue now)).map (·.id)

/-- The leases on exporters that satisfy a selector by the labels they are listed with, oldest first
and as recorded. A selector that demands nothing selects every lease; any other selects only leases
on listed exporters. Of several listings of one exporter the last counts. Reference:
`LeaseLedger.list`, §4.3. -/
def list (L : Ledger σ) (filter : Selector) (listed : List Exporter) : List Lease :=
  if filter.isEmpty then L.leases
  else
    let satisfied := KeyMap.ofList (listed.map fun e => (e.id, filter.holds e.labels))
    L.leases.filter fun l => (satisfied.find? l.exporter).getD false

/-! ## Identifiers for new leases -/

/-- The first text of a sequence, from the `n`th on, that is no identifier of the ledger; of `tries`
texts that are, the one after them. Reference: `LedgerState.next_id`. -/
def unusedFrom (L : Ledger σ) (draw : Nat → String) : Nat → Nat → String
  | n, 0 => draw n
  | n, tries + 1 => if L.knows (draw n) then L.unusedFrom draw (n + 1) tries else draw n

/-- An identifier for a new lease. -/
def unused (L : Ledger σ) (draw : Nat → String) : String := L.unusedFrom draw 0 L.leases.length

/-! ## Changes -/

section

variable [LeaseStore σ]

/-- Writes the record at `pos`, which is `l`, with another status. A lease that is over then no
longer holds its exporter. Reference: `LedgerState.transition`. -/
def transition (L : Ledger σ) (pos : Nat) (l : Lease) (status : Status) :
    Except Failure Unit × Ledger σ :=
  match LeaseStore.save L.store { l with status := status } with
  | (.error fault, store) => (.error (.store fault), { L with store := store })
  | (.ok (), store) =>
    (.ok (),
      { L with
        leases := L.leases.set pos { l with status := status }
        holders :=
          if status.isOver && L.holders.find? l.exporter == some l.id then
            L.holders.erase l.exporter
          else L.holders
        store := store })

/-- Records a new active lease, which holds its exporter from then on. Reference: the second half of
`LeaseLedger.claim`. -/
def grant (L : Ledger σ) (b : Booking) (now : Instant) (id : String) :
    Except Failure Lease × Ledger σ :=
  let l := { Lease.draft id b.exporter b.selector b.name b.span now with status := .active }
  match LeaseStore.save L.store l with
  | (.error fault, store) => (.error (.store fault), { L with store := store })
  | (.ok (), store) =>
    (.ok l,
      { L with
        leases := L.leases ++ [l]
        index := L.index.insert id L.leases.length
        holders := L.holders.insert b.exporter id
        store := store })

/-- Claims an exporter under a new identifier. A holder whose deadline has come is recorded as
expired first; any other holder refuses the claim. Reference: `LeaseLedger.claim`, §4.3. -/
def claim (L : Ledger σ) (b : Booking) (now : Instant) (id : String) :
    Except Failure Lease × Ledger σ :=
  match L.bounds.check b.span with
  | .error f => (.error f, L)
  | .ok () =>
    match L.holders.find? b.exporter with
    | none => L.grant b now id
    | some holder =>
      match L.record? holder with
      | none => (.error (.exporterHeld b.exporter holder), L)
      | some (pos, l) =>
        if l.isDue now then
          match L.transition pos l .expired with
          | (.error f, L') => (.error f, L')
          | (.ok (), L') => L'.grant b now id
        else (.error (.exporterHeld b.exporter holder), L)

/-- Gives a lease back. One that is found past its deadline is recorded as expired instead.
Reference: `LeaseLedger.release`, §4.3. -/
def release (L : Ledger σ) (id : String) (now : Instant) : Except Failure Lease × Ledger σ :=
  match L.record? id with
  | none => (.error (.unknownLease id), L)
  | some (pos, l) =>
    if l.status.isOver then (.error (.alreadyOver id l.status), L)
    else if l.isDue now then
      match L.transition pos l .expired with
      | (.error f, L') => (.error f, L')
      | (.ok (), L') => (.error (.alreadyOver id .expired), L')
    else
      match L.transition pos l .released with
      | (.error f, L') => (.error f, L')
      | (.ok (), L') => (.ok { l with status := .released }, L')

/-- Records a lease as expired, whatever its deadline, and answers whether that was a change: a
lease that is over stays as it is. Reference: `LeaseLedger.expire`, §4.3. -/
def expire (L : Ledger σ) (id : String) : Except Failure Bool × Ledger σ :=
  match L.record? id with
  | none => (.error (.unknownLease id), L)
  | some (pos, l) =>
    if l.status.isOver then (.ok false, L)
    else
      match L.transition pos l .expired with
      | (.error f, L') => (.error f, L')
      | (.ok (), L') => (.ok true, L')

/-! ## Sweeping -/

/-- Records leases as expired one after the other, and counts those for which that was a change. -/
def expireAll : Ledger σ → List String → Nat × Ledger σ
  | L, [] => (0, L)
  | L, id :: ids =>
    match L.expire id with
    | (.ok true, L') => ((L'.expireAll ids).1 + 1, (L'.expireAll ids).2)
    | (_, L') => L'.expireAll ids

/-- One pass at `now`: how many leases it recorded as expired, and the ledger afterwards. Reference:
`ExpirySweeper.sweep_once`, §4.4. -/
def sweep (L : Ledger σ) (now : Instant) : Nat × Ledger σ := L.expireAll (L.due now)

end

/-! ## Rebuilding a ledger from a store -/

/-- Enters records into the two look-up tables, the first of them under the position `pos`.
Reference: the loop of `LeaseLedger.with_store`. -/
def tabulate : List Lease → Nat → KeyMap Nat → KeyMap String →
    Except StoreFault (KeyMap Nat × KeyMap String)
  | [], _, index, holders => .ok (index, holders)
  | l :: ls, pos, index, holders =>
    if index.contains l.id then .error (.corrupt l.id .repeatedId)
    else if l.status.isOver then tabulate ls (pos + 1) (index.insert l.id pos) holders
    else
      match holders.find? l.exporter with
      | some holder => .error (.corrupt l.id (.alsoHeld l.exporter holder))
      | none =>
        tabulate ls (pos + 1) (index.insert l.id pos) (holders.insert l.exporter l.id)

/-- The ledger of a list of records, to be written through to `store`. -/
def ofRecords (bounds : SpanRange) (store : σ) (records : List Lease) :
    Except Failure (Ledger σ) :=
  match tabulate records 0 KeyMap.empty KeyMap.empty with
  | .error fault => .error (.store fault)
  | .ok (index, holders) => .ok ⟨bounds, records, index, holders, store⟩

/-- The ledger of everything a store holds. Reference: `LeaseLedger.with_store`, §14. -/
def ofStore [LeaseStore σ] (bounds : SpanRange) (store : σ) :
    Except Failure (Ledger σ) :=
  match LeaseStore.load store with
  | .error fault => .error (.store fault)
  | .ok records => ofRecords bounds store records

end Ledger

end LabLease
