import LabLease.Proofs.Broker.Bookings
import LabLease.Proofs.Broker.Reopening
import LabLease.Proofs.Broker.Serving

/-!
# Leases that last

A lease that was given out should still be there when the database is closed and opened again. The
settings admit every length whose milliseconds are a number of 64 bits, and the columns of the table
hold signed numbers, which have one bit less. So a lease lasts exactly if its deadline is a number
of 63 bits (`Broker.OpenedFrom.lasts_iff`); past that, the order is refused by the store, although
settings, length and exporter are in order (`Broker.long_lease_refused`).

What the table has can be written again (`LeaseTable.fits_of_mem`), so a holder that is due does not
stand in the way of the one that comes after it.
-/

namespace LabLease

open LeaseStore

/-! ## What fits in a table -/

/-- A number that was read from a cell is not negative, and so has 63 bits. -/
theorem Cell.le_of_readNumber {c : Cell} {position : Nat} {column : String} {n : UInt64}
    (h : c.readNumber position column = .ok n) : n.toNat ≤ 0x7fffffffffffffff := by
  obtain ⟨i, -, hi⟩ := readNumber_eq_ok_iff.1 h
  have := i.toInt_lt
  omega

/-- Only a table that can be written to takes anything. -/
theorem LeaseStore.writable_of_save {s s' : TableStore} {l : Lease}
    (hs : save s l = (.ok (), s')) : s.readOnly = false := by
  obtain ⟨-, hs'⟩ | ⟨-, -, hs'⟩ | ⟨-, hw, -⟩ := save_table s l
  · rw [hs'] at hs
    cases hs
  · rw [hs'] at hs
    cases hs
  · exact hw

/-- Whatever a table is given, it keeps its path, and can be written to if it could before. -/
theorem LeaseStore.accepts_none_table (path : String) (readOnly : Bool) :
    Accepts (fun s : TableStore => s.path = path ∧ s.readOnly = readOnly) fun _ => False where
  takes _ hl := hl.elim
  stays {s} hs l := by
    obtain ⟨-, h⟩ | ⟨-, -, h⟩ | ⟨-, -, t, h⟩ := save_table s l <;> rw [h] <;> exact hs

namespace LeaseTable

variable {t : LeaseTable} {ls : List Lease} {l : Lease}

/-- What a row reads as fits in the table. -/
theorem fits_of_decode {r : Row} (h : r.decode = .ok l) : fits l = true := by
  obtain ⟨-, -, -, -, -, hc, hd, hx⟩ := Row.decode_eq_ok_iff.1 h
  exact fits_iff.2 ⟨Cell.le_of_readNumber hc, Cell.le_of_readNumber hd, Cell.le_of_readNumber hx⟩

/-- What was read from a table fits in it. -/
theorem fits_of_mem (h : t.leases = .ok ls) (hl : l ∈ ls) : fits l = true := by
  have reads : List.Forall₂ (fun r l => r.decode = .ok l) t.rows ls := leases_eq_ok_iff.1 h
  generalize t.rows = rows at reads
  clear h
  induction reads with
  | nil => cases hl
  | cons hr _ ih =>
    obtain rfl | hl := List.mem_cons.1 hl
    · exact fits_of_decode hr
    · exact ih hl

end LeaseTable

/-- A lease that is granted fits in a table exactly if its deadline, before it is cut off at the
last instant, is in the lower half of the 64-bit range. -/
theorem Booking.fits_lease_iff (b : Booking) (now : Instant) (id : String) :
    LeaseTable.fits (b.lease now id) = true ↔
      now.toNat + b.span.millis ≤ 0x7fffffffffffffff := by
  have created : (b.lease now id).createdAt = now := rfl
  have duration : (b.lease now id).durationMs = clamp64 b.span.millis := rfl
  have deadline : (b.lease now id).expiresAt = now.plusMillis (clamp64 b.span.millis) := rfl
  rw [LeaseTable.fits_iff, created, duration, deadline, Instant.toNat_plusMillis, toNat_clamp64,
    UInt64.size]
  omega

namespace Ledger

variable {L L' : Ledger TableStore} {b : Booking} {now : Instant} {id : String}
  {a : Except Failure Lease}

/-- A claim writes nothing but the new lease and a record that is there already, with another
status. -/
theorem mem_toWrite {σ : Type} {L : Ledger σ} {l : Lease} (hl : l ∈ L.toWrite b now id) :
    l = b.lease now id ∨ ∃ l₀ ∈ L.leases, l = { l₀ with status := .expired } := by
  obtain hl | hl := List.mem_append.1 hl
  · obtain ⟨l₀, hl₀, rfl⟩ := List.mem_map.1 hl
    exact .inr ⟨l₀, List.mem_of_find?_eq_some (Option.mem_toList.1 hl₀), rfl⟩
  · exact .inl (List.mem_singleton.1 hl)

/-- A claim on an exporter that is not blocked is granted exactly if the table can be written to and
the lease fits in it. -/
theorem ClaimOutcome.isOk_iff_table (ho : ClaimOutcome L b now id a L') (h : L.Consistent)
    (hb : b.span ∈ L.bounds) (hbl : ¬ L.Blocked now b.exporter)
    (hh : L.store.table.leases = .ok L.leases) :
    (∃ l, a = .ok l) ↔
      L.store.readOnly = false ∧ LeaseTable.fits (b.lease now id) = true := by
  constructor
  · rintro ⟨l, rfl⟩
    cases ho with
    | takeover _ _ _ _ hs hs' =>
      exact ⟨writable_of_save hs, LeaseTable.fits_of_save (save_table_of_ok hs')⟩
    | granted _ _ hs =>
      exact ⟨writable_of_save hs, LeaseTable.fits_of_save (save_table_of_ok hs)⟩
  · rintro ⟨hw, hfits⟩
    refine ⟨_, ho.ok_of_takes h hb hbl ((takes_table_iff hw).2 fun l hl => ?_)⟩
    obtain rfl | ⟨l₀, hl₀, rfl⟩ := mem_toWrite hl
    · exact hfits
    · have there : LeaseTable.fits l₀ = true := LeaseTable.fits_of_mem hh hl₀
      exact there

end Ledger

/-! ## Brokers over files -/

namespace Broker

variable {B : Broker TableStore} {l : Location} {label : String} {name : FileName}
  {f : DatabaseFiles} {s : Session} {o : Order} {sel : Selector} {listed : List Exporter}
  {now : Instant} {id r : String}

/-- The broker was made over the database in the files `f`, in which no log had been left, and has
since been asked for anything. The files are open in the session `s`. -/
def OpenedFrom (B : Broker TableStore) (l : Location) (label : String) (name : FileName)
    (f : DatabaseFiles) (s : Session) : Prop :=
  f.hasLog = false ∧ ∃ store B₀ as, l.openFiles label name f = (.ok store, s) ∧
    ofStore B.settings store = .ok B₀ ∧ Ledger.Run B₀.ledger as B.ledger

/-- The order is filled, and if the database is then closed and opened again, the lease that is read
from it is the one that was given out. -/
def Lasts (B : Broker TableStore) (l : Location) (label : String) (name : FileName) (s : Session)
    (o : Order) (listed : List Exporter) (now : Instant) (id : String) : Prop :=
  ∃ x, (B.allocate o listed now id).1 = .ok x ∧ ∃ store s' ls,
    l.openFiles label name (l.leave s (.ok (B.allocate o listed now id).2.ledger.store)) =
      (.ok store, s') ∧
    load store = .ok ls ∧ x ∈ ls

/-- A broker over files reads the records of its ledger from them, and if they can be written to,
they can be opened again. -/
structure Backed (B : Broker TableStore) (l : Location) (label : String) (name : FileName)
    (s : Session) : Prop where
  consistent : B.ledger.Consistent
  bounds : B.ledger.bounds = B.settings.bounds
  held : B.ledger.store.table.leases = .ok B.ledger.leases
  path : B.ledger.store.readOnly = false → B.ledger.store.path = label
  writable : B.ledger.store.readOnly = false → s.Writable l name

/-- This holds from the moment it is made on. -/
theorem OpenedFrom.backed (h : B.OpenedFrom l label name f s) : B.Backed l label name s := by
  obtain ⟨hlog, store, B₀, as, hopen, hB, hrun⟩ := h
  have made : B₀.ledger.Consistent := (Reachable.ofStore hB).consistent
  obtain ⟨hstore, hload⟩ := load_of_ofStore hB
  have writes := hrun.writes made
  have frame : B.ledger.store.path = store.path ∧ B.ledger.store.readOnly = store.readOnly :=
    writes.ok (accepts_none_table store.path store.readOnly) (hstore ▸ ⟨rfl, rfl⟩)
  have opened (hw : B.ledger.store.readOnly = false) : store.path = label ∧ s.Writable l name :=
    Location.writable_of_openStore hlog (Location.openFiles_eq_ok_iff.1 hopen) (frame.2 ▸ hw)
  exact {
    consistent := writes.consistent made
    bounds := by
      rw [(writes.frame steady_table).1, (Ledger.kept_of_ofStore (ledger_of_ofStore hB)).1]
    held := writes.held keeps_table made (hstore ▸ hload)
    path := fun hw => frame.1.trans (opened hw).1
    writable := fun hw => (opened hw).2 }

/-- What the broker has granted is read from its files when they are opened again. -/
theorem Backed.lasts (h : B.Backed l label name s) (hw : B.ledger.store.readOnly = false)
    (hnew : B.ledger.knows id = false) {x : Lease}
    (hx : (B.allocate o listed now id).1 = .ok x) : B.Lasts l label name s o listed now id := by
  have hout := allocate_outcome h.consistent o listed now id
  have writes := hout.writes hnew
  obtain ⟨hpath, hw'⟩ := writes.ok (accepts_table label) ⟨h.path hw, hw⟩
  obtain ⟨s', hopen, -⟩ := (h.writable hw).openFiles_leave hw' hpath
  refine ⟨x, hx, _, s', _, hopen, writes.held keeps_table h.consistent h.held, ?_⟩
  rw [hx] at hout
  exact (hout.mem_of_ok h.consistent).1

/-- An order that could be filled is filled by a lease that lasts, exactly if the files can be
written to and the deadline is in the lower half of the 64-bit range. Reference:
`BrokerConfig.validate` and `SqliteLeaseStore.save`, §14. -/
theorem OpenedFrom.lasts_iff (h : B.OpenedFrom l label name f s)
    (hsel : Selector.parse o.selector = .ok sel) (hspan : o.span ∈ B.settings.bounds)
    (hr : Eligible sel listed r) (hbl : ¬ B.ledger.Blocked now r)
    (hnew : B.ledger.knows id = false) :
    B.Lasts l label name s o listed now id ↔
      B.ledger.store.readOnly = false ∧ now.toNat + o.span.millis ≤ 0x7fffffffffffffff := by
  have backed := h.backed
  have allowed : o.span ∈ B.ledger.bounds := backed.bounds ▸ hspan
  have hout := allocate_outcome backed.consistent o listed now id
  obtain ⟨r, hc, hclaim⟩ := hout.claims_chosen hsel allowed hr hbl
  rw [← Order.booking_span o r, ← Booking.fits_lease_iff (o.booking r) now id,
    ← hclaim.isOk_iff_table backed.consistent allowed hc.not_blocked backed.held]
  constructor
  · rintro ⟨x, hx, -⟩
    exact ⟨x, hx⟩
  · rintro ⟨x, hx⟩
    have hw := ((hclaim.isOk_iff_table backed.consistent allowed hc.not_blocked backed.held).1
      ⟨x, hx⟩).1
    exact backed.lasts hw hnew hx

/-- An order for a board for as long as some settings allow at most. -/
def longestOrder (settings : Settings) : Order :=
  { selector := "type=board", span := .ofMinutes settings.maxMinutes }

/-- A broker over a database that has just been made. -/
def newBroker (settings : Settings) : Broker TableStore :=
  ⟨settings, .blank settings.bounds (TableStore.mk "leases.db" .empty false)⟩

/-- It was opened from no files at all. -/
theorem openedFrom_newBroker {settings : Settings} (h : settings.check = .ok ()) :
    (newBroker settings).OpenedFrom Service.plainPath "leases.db" Service.plainPath.path {}
      (Service.plainPath.openFiles "leases.db" Service.plainPath.path {}).2 := by
  have opened : Service.plainPath.openFiles "leases.db" Service.plainPath.path {} =
    (.ok (TableStore.mk "leases.db" .empty false),
      (Service.plainPath.openFiles "leases.db" Service.plainPath.path {}).2) := rfl
  refine ⟨rfl, _, newBroker settings, [], opened, ?_, .nil _⟩
  rw [ofStore, newBroker, h]
  rfl

/-- A lease of a day lasts. -/
theorem lasts_iff_day :
    ∃ s, (newBroker {}).OpenedFrom Service.plainPath "leases.db" Service.plainPath.path {} s ∧
      (newBroker {}).Lasts Service.plainPath "leases.db" Service.plainPath.path s
        (longestOrder {}) [board "e1" true] 60000 "a" := by
  have opened :
      (newBroker {}).OpenedFrom Service.plainPath "leases.db" Service.plainPath.path {} _ :=
    openedFrom_newBroker rfl
  have parsed : Selector.parse (longestOrder {}).selector =
    .ok ⟨"type=board", [⟨"type", "board"⟩]⟩ := rfl
  have eligible : Eligible ⟨"type=board", [⟨"type", "board"⟩]⟩ [board "e1" true] "e1" :=
    ⟨_, List.mem_singleton.2 rfl, rfl, rfl, rfl⟩
  have free : ¬ (newBroker {}).ledger.Blocked 60000 "e1" := by decide
  exact ⟨_, opened,
    (opened.lasts_iff parsed (by decide) eligible free (by decide)).2 ⟨rfl, by decide⟩⟩

/-- Settings with a longest lease that is far from too long for them. -/
def generousSettings : Settings := { maxMinutes := 153722867280913 }

/-- Such a lease is refused by the store, although nothing else is wrong with the order. -/
theorem long_lease_refused :
    ∃ s, generousSettings.check = .ok () ∧
      (newBroker generousSettings).OpenedFrom Service.plainPath "leases.db"
        Service.plainPath.path {} s ∧
      (longestOrder generousSettings).span ∈ generousSettings.bounds ∧
      (longestOrder generousSettings).span.millis < UInt64.size ∧
      ¬ (newBroker generousSettings).ledger.Blocked 0 "e1" ∧
      ((newBroker generousSettings).allocate (longestOrder generousSettings) [board "e1" true] 0
        "a").1 = .error (.store (.backend .numberTooLarge)) ∧
      ¬ (newBroker generousSettings).Lasts Service.plainPath "leases.db" Service.plainPath.path s
        (longestOrder generousSettings) [board "e1" true] 0 "a" := by
  have parsed : Selector.parse (longestOrder generousSettings).selector =
    .ok ⟨"type=board", [⟨"type", "board"⟩]⟩ := rfl
  have tried : candidates ⟨"type=board", [⟨"type", "board"⟩]⟩ [board "e1" true] =
      [board "e1" true] :=
    List.mergeSort_singleton _
  have allowed :
      (longestOrder generousSettings).span ∈ (newBroker generousSettings).ledger.bounds := by
    decide
  have refused : ((newBroker generousSettings).allocate (longestOrder generousSettings)
      [board "e1" true] 0 "a").1 = .error (.store (.backend .numberTooLarge)) := by
    rw [allocate, parsed]
    simp only [tried, SpanRange.check, if_pos allowed]
    rfl
  refine ⟨_, rfl, openedFrom_newBroker rfl, allowed, by decide, by decide, refused, ?_⟩
  rintro ⟨x, hx, -⟩
  rw [refused] at hx
  cases hx

end Broker

end LabLease
