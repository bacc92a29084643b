import LabLease.Proofs.Broker.Service
import LabLease.Proofs.Ledger.History
import LabLease.Proofs.Ledger.Reload
import LabLease.Proofs.Store.Leaving
import LabLease.Proofs.Store.Table

/-!
# Opening a broker again

A broker over a database may be dropped between any two requests. Then the database is left in its
files, and opened again by the next who has a request (`Service.sessions`). This changes nothing,
since what is opened is the broker that was dropped (`Twins.reopened_eq`).

It gives the same answers as a broker in process memory that is never dropped, as long as the store
accepts what there is to write (`Twins.put`, for one request): their books agree in everything but
the description of the store (`Service.Twins`). For a table this means that the numbers of all
leases fit in its columns (`Service.sessions_eq_memory`).
-/

namespace LabLease

open LeaseStore Service

/-- What the book tells does not hang on how the store describes itself, but for the summary. -/
theorem Book.put_storage (K : Book) (storage : String) {e : Event} (hcall : e.call ≠ .summary) :
    ({ K with storage := storage } : Book).put e =
      ((K.put e).1, { (K.put e).2 with storage := storage }) := by
  obtain ⟨now, call⟩ := e
  cases call with
  | summary => exact absurd rfl hcall
  | allocate | release | lease | list | exporters | update | sweep => rfl

variable {σ : Type}

/-- If all records fit in the end, they did before, since only their status may have changed. -/
theorem Ledger.Grows.fit {L L' : Ledger σ} {fit : Lease → Prop}
    (hstatus : ∀ (l : Lease) (status : Status), fit { l with status := status } ↔ fit l)
    (hg : L.Grows L') (hfit : ∀ l ∈ L'.leases, fit l) : ∀ l ∈ L.leases, fit l := by
  intro l hl
  obtain ⟨pos, hpos⟩ := List.mem_iff_getElem?.1 hl
  obtain ⟨l', hl', rfl | ⟨-, status, -, rfl⟩⟩ := hg hpos
  · exact hfit l' (List.mem_of_getElem? hl')
  · exact (hstatus l status).1 (hfit _ (List.mem_of_getElem? hl'))

variable [LeaseStore σ]

/-- The store stays such that it accepts records. -/
theorem Ledger.Writes.ok {L L' : Ledger σ} {ok : σ → Prop} {fit : Lease → Prop}
    (hacc : Accepts ok fit) (hok : ok L.store) (hw : Writes L L') : ok L'.store := by
  induction hw with
  | refl => exact hok
  | @tail L' L'' _ hw ih =>
    have kept {l : Lease} {a : Except StoreFault Unit} {s : σ} (hs : save L'.store l = (a, s)) :
        ok s := by
      have := hacc.stays ih l
      rwa [hs] at this
    cases hw with
    | refused hs | closed _ _ _ hs | entered _ _ _ hs => exact kept hs

/-- A broker whose store holds its records is opened again as it was. -/
theorem Broker.ofStore_eq {B : Broker σ} {holds : σ → List Lease → Prop} (hk : Keeps holds)
    (h : B.ledger.Consistent) (hh : holds B.ledger.store B.ledger.leases)
    (hcheck : B.settings.check = .ok ()) (hbounds : B.ledger.bounds = B.settings.bounds) :
    ofStore B.settings B.ledger.store = .ok B := by
  rw [ofStore, hcheck, ← hbounds, h.ofStore_eq hk hh]

namespace Service

/-- The service with its broker opened again, from the files of its database. -/
def reopened (l : Location) (label : String) (name : FileName) (S : Service TableStore)
    (f : DatabaseFiles) : Except Failure (Service TableStore × Session) :=
  match l.openFiles label name f with
  | (.error fault, _) => .error (.store (.backend fault))
  | (.ok store, s) =>
    match Broker.ofStore S.broker.settings store with
    | .error f => .error f
    | .ok B => .ok ({ S with broker := B }, s)

/-- The requests with their answers, if they come in groups. After each group the broker is dropped,
and it is opened again from the files that were left. -/
def sessions (l : Location) (label : String) (name : FileName) (S : Service TableStore)
    (s : Session) : List (List Event) → Except Failure (List (Event × Answer))
  | [] => .ok []
  | es :: later =>
    match (S.after es).reopened l label name (l.leave s (.ok (S.after es).broker.ledger.store)) with
    | .error f => .error f
    | .ok (S', s') =>
      match S'.sessions l label name s' later with
      | .error f => .error f
      | .ok rest => .ok (S.transcript es ++ rest)

/-! ## Requests one after the other -/

variable {S : Service σ} {e : Event} {es es' : List Event}

theorem after_append (S : Service σ) (es es' : List Event) :
    S.after (es ++ es') = (S.after es).after es' :=
  List.foldl_append

theorem transcript_append (S : Service σ) (es es' : List Event) :
    S.transcript (es ++ es') = S.transcript es ++ (S.after es).transcript es' := by
  induction es generalizing S with
  | nil => rfl
  | cons e es ih => exact congrArg _ (ih (S.put e).2)

theorem admitsAll_append :
    S.AdmitsAll (es ++ es') ↔ S.AdmitsAll es ∧ (S.after es).AdmitsAll es' := by
  induction es generalizing S with
  | nil => exact (and_iff_right trivial).symm
  | cons e es ih => exact (and_congr_right fun _ => ih).trans and_assoc.symm

/-- A request changes nothing of a broker but its ledger. -/
theorem put_settings (S : Service σ) (e : Event) :
    (S.put e).2.broker.settings = S.broker.settings := by
  obtain ⟨now, call⟩ := e
  cases call with
  | allocate => exact Broker.allocate_settings ..
  | release | lease | list | exporters | summary | update | sweep => rfl

/-! ## Two services with one book -/

/-- A service over a store that holds its records, and one in process memory, whose books agree but
for the description of the store. -/
structure Twins (holds : σ → List Lease → Prop) (ok : σ → Prop) (S : Service σ)
    (M : Service MemoryStore) : Prop where
  consistent : S.broker.ledger.Consistent
  consistent_memory : M.broker.ledger.Consistent
  book : S.book = { M.book with storage := S.book.storage }
  holds : holds S.broker.ledger.store S.broker.ledger.leases
  ok : ok S.broker.ledger.store
  check : S.broker.settings.check = .ok ()
  bounds : S.broker.ledger.bounds = S.broker.settings.bounds

variable {M : Service MemoryStore} {holds : σ → List Lease → Prop} {ok : σ → Prop}
  {fit : Lease → Prop}

section
variable (hk : Keeps holds) (hacc : Accepts ok fit) (hd : Steady σ)
  (hstatus : ∀ (l : Lease) (status : Status), fit { l with status := status } ↔ fit l)
include hk hacc hd hstatus

/-- Both give the same answer, if the store accepts what there is to write. -/
theorem Twins.put (h : Twins holds ok S M) (hcall : e.call ≠ .summary) (ha : M.Admits e)
    (hfit : ∀ l ∈ (M.put e).2.broker.ledger.leases, fit l) :
    (S.put e).1 = (M.put e).1 ∧ Twins holds ok (S.put e).2 (M.put e).2 := by
  have records : S.broker.ledger.leases = M.broker.ledger.leases := congrArg Book.records h.book
  have ha' : S.Admits e := by
    refine ha.of_ids_eq h.consistent_memory h.consistent (congrArg _ records.symm) ?_
    exact (congrArg (fun K => K.draw K.granted) h.book).symm
  have writes := put_writes h.consistent ha'
  have fit_before : ∀ l ∈ S.broker.ledger.leases, fit l := by
    rw [records]
    exact (put_writes h.consistent_memory ha).grows.fit hstatus hfit
  -- Memory accepts everything, so its book tells what happens; the other book is the same, and its
  -- store accepts what that book says there is to write.
  have memory := (put_eq_book_of_accepts accepts_memory (fun _ _ _ => trivial) steady_memory
    h.consistent_memory ha trivial (fun _ _ => trivial) fun _ _ => trivial).2
  have told :
      S.book.put e = ((M.put e).1, { (M.put e).2.book with storage := S.book.storage }) := by
    rw [h.book, Book.put_storage _ _ hcall, ← memory]
  have fit_after : ∀ l ∈ (S.book.put e).2.records, fit l := by
    rw [told]
    exact hfit
  have both := (put_eq_book_of_accepts hacc (fun l status => (hstatus l status).2) hd h.consistent
    ha' h.ok fit_before fit_after).2
  rw [told] at both
  obtain ⟨answer, book⟩ := Prod.mk.inj both
  refine ⟨answer, ?_⟩
  exact {
    consistent := writes.consistent h.consistent
    consistent_memory := put_consistent h.consistent_memory ha
    book := by
      rw [book]
    holds := writes.held hk h.consistent h.holds
    ok := writes.ok hacc h.ok
    check := by rw [put_settings, h.check]
    bounds := by rw [(writes.frame hd).1, put_settings, h.bounds] }

/-- Both give the same answers for as long as nobody opens the broker again. -/
theorem Twins.transcript_eq : ∀ {es : List Event} {S : Service σ} {M : Service MemoryStore},
    Twins holds ok S M → (∀ e ∈ es, e.call ≠ .summary) → M.AdmitsAll es →
    (∀ l ∈ (M.after es).broker.ledger.leases, fit l) →
    S.transcript es = M.transcript es ∧ Twins holds ok (S.after es) (M.after es)
  | [], _, _, h, _, _, _ => ⟨rfl, h⟩
  | e :: es, S, M, h, hcalls, ⟨ha, hnew⟩, hfit => by
    obtain ⟨hcall, hcalls⟩ := List.forall_mem_cons.1 hcalls
    have later := after_writes (put_consistent h.consistent_memory ha) hnew
    obtain ⟨answer, h'⟩ := h.put hk hacc hd hstatus hcall ha (later.grows.fit hstatus hfit)
    obtain ⟨rest, h''⟩ := Twins.transcript_eq h' hcalls hnew hfit
    refine ⟨?_, h''⟩
    rw [transcript, transcript, answer, rest]

end

/-! ## Databases in files -/

/-- A service over a database in files that are open, and its twin in process memory. -/
abbrev Filed (label : String) (S : Service TableStore) (M : Service MemoryStore) : Prop :=
  Twins (fun (s : TableStore) ls => s.table.leases = .ok ls)
    (fun s => s.path = label ∧ s.readOnly = false) S M

variable {l : Location} {label : String} {name : FileName} {T : Service TableStore} {s : Session}

/-- The broker that is opened is the one that was dropped. -/
theorem Twins.reopened_eq (h : Filed label T M) (hs : s.Writable l name) :
    ∃ s', T.reopened l label name (l.leave s (.ok T.broker.ledger.store)) = .ok (T, s') ∧
      s'.Writable l name := by
  obtain ⟨s', hopen, hs'⟩ := hs.openFiles_leave h.ok.2 h.ok.1
  refine ⟨s', ?_, hs'⟩
  rw [reopened, hopen]
  dsimp only
  rw [Broker.ofStore_eq keeps_table h.consistent h.holds h.check h.bounds]

/-- Both give the same answers, wherever the broker is opened again. -/
theorem Twins.sessions_eq : ∀ {groups : List (List Event)} {T : Service TableStore}
    {M : Service MemoryStore} {s : Session}, Filed label T M → s.Writable l name →
    (∀ es ∈ groups, ∀ e ∈ es, e.call ≠ .summary) → M.AdmitsAll groups.flatten →
    (∀ x ∈ (M.after groups.flatten).broker.ledger.leases, LeaseTable.fits x = true) →
    T.sessions l label name s groups = .ok (M.transcript groups.flatten)
  | [], _, _, _, _, _, _, _, _ => rfl
  | es :: groups, T, M, s, h, hs, hcalls, hnew, hfit => by
    obtain ⟨first, hcalls⟩ := List.forall_mem_cons.1 hcalls
    rw [List.flatten_cons] at hnew hfit ⊢
    obtain ⟨hnew, hnew'⟩ := admitsAll_append.1 hnew
    rw [after_append] at hfit
    have consistent := (after_writes h.consistent_memory hnew).consistent h.consistent_memory
    have later := after_writes consistent hnew'
    obtain ⟨answers, h'⟩ := h.transcript_eq keeps_table (accepts_table label) steady_table
      (fun _ _ => .rfl) first hnew (later.grows.fit (fun _ _ => .rfl) hfit)
    obtain ⟨s', hreopened, hs'⟩ := h'.reopened_eq hs
    rw [sessions, hreopened]
    simp only [Twins.sessions_eq h' hs' hcalls hnew' hfit, answers, transcript_append]

/-- A broker over a database in files that is dropped and opened again at any points between
requests gives the same answers as one in process memory that lives on, to all requests but those
for a summary, which tells the kind of store. The numbers of the leases have to fit in the columns
of the table. Reference: `LeaseBroker.with_sqlite`, §14. -/
theorem sessions_eq_memory {f : DatabaseFiles} {store : TableStore} {settings : Settings}
    {B : Broker TableStore} {M : Broker MemoryStore} {registry : Registry} {draw : Nat → String}
    {groups : List (List Event)} (hopen : l.openFiles label name f = (.ok store, s))
    (hlog : f.hasLog = false) (hnone : store.table = .empty) (hw : store.readOnly = false)
    (hB : Broker.ofStore settings store = .ok B) (hM : Broker.inMemory settings = .ok M)
    (hcalls : ∀ es ∈ groups, ∀ e ∈ es, e.call ≠ .summary)
    (hnew : (⟨M, registry, draw, 0⟩ : Service MemoryStore).AdmitsAll groups.flatten)
    (hfit : ∀ x ∈
      ((⟨M, registry, draw, 0⟩ : Service MemoryStore).after groups.flatten).broker.ledger.leases,
      x.createdAt.toNat ≤ 0x7fffffffffffffff ∧ x.durationMs.toNat ≤ 0x7fffffffffffffff ∧
        x.expiresAt.toNat ≤ 0x7fffffffffffffff) :
    (⟨B, registry, draw, 0⟩ : Service TableStore).sessions l label name s groups =
      .ok ((⟨M, registry, draw, 0⟩ : Service MemoryStore).transcript groups.flatten) := by
  obtain ⟨path, table, readOnly⟩ := store
  cases hnone
  cases hw
  obtain ⟨hpath, writable⟩ :=
    Location.writable_of_openStore hlog (Location.openFiles_eq_ok_iff.1 hopen) rfl
  cases hcheck : settings.check with
  | error f =>
    rw [Broker.inMemory, Broker.ofLedger, hcheck] at hM
    cases hM
  | ok =>
    rw [Broker.inMemory, Broker.ofLedger, hcheck] at hM
    rw [Broker.ofStore, hcheck] at hB
    cases hM
    cases hB
    refine Twins.sessions_eq ?_ writable hcalls hnew fun x hx => LeaseTable.fits_iff.2 (hfit x hx)
    exact {
      consistent := Ledger.consistent_blank
      consistent_memory := Ledger.consistent_blank
      book := rfl
      holds := rfl
      ok := ⟨hpath, rfl⟩
      check := hcheck
      bounds := rfl }

/-- A lease is granted on one day of work, listed and swept on the next, and given back too late on
a third. -/
def threeDays : List (List Event) :=
  [[⟨0, .allocate Broker.boardOrder⟩], [⟨60000, .list none⟩, ⟨60000, .sweep⟩],
    [⟨60000, .release "a"⟩]]

/-- A service under the default settings with one board, over a store without records. -/
def newService (store : σ) : Service σ where
  broker := ⟨{}, .blank ({} : Settings).bounds store⟩
  registry := .ofList [Broker.board "e1" true]
  draw := fun _ => "a"

/-- A path like any other. -/
def plainPath : Location := { path := Text.bytes "leases.db".toList }

/-- The three days over a database that is made on the first of them give the same answers as one in
process memory. -/
theorem sessions_eq_memory_three_days :
    ∃ s, plainPath.openFiles "leases.db" plainPath.path {} =
      (.ok (newService (TableStore.mk "leases.db" .empty false)).broker.ledger.store, s) ∧
    (newService (TableStore.mk "leases.db" .empty false)).sessions plainPath "leases.db"
      plainPath.path s threeDays =
        .ok ((newService MemoryStore.empty).transcript threeDays.flatten) := by
  have opened : plainPath.openFiles "leases.db" plainPath.path {} =
    (.ok (TableStore.mk "leases.db" .empty false),
      (plainPath.openFiles "leases.db" plainPath.path {}).2) := rfl
  have assembled : Broker.ofStore {} (TableStore.mk "leases.db" .empty false) =
    .ok (newService (TableStore.mk "leases.db" .empty false)).broker := rfl
  have made : Broker.inMemory {} = .ok (newService MemoryStore.empty).broker := rfl
  have calls : ∀ es ∈ threeDays, ∀ e ∈ es, e.call ≠ .summary := by simp [threeDays]
  have new : (newService MemoryStore.empty).AdmitsAll threeDays.flatten :=
    ⟨fun _ _ => rfl, nofun, nofun, nofun, trivial⟩
  refine ⟨_, opened, sessions_eq_memory opened rfl rfl rfl assembled made calls new ?_⟩
  change ∀ l ∈ (((newService MemoryStore.empty).put ⟨0, .allocate Broker.boardOrder⟩).2.after
    [⟨60000, .list none⟩, ⟨60000, .sweep⟩, ⟨60000, .release "a"⟩]).broker.ledger.leases, _
  rw [put_board rfl (by decide)]
  decide

end Service

end LabLease
