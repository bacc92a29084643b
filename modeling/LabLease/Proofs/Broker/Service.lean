import LabLease.Proofs.Broker.Refinement
import LabLease.Registry

/-!
# A broker in service

A `Service` is a broker with its registry and the identifiers that new leases get, one after the
other. Requests come at instants (`Service.Event`) and are answered in turn (`Service.transcript`);
some change the registry, and a sweep counts as a request.

Its `Book` is what an outsider may know of it: everything but the look-up tables and the store. The
book tells the next answer and the next book, if the store takes what is written
(`Service.put_eq_book`). That the store did so is known where the answer is not its failure, except
for a sweep.
-/

namespace LabLease

open LeaseStore

/-- A change of the registry. -/
inductive Registry.Update
  | refresh (exporters : List Exporter)
  | upsert (e : Exporter)
  | remove (id : String)
  | setOnline (id : String) (online : Bool)

namespace Service

/-- What can be asked of a service. -/
inductive Call
  | allocate (o : Order)
  | release (id : String)
  | lease (id : String)
  | list (selector : Option String)
  | exporters (q : ExporterQuery)
  | summary
  | update (u : Registry.Update)
  | sweep

/-- A request, with the instant at which it is made. -/
structure Event where
  time : Instant
  call : Call

/-- An answer. -/
inductive Answer
  | lease (a : Except Failure Lease)
  | leases (a : Except Failure (List Lease))
  | exporters (a : Except Failure (List ExporterInfo))
  | summary (info : BrokerInfo)
  | removed (e : Option Exporter)
  | updated (a : Except Failure Unit)
  | swept (count : Nat)

/-- Why a request was refused, if it was. -/
def Answer.failure? : Answer → Option Failure
  | .lease (.error f) | .leases (.error f) | .exporters (.error f) | .updated (.error f) => some f
  | _ => none

/-- The store refused a write. -/
def Answer.StoreFailed (a : Answer) : Prop := ∃ fault, a.failure? = some (.store fault)

end Service

open Service

/-- Changes a registry. -/
def Registry.Update.apply (u : Registry.Update) (r : Registry) : Answer × Registry :=
  match u with
  | .refresh exporters => (.updated (.ok ()), r.refresh exporters)
  | .upsert e => (.updated (.ok ()), r.upsert e)
  | .remove id => (.removed (r.remove id).1, (r.remove id).2)
  | .setOnline id online =>
    match r.setOnline id online with
    | .error f => (.updated (.error f), r)
    | .ok r' => (.updated (.ok ()), r')

/-- A broker, the registry that it reads, and the identifiers that it gives to new leases. -/
structure Service (σ : Type) where
  broker : Broker σ
  registry : Registry
  /-- The identifiers of new leases. -/
  draw : Nat → String
  /-- How many of them have been given away. -/
  granted : Nat := 0

/-- What a service is to those who do not see its look-up tables and its store. -/
@[ext] structure Book where
  settings : Settings
  bounds : SpanRange
  /-- How the store describes itself. -/
  storage : String
  records : List Lease
  registry : Registry
  draw : Nat → String
  granted : Nat

namespace Service

variable {σ τ : Type}

/-- A lease is only asked for when the identifier that it would get is new. -/
def Admits (S : Service σ) (e : Event) : Prop :=
  ∀ o, e.call = .allocate o → S.broker.ledger.knows (S.draw S.granted) = false

/-- Identifiers are as new to another service that has the same. -/
theorem Admits.of_ids_eq {S : Service σ} {T : Service τ} {e : Event}
    (h : S.broker.ledger.Consistent) (h' : T.broker.ledger.Consistent)
    (hids : S.broker.ledger.leases.map (·.id) = T.broker.ledger.leases.map (·.id))
    (hdraw : S.draw S.granted = T.draw T.granted) (ha : S.Admits e) : T.Admits e := by
  intro o ho
  have hnew := h.knows_eq_false_iff.1 (ha o ho)
  rw [← hdraw, h'.knows_eq_false_iff]
  intro l hl hid
  obtain ⟨l', hl', hid'⟩ : ∃ l' ∈ S.broker.ledger.leases, l'.id = l.id := by
    rw [← List.mem_map, hids]
    exact List.mem_map_of_mem hl
  exact hnew l' hl' (hid'.trans hid)

variable [LeaseStore σ]

/-- The answer to a request, and the service afterwards. -/
def put (S : Service σ) (e : Event) : Answer × Service σ :=
  match e.call with
  | .allocate o =>
    let (a, B) := S.broker.allocate o S.registry.list e.time (S.draw S.granted)
    (.lease a, { S with broker := B, granted := S.granted + if a.isOk then 1 else 0 })
  | .release id =>
    let (a, B) := S.broker.release id e.time
    (.lease a, { S with broker := B })
  | .lease id => (.lease (S.broker.lease id e.time), S)
  | .list selector => (.leases (S.broker.list selector S.registry.list e.time), S)
  | .exporters q => (.exporters (S.broker.exporters q S.registry.list e.time), S)
  | .summary => (.summary (S.broker.summary S.registry.list e.time), S)
  | .update u => ((u.apply S.registry).1, { S with registry := (u.apply S.registry).2 })
  | .sweep =>
    let (count, B) := S.broker.sweep e.time
    (.swept count, { S with broker := B })

/-- The requests with their answers. -/
def transcript (S : Service σ) : List Event → List (Event × Answer)
  | [] => []
  | e :: es => (e, (S.put e).1) :: (S.put e).2.transcript es

/-- The service after some requests. -/
def after (S : Service σ) (es : List Event) : Service σ := es.foldl (fun S e => (S.put e).2) S

/-- Each request is admitted when its turn comes. -/
def AdmitsAll (S : Service σ) : List Event → Prop
  | [] => True
  | e :: es => S.Admits e ∧ (S.put e).2.AdmitsAll es

/-- The book of a service. -/
def book (S : Service σ) : Book where
  settings := S.broker.settings
  bounds := S.broker.ledger.bounds
  storage := describe S.broker.ledger.store
  records := S.broker.ledger.leases
  registry := S.registry
  draw := S.draw
  granted := S.granted

end Service

namespace Book

/-- The leases on exporters that satisfy a selector, as they are shown. -/
def list (K : Book) (selector : Option String) (now : Instant) : Except Failure (List Lease) :=
  match Selector.parseOptional selector with
  | .error f => .error f
  | .ok s => .ok (Records.seenAt now (Records.select s K.registry.list K.records))

/-- The listing of one exporter. -/
def info (K : Book) (q : ExporterQuery) (now : Instant) (e : Exporter) : ExporterInfo where
  id := e.id
  labels := e.labels
  online := if q.includeOnline then some e.online else none
  lease := if q.includeLeases then Records.holder? K.records e.id now else none

/-- The exporters that satisfy a query's selector. -/
def exporters (K : Book) (q : ExporterQuery) (now : Instant) : Except Failure (List ExporterInfo) :=
  match Selector.parseOptional q.selector with
  | .error f => .error f
  | .ok s =>
    .ok ((Exporter.sorted (K.registry.list.filter fun e => s.holds e.labels)).map (K.info q now))

/-- The settings in effect and a summary. -/
def summary (K : Book) (now : Instant) : BrokerInfo where
  settings := K.settings
  storage := K.storage
  exporters := K.registry.list.length
  liveLeases := K.records.countP (·.isLive now)

/-- The answer that the book tells, and the book afterwards. -/
def put (K : Book) (e : Event) : Answer × Book :=
  match e.call with
  | .allocate o =>
    let (a, ls) := Records.allocate K.bounds K.records o K.registry.list e.time (K.draw K.granted)
    (.lease a, { K with records := ls, granted := K.granted + if a.isOk then 1 else 0 })
  | .release id =>
    let (a, ls) := Records.release K.records id e.time
    (.lease a, { K with records := ls })
  | .lease id => (.lease (Records.lease K.records id e.time), K)
  | .list selector => (.leases (K.list selector e.time), K)
  | .exporters q => (.exporters (K.exporters q e.time), K)
  | .summary => (.summary (K.summary e.time), K)
  | .update u => ((u.apply K.registry).1, { K with registry := (u.apply K.registry).2 })
  | .sweep =>
    let (count, ls) := Records.sweep e.time K.records
    (.swept count, { K with records := ls })

end Book

/-! ## One write at a time -/

variable {σ : Type} [LeaseStore σ] {L L' : Ledger σ}

/-- A write changes neither the bounds nor how the store describes itself. -/
theorem Ledger.Write.frame (hd : Steady σ) (hw : Write L L') :
    L'.bounds = L.bounds ∧ describe L'.store = describe L.store := by
  have kept {l : Lease} {a : Except StoreFault Unit} {s : σ} (hs : save L.store l = (a, s)) :
      describe s = describe L.store := by
    rw [← hd L.store l, hs]
  cases hw with
  | refused hs | closed _ _ _ hs | entered _ _ _ hs => exact ⟨rfl, kept hs⟩

/-- Nor do several. -/
theorem Ledger.Writes.frame (hd : Steady σ) (hw : Writes L L') :
    L'.bounds = L.bounds ∧ describe L'.store = describe L.store := by
  induction hw with
  | refl => exact ⟨rfl, rfl⟩
  | tail _ hw ih => exact ⟨(hw.frame hd).1.trans ih.1, (hw.frame hd).2.trans ih.2⟩

/-- An allocation makes at most two writes. -/
theorem AllocateOutcome.writes {o : Order} {listed : List Exporter} {now : Instant} {id : String}
    {a : Except Failure Lease} (ho : AllocateOutcome L o listed now id a L')
    (hid : L.knows id = false) : Ledger.Writes L L' := by
  cases ho with
  | badSelector | outOfRange | noExporter | allLeased => exact .refl
  | claimed _ _ _ _ ho => exact ho.writes hid

/-- An allocation changes nothing of a broker but its ledger. -/
theorem Broker.allocate_settings (B : Broker σ) (o : Order) (listed : List Exporter) (now : Instant)
    (id : String) : (B.allocate o listed now id).2.settings = B.settings := by
  unfold allocate
  split
  · rfl
  · split
    · rfl
    · split <;> rfl

/-! ## Where the store does not fail -/

section
variable {ok : σ → Prop} {fit : Lease → Prop} (hacc : Accepts ok fit)
  (hstatus : ∀ (l : Lease) (status : Status), fit l → fit { l with status := status })
  (hok : ok L.store) (hfit : ∀ l ∈ L.leases, fit l)
include hacc hstatus hok hfit

/-- The store does not fail in an allocation, if it accepts the records and what is granted. -/
theorem AllocateOutcome.saved {o : Order} {listed : List Exporter} {now : Instant} {id : String}
    {a : Except Failure Lease} (ho : AllocateOutcome L o listed now id a L')
    (hnew : ∀ l, (Records.allocate L.bounds L.leases o listed now id).1 = .ok l → fit l)
    (fault : StoreFault) : a ≠ .error (.store fault) := by
  rintro rfl
  cases ho with
  | claimed hs hb hc _ hclaim =>
    have granted := hnew _ (congrArg Prod.fst (Ledger.allocate_of_chosen hs hb hc))
    cases hclaim with
    | @stuck _ l _ _ _ hl _ _ hs' =>
      exact hacc.not_fit hok hs' (hstatus l _ (hfit l (List.mem_of_getElem? hl)))
    | @cutShort _ l _ s _ _ _ _ _ hs' hs'' =>
      have hok' : ok s := by
        have := hacc.stays hok { l with status := .expired }
        rwa [hs'] at this
      exact hacc.not_fit hok' hs'' granted
    | refused _ _ hs' => exact hacc.not_fit hok hs' granted

/-- Nor in a release. -/
theorem Ledger.ReleaseOutcome.saved {now : Instant} {id : String} {a : Except Failure Lease}
    (ho : ReleaseOutcome L id now a L') (fault : StoreFault) : a ≠ .error (.store fault) := by
  rintro rfl
  cases ho with
  | @refused _ l _ _ hl _ _ hs =>
    exact hacc.not_fit hok hs (hstatus l _ (hfit l (List.mem_of_getElem? hl)))

end

namespace Service

variable {S : Service σ} {e : Event} {es : List Event}

/-- What a request does to the ledger, it does in writes. -/
theorem put_writes (h : S.broker.ledger.Consistent) (ha : S.Admits e) :
    Ledger.Writes S.broker.ledger (S.put e).2.broker.ledger := by
  obtain ⟨now, call⟩ := e
  cases call with
  | allocate o => exact (Broker.allocate_outcome h o _ now _).writes (ha o rfl)
  | release id => exact (Ledger.release_outcome h id now).writes
  | sweep => exact Ledger.expireAll_writes _ h
  | lease | list | exporters | summary | update => exact .refl

/-- The tables keep agreeing with the records. -/
theorem put_consistent (h : S.broker.ledger.Consistent) (ha : S.Admits e) :
    (S.put e).2.broker.ledger.Consistent :=
  (put_writes h ha).consistent h

/-- Requests one after the other do to the ledger what they do in writes. -/
theorem after_writes : ∀ {es : List Event} {S : Service σ}, S.broker.ledger.Consistent →
    S.AdmitsAll es → Ledger.Writes S.broker.ledger (S.after es).broker.ledger
  | [], _, _, _ => .refl
  | _ :: _, _, h, ⟨ha, hnew⟩ => (put_writes h ha).trans (after_writes (put_consistent h ha) hnew)

/-- An order of a board, of which there is one. -/
theorem put_board (hr : S.registry = .ofList [Broker.board "e1" true])
    (hb : Broker.boardOrder.span ∈ S.broker.ledger.bounds) (now : Instant) :
    let claimed := Broker.claimFirst S.broker.ledger Broker.boardOrder now (S.draw S.granted)
      [Broker.board "e1" true]
    S.put ⟨now, .allocate Broker.boardOrder⟩ =
      (.lease claimed.1, { S with
        broker := { S.broker with ledger := claimed.2 }
        granted := S.granted + if claimed.1.isOk then 1 else 0 }) := by
  have answer := Broker.allocate_board S.broker hb now (S.draw S.granted)
  have listed : S.registry.list = [Broker.board "e1" true] := by
    rw [hr]
    rfl
  simp only [put, listed, answer]

/-- The book tells the answer and the next book, if the store takes what is written. -/
theorem put_eq_book (hd : Steady σ) (h : S.broker.ledger.Consistent) (ha : S.Admits e)
    (hsaved : ¬ (S.put e).1.StoreFailed)
    (hsweep : e.call = .sweep → Takes S.broker.ledger.store
      ((S.broker.ledger.leases.filter (·.isDue e.time)).map ({ · with status := .expired }))) :
    ((S.put e).1, (S.put e).2.book) = S.book.put e := by
  obtain ⟨hbounds, hstorage⟩ := (put_writes h ha).frame hd
  obtain ⟨now, call⟩ := e
  cases call with
  | allocate o =>
    have told := (Broker.allocate_outcome h o S.registry.list now (S.draw S.granted)).eq_records h
      fun fault hf => hsaved ⟨fault, congrArg (fun a => (Answer.lease a).failure?) hf⟩
    rw [Book.put]
    dsimp only [book]
    rw [← told]
    exact Prod.ext rfl (Book.ext (Broker.allocate_settings ..) hbounds hstorage rfl rfl rfl rfl)
  | release id =>
    have told := (Ledger.release_outcome h id now).eq_records h
      fun fault hf => hsaved ⟨fault, congrArg (fun a => (Answer.lease a).failure?) hf⟩
    rw [Book.put]
    dsimp only [book]
    rw [← told]
    exact Prod.ext rfl (Book.ext rfl hbounds hstorage rfl rfl rfl rfl)
  | lease id =>
    have told : S.broker.lease id now = Records.lease S.broker.ledger.leases id now := by
      rw [Broker.lease, Records.lease, h.get_eq_records]
      cases S.broker.ledger.leases.find? (·.id == id) <;> rfl
    exact Prod.ext (congrArg Answer.lease told) rfl
  | list selector =>
    have told : S.broker.list selector S.registry.list now = S.book.list selector now := by
      rw [Broker.list, Book.list]
      simp only [Ledger.list_eq_records]
      rfl
    exact Prod.ext (congrArg Answer.leases told) rfl
  | exporters q =>
    have told : S.broker.exporters q S.registry.list now = S.book.exporters q now := by
      have info : S.broker.info q now = S.book.info q now := by
        funext x
        rw [Broker.info, Book.info, h.holder?_eq_records]
        rfl
      rw [Broker.exporters, Book.exporters, info]
      rfl
    exact Prod.ext (congrArg Answer.exporters told) rfl
  | summary => rfl
  | update u => rfl
  | sweep =>
    have told := h.sweep_eq_records now (hsweep rfl)
    rw [Book.put]
    dsimp only [book]
    rw [← told]
    exact Prod.ext rfl (Book.ext rfl hbounds hstorage rfl rfl rfl rfl)

/-- An answer about a lease is the failure of the store only if that is what it says. -/
theorem not_storeFailed_lease {a : Except Failure Lease}
    (h : ∀ fault, a ≠ .error (.store fault)) : ¬ (Answer.lease a).StoreFailed := by
  rintro ⟨fault, hf⟩
  cases a with
  | ok l => cases hf
  | error f => exact h fault (congrArg Except.error (Option.some.inj hf))

/-- A selector is refused for what it is. -/
theorem ne_store_of_parseOptional_error {selector : Option String} {f : Failure}
    (h : Selector.parseOptional selector = .error f) (fault : StoreFault) : f ≠ .store fault := by
  cases selector with
  | none => cases h
  | some text =>
    obtain ⟨flaw, rfl⟩ := Selector.eq_of_parse_error h
    exact nofun

/-- The store can fail only where a lease is granted or given back. -/
theorem not_storeFailed_of_read (ha : ∀ o, e.call ≠ .allocate o) (hr : ∀ id, e.call ≠ .release id) :
    ¬ (S.put e).1.StoreFailed := by
  rintro ⟨fault, hf⟩
  obtain ⟨now, call⟩ := e
  cases call with
  | allocate o => exact ha o rfl
  | release id => exact hr id rfl
  | lease id =>
    cases hx : S.broker.ledger.record? id <;>
      simp [put, Broker.lease, Ledger.get, hx, Answer.failure?] at hf
  | list selector =>
    cases hp : Selector.parseOptional selector with
    | error f =>
      simp only [put, Broker.list, hp, Answer.failure?, Option.some.injEq] at hf
      exact ne_store_of_parseOptional_error hp fault hf
    | ok s => simp [put, Broker.list, hp, Answer.failure?] at hf
  | exporters q =>
    cases hp : Selector.parseOptional q.selector with
    | error f =>
      simp only [put, Broker.exporters, hp, Answer.failure?, Option.some.injEq] at hf
      exact ne_store_of_parseOptional_error hp fault hf
    | ok s => simp [put, Broker.exporters, hp, Answer.failure?] at hf
  | update u =>
    cases u with
    | setOnline id online =>
      cases hx : S.registry.byId.find? id <;>
        simp [put, Registry.Update.apply, Registry.setOnline, hx, Answer.failure?] at hf
    | refresh | upsert | remove => cases hf
  | summary | sweep => cases hf

/-- If the store accepts the records as they are and as the book says they will be, it does not
fail, and the book tells the answer and the next book. -/
theorem put_eq_book_of_accepts {ok : σ → Prop} {fit : Lease → Prop} (hacc : Accepts ok fit)
    (hstatus : ∀ (l : Lease) (status : Status), fit l → fit { l with status := status })
    (hd : Steady σ) (h : S.broker.ledger.Consistent) (ha : S.Admits e)
    (hok : ok S.broker.ledger.store) (hfit : ∀ l ∈ S.book.records, fit l)
    (hnext : ∀ l ∈ (S.book.put e).2.records, fit l) :
    ¬ (S.put e).1.StoreFailed ∧ ((S.put e).1, (S.put e).2.book) = S.book.put e := by
  have hsweep : Takes S.broker.ledger.store
      ((S.broker.ledger.leases.filter (·.isDue e.time)).map ({ · with status := .expired })) := by
    refine hacc.takes_all hok fun l hl => ?_
    obtain ⟨l', hl', rfl⟩ := List.mem_map.1 hl
    exact hstatus l' _ (hfit l' (List.mem_filter.1 hl').1)
  suffices hsaved : ¬ (S.put e).1.StoreFailed from
    ⟨hsaved, put_eq_book hd h ha hsaved fun _ => hsweep⟩
  obtain ⟨now, call⟩ := e
  cases call with
  | allocate o =>
    exact not_storeFailed_lease <|
      (Broker.allocate_outcome h o S.registry.list now _).saved hacc hstatus hok hfit
        fun l hl => hnext l (Records.mem_allocate hl)
  | release id =>
    exact not_storeFailed_lease ((Ledger.release_outcome h id now).saved hacc hstatus hok hfit)
  | lease | list | exporters | summary | update | sweep => exact not_storeFailed_of_read nofun nofun

/-- Process memory never fails a service. -/
theorem not_storeFailed_memory : ∀ {es : List Event} {S : Service MemoryStore},
    S.broker.ledger.Consistent → S.AdmitsAll es → ∀ x ∈ S.transcript es, ¬ x.2.StoreFailed
  | [], _, _, _ => List.forall_mem_nil _
  | e :: es, S, h, ⟨ha, hnew⟩ => by
    have first := put_eq_book_of_accepts accepts_memory (fun _ _ _ => trivial) steady_memory h ha
      trivial (fun _ _ => trivial) fun _ _ => trivial
    exact List.forall_mem_cons.2 ⟨first.1, not_storeFailed_memory (put_consistent h ha) hnew⟩

end Service

end LabLease
