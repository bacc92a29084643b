import LabLease.Proofs.Broker.Service

/-!
# Sweeps and refusals leave no trace

From the requests of a service all sweeps are left out, and any requests that were refused
(`Service.Thinned`). The others get the answers that they got before
(`Service.thinned_transcript`).

Two services that differ only in which expiries they have recorded have the same book as it is shown
(`Book.seenAt`). Since all answers but those to sweeps go by what is shown (`Book.put_seenAt`), and
what was the same stays the same as time goes by, such services give the same answers from then on.
What is left out makes no more than such a difference: a sweep, a claim that was cut short and a
release that came too late only record an expiry that has come
(`Service.seenAt_put_of_leftOut`).
-/

namespace LabLease

open LeaseStore Service

/-! ## Only what is shown counts -/

namespace Book

variable {K K' : Book} {e : Event} {now later : Instant}

/-- The book as it is shown. -/
def seenAt (now : Instant) (K : Book) : Book := { K with records := Records.seenAt now K.records }

theorem seenAt_seenAt (hle : now ≤ later) (K : Book) :
    (K.seenAt now).seenAt later = K.seenAt later :=
  congrArg (fun ls => { K with records := ls }) (Records.seenAt_seenAt hle K.records)

/-- What is shown the same is later shown the same. -/
theorem seenAt_eq_of_le (hle : now ≤ later) (h : K.seenAt now = K'.seenAt now) :
    K.seenAt later = K'.seenAt later := by
  rw [← seenAt_seenAt hle K, h, seenAt_seenAt hle]

/-- All answers but those to sweeps go by what is shown, and so does what is shown afterwards. -/
theorem put_seenAt (K : Book) (hcall : e.call ≠ .sweep) :
    ((K.seenAt e.time).put e).1 = (K.put e).1 ∧
      ((K.seenAt e.time).put e).2.seenAt e.time = (K.put e).2.seenAt e.time := by
  obtain ⟨now, call⟩ := e
  have idem := seenAt_seenAt (UInt64.le_refl now) K
  cases call with
  | allocate o =>
    obtain ⟨ha, hls⟩ :=
      Records.allocate_seenAt K.bounds K.records o K.registry.list now (K.draw K.granted)
    refine ⟨congrArg Answer.lease ha, Book.ext rfl rfl rfl hls rfl rfl ?_⟩
    exact congrArg (fun a : Except Failure Lease => K.granted + if a.isOk then 1 else 0) ha
  | release id =>
    obtain ⟨ha, hls⟩ := Records.release_seenAt K.records id now
    exact ⟨congrArg Answer.lease ha, Book.ext rfl rfl rfl hls rfl rfl rfl⟩
  | lease id => exact ⟨congrArg Answer.lease (Records.lease_seenAt K.records id now), idem⟩
  | list selector =>
    refine ⟨congrArg Answer.leases ?_, idem⟩
    rw [list, list]
    split
    · rfl
    · exact congrArg Except.ok (Records.select_seenAt _ _ _ now)
  | exporters q =>
    refine ⟨congrArg Answer.exporters ?_, idem⟩
    have same : (K.seenAt now).info q now = K.info q now := by
      funext x
      rw [info, info, seenAt, Records.holder?_seenAt]
    rw [exporters, exporters, same]
    rfl
  | summary =>
    refine ⟨congrArg Answer.summary ?_, idem⟩
    rw [summary, summary, seenAt, Records.countP_isLive_seenAt]
  | update u => exact ⟨rfl, congrArg ({ · with registry := (u.apply K.registry).2 }) idem⟩
  | sweep => exact absurd rfl hcall

/-- Books that are shown the same give the same answers, and are shown the same afterwards. -/
theorem put_congr (hcall : e.call ≠ .sweep) (h : K.seenAt e.time = K'.seenAt e.time) :
    (K.put e).1 = (K'.put e).1 ∧ (K.put e).2.seenAt e.time = (K'.put e).2.seenAt e.time := by
  obtain ⟨ha, hK⟩ := K.put_seenAt hcall
  obtain ⟨ha', hK'⟩ := K'.put_seenAt hcall
  rw [← ha, ← hK, ← ha', ← hK', h]
  exact ⟨rfl, rfl⟩

end Book

/-! ## What does not show -/

variable {σ τ : Type} {L L' : Ledger σ} {now : Instant} {f : Failure}

/-- Recording a due lease as expired does not show. -/
theorem Records.seenAt_set_expired {ls : List Lease} {pos : Nat} {l : Lease}
    (hl : ls[pos]? = some l) (hd : l.isDue now = true) :
    seenAt now (ls.set pos { l with status := .expired }) = seenAt now ls := by
  obtain ⟨hlt, rfl⟩ := List.getElem?_eq_some_iff.1 hl
  have hlt' : pos < (ls.map (·.observedAt now)).length := by simpa using hlt
  have hpos : (ls.map (·.observedAt now))[pos] = ls[pos].observedAt now := List.getElem_map ..
  rw [seenAt, seenAt, List.map_set, Lease.observedAt_expired (UInt64.le_refl now) hd, ← hpos,
    List.set_getElem_self]

variable [LeaseStore σ] [LeaseStore τ]

/-- An allocation that fails at most records an expiry. -/
theorem AllocateOutcome.seenAt_of_error {o : Order} {listed : List Exporter} {id : String}
    (ho : AllocateOutcome L o listed now id (.error f) L') :
    Records.seenAt now L'.leases = Records.seenAt now L.leases := by
  cases ho with
  | badSelector | outOfRange | noExporter | allLeased => rfl
  | claimed _ _ _ _ hclaim =>
    cases hclaim with
    | outOfRange | held | stuck | refused => rfl
    | cutShort _ hl _ hd => exact Records.seenAt_set_expired hl hd

/-- A release that fails at most records an expiry. -/
theorem Ledger.ReleaseOutcome.seenAt_of_error {id : String}
    (ho : ReleaseOutcome L id now (.error f) L') :
    Records.seenAt now L'.leases = Records.seenAt now L.leases := by
  cases ho with
  | unknown | ended | refused => rfl
  | late hl _ hd => exact Records.seenAt_set_expired hl hd

/-- Recording leases as expired does not show if those of them that are open are due, whichever
writes fail. -/
theorem Ledger.Consistent.seenAt_expireAll : ∀ (ids : List String) {L : Ledger σ}, L.Consistent →
    (∀ l ∈ L.leases, l.id ∈ ids → l.status.isOver = false → l.isDue now = true) →
    Records.seenAt now (L.expireAll ids).2.leases = Records.seenAt now L.leases
  | [], _, _, _ => rfl
  | id :: ids, L, h, hdue => by
    have ho := expire_outcome h id
    have h' := ho.writes.consistent h
    rw [expireAll_cons_snd]
    generalize (L.expire id).1 = a, (L.expire id).2 = L' at ho h'
    -- What the first attempt leaves open was open and due before it, so the others can go on.
    have rest (hdue' : ∀ l ∈ L'.leases, l ∈ L.leases ∨ l.status.isOver = true)
        (hseen : Records.seenAt now L'.leases = Records.seenAt now L.leases) :
        Records.seenAt now (L'.expireAll ids).2.leases = Records.seenAt now L.leases := by
      refine (h'.seenAt_expireAll ids fun l hl hid hopen => ?_).trans hseen
      obtain hl' | hover := hdue' l hl
      · exact hdue l hl' (List.mem_cons_of_mem _ hid) hopen
      · rw [hopen] at hover
        cases hover
    cases ho with
    | unknown | ended | refused => exact rest (fun _ => .inl) rfl
    | expired hl hid hopen =>
      have hmem := List.mem_of_getElem? hl
      have hd := hdue _ hmem (hid ▸ List.mem_cons_self) hopen
      refine rest (fun l' hl' => ?_) (Records.seenAt_set_expired hl hd)
      obtain hl' | rfl := List.mem_or_eq_of_mem_set hl'
      · exact .inl hl'
      · exact .inr rfl

/-- A sweep does not show, whichever writes fail. -/
theorem Ledger.Consistent.seenAt_sweep (h : L.Consistent) (now : Instant) :
    Records.seenAt now (L.sweep now).2.leases = Records.seenAt now L.leases := by
  refine h.seenAt_expireAll (L.due now) fun l hl hid _ => ?_
  obtain ⟨l', hl', hid'⟩ := List.mem_map.1 hid
  obtain ⟨hmem, hd⟩ := List.mem_filter.1 hl'
  obtain rfl := h.eq_of_id hmem hl hid'
  exact hd

/-- A change of the registry that is refused changes nothing. -/
theorem Registry.Update.eq_of_refused (u : Registry.Update) {r : Registry}
    (h : (u.apply r).1.failure? ≠ none) : (u.apply r).2 = r := by
  cases u with
  | refresh | upsert | remove => exact absurd rfl h
  | setOnline id online =>
    rw [Registry.Update.apply] at h ⊢
    cases hx : r.setOnline id online with
    | error f => rfl
    | ok r' =>
      rw [hx] at h
      exact absurd rfl h

namespace Service

variable {S : Service σ} {T : Service τ} {e : Event} {es : List Event}

theorem error_of_refused {a : Except Failure Lease} (h : (Answer.lease a).failure? ≠ none) :
    ∃ f, a = .error f := by
  cases a with
  | ok l => exact absurd rfl h
  | error f => exact ⟨f, rfl⟩

/-- Sweeps and refused requests do not show. -/
theorem seenAt_put_of_leftOut (hd : Steady σ) (h : S.broker.ledger.Consistent) (ha : S.Admits e)
    (hout : e.call = .sweep ∨ (S.put e).1.failure? ≠ none) :
    (S.put e).2.book.seenAt e.time = S.book.seenAt e.time := by
  obtain ⟨hbounds, hstorage⟩ := (put_writes h ha).frame hd
  obtain ⟨now, call⟩ := e
  cases call with
  | allocate o =>
    have ho := Broker.allocate_outcome h o S.registry.list now (S.draw S.granted)
    obtain ⟨f, hf⟩ :
        ∃ f, (S.broker.allocate o S.registry.list now (S.draw S.granted)).1 = .error f :=
      error_of_refused (hout.resolve_left nofun)
    rw [hf] at ho
    refine Book.ext (Broker.allocate_settings ..) hbounds hstorage ho.seenAt_of_error rfl rfl ?_
    exact congrArg (fun a : Except Failure Lease => S.granted + if a.isOk then 1 else 0) hf
  | release id =>
    have ho := Ledger.release_outcome h id now
    obtain ⟨f, hf⟩ : ∃ f, (S.broker.ledger.release id now).1 = .error f :=
      error_of_refused (hout.resolve_left nofun)
    rw [hf] at ho
    exact Book.ext rfl hbounds hstorage ho.seenAt_of_error rfl rfl rfl
  | sweep => exact Book.ext rfl hbounds hstorage (h.seenAt_sweep now) rfl rfl rfl
  | update u =>
    exact congrArg (fun r => ({ S with registry := r } : Service σ).book.seenAt now)
      (u.eq_of_refused (hout.resolve_left nofun))
  | lease | list | exporters | summary => rfl

/-- What is left when sweeps are left out, and any of the requests that were refused. -/
inductive Thinned : List (Event × Answer) → List (Event × Answer) → Prop
  | nil : Thinned [] []
  | sweep {e : Event} {a : Answer} {xs kept : List (Event × Answer)} (he : e.call = .sweep)
      (h : Thinned xs kept) : Thinned ((e, a) :: xs) kept
  | refused {e : Event} {a : Answer} {xs kept : List (Event × Answer)} (ha : a.failure? ≠ none)
      (h : Thinned xs kept) : Thinned ((e, a) :: xs) kept
  | keep {e : Event} {a : Answer} {xs kept : List (Event × Answer)} (he : e.call ≠ .sweep)
      (h : Thinned xs kept) : Thinned ((e, a) :: xs) ((e, a) :: kept)

/-- Identifiers are as new to a service that is shown the same. -/
theorem Admits.of_seenAt_eq (h : S.broker.ledger.Consistent) (h' : T.broker.ledger.Consistent)
    (hseen : S.book.seenAt now = T.book.seenAt now) (ha : S.Admits e) : T.Admits e := by
  refine ha.of_ids_eq h h' ?_ (congrArg (fun K => K.draw K.granted) hseen)
  rw [← Records.map_id_seenAt now, ← Records.map_id_seenAt now T.broker.ledger.leases]
  exact congrArg (fun K => K.records.map (·.id)) hseen

/-- Services that are shown the same give the same answers where no sweeps are asked for and the
store does not fail. -/
theorem put_of_seenAt_eq (hσ : Steady σ) (hτ : Steady τ) (h : S.broker.ledger.Consistent)
    (h' : T.broker.ledger.Consistent) (ha : S.Admits e)
    (hseen : S.book.seenAt e.time = T.book.seenAt e.time) (hcall : e.call ≠ .sweep)
    (hsaved : ¬ (S.put e).1.StoreFailed) (hsaved' : ¬ (T.put e).1.StoreFailed) :
    (T.put e).1 = (S.put e).1 ∧
      (S.put e).2.book.seenAt e.time = (T.put e).2.book.seenAt e.time := by
  have ha' : T.Admits e := ha.of_seenAt_eq h h' hseen
  have hS := put_eq_book hσ h ha hsaved fun he => absurd he hcall
  have hT := put_eq_book hτ h' ha' hsaved' fun he => absurd he hcall
  obtain ⟨hanswer, hnext⟩ := Book.put_congr hcall hseen
  rw [← hS, ← hT] at hanswer hnext
  exact ⟨hanswer.symm, hnext⟩

/-! ## Thinned runs -/

/-- The service over another store. -/
def withStore (S : Service σ) (t : τ) : Service τ where
  broker := ⟨S.broker.settings, { S.broker.ledger with store := t }⟩
  registry := S.registry
  draw := S.draw
  granted := S.granted

/-- A service that is shown the same whenever a request comes gives the answers that are left, to
the requests that are left. -/
theorem transcript_of_thinned (hσ : Steady σ) (hτ : Steady τ) :
    ∀ {es : List Event} {S : Service σ} {T : Service τ} {kept : List (Event × Answer)},
      S.broker.ledger.Consistent → T.broker.ledger.Consistent →
      (∀ e ∈ es, S.book.seenAt e.time = T.book.seenAt e.time) →
      es.Pairwise (·.time ≤ ·.time) → S.AdmitsAll es → Thinned (S.transcript es) kept →
      (∀ x ∈ kept, ¬ x.2.StoreFailed) →
      (∀ x ∈ T.transcript (kept.map (·.1)), ¬ x.2.StoreFailed) →
      T.transcript (kept.map (·.1)) = kept
  | [], _, _, _, _, _, _, _, _, hthin, _, _ => by
    cases hthin
    rfl
  | e :: es, S, T, _, h, h', hseen, hclock, hnew, hthin, hsaved, hsaved' => by
    obtain ⟨seen, hseen⟩ := List.forall_mem_cons.1 hseen
    obtain ⟨hle, hclock⟩ := List.pairwise_cons.1 hclock
    obtain ⟨ha, hnew⟩ := hnew
    have hnext := put_consistent h ha
    -- What is left out of the one run does not show, and the other run stays where it is.
    have leftOut (hout : e.call = .sweep ∨ (S.put e).1.failure? ≠ none) :
        ∀ e' ∈ es, (S.put e).2.book.seenAt e'.time = T.book.seenAt e'.time := by
      intro e' he'
      have same := seenAt_put_of_leftOut hσ h ha hout
      exact Book.seenAt_eq_of_le (hle e' he') (same.trans seen)
    cases hthin with
    | sweep he hthin =>
      exact transcript_of_thinned hσ hτ hnext h' (leftOut (.inl he)) hclock hnew hthin hsaved
        hsaved'
    | refused hf hthin =>
      exact transcript_of_thinned hσ hτ hnext h' (leftOut (.inr hf)) hclock hnew hthin hsaved
        hsaved'
    | @keep _ _ _ kept he hthin =>
      obtain ⟨first, hsaved⟩ := List.forall_mem_cons.1 hsaved
      obtain ⟨first', hsaved'⟩ := List.forall_mem_cons.1 hsaved'
      -- Both runs go on with the request, and time does not bring out a difference.
      obtain ⟨hanswer, same⟩ := put_of_seenAt_eq hσ hτ h h' ha seen he first first'
      have hseen' : ∀ e' ∈ es, (S.put e).2.book.seenAt e'.time = (T.put e).2.book.seenAt e'.time :=
        fun e' he' => Book.seenAt_eq_of_le (hle e' he') same
      rw [List.map_cons, transcript, hanswer]
      exact congrArg _ <| transcript_of_thinned hσ hτ hnext
        (put_consistent h' (ha.of_seenAt_eq h h' seen)) hseen' hclock hnew hthin hsaved hsaved'

/-- Take any run of a service, with a clock that does not go back, over a store that may refuse any
write. Leave out all sweeps, and any of the requests that were refused. If the store refuses nothing
of what the others write, neither in this run nor in the one without what was left out, they get the
same answers in both. The second run may be over another store of the same description. Reference:
§4.4 and §5. -/
theorem thinned_transcript {S : Service σ} {t : τ} {es : List Event}
    {kept : List (Event × Answer)} (hσ : Steady σ) (hτ : Steady τ) (h : S.broker.Reachable)
    (ht : describe t = describe S.broker.ledger.store) (hclock : es.Pairwise (·.time ≤ ·.time))
    (hnew : S.AdmitsAll es) (hkept : Thinned (S.transcript es) kept)
    (hsaved : ∀ x ∈ kept, ¬ x.2.StoreFailed)
    (hsaved' : ∀ x ∈ (S.withStore t).transcript (kept.map (·.1)), ¬ x.2.StoreFailed) :
    (S.withStore t).transcript (kept.map (·.1)) = kept := by
  have same : S.book = (S.withStore t).book := Book.ext rfl rfl ht.symm rfl rfl rfl rfl
  refine transcript_of_thinned hσ hτ h.consistent (h.consistent.withStore t) (fun e _ => ?_) hclock
    hnew hkept hsaved hsaved'
  rw [same]

/-- A store whose first write fails. -/
def stumblingStore : FaultyStore MemoryStore where
  label := "flaky"
  inner := .ofRecords [Broker.minuteLease]
  faultAt n := if n < 1 then some (.device "disk full") else none

/-- A board that is leased for the first minute, and can be leased again under one identifier. -/
def minuteService : Service (FaultyStore MemoryStore) where
  broker := .withLease Broker.minuteLease stumblingStore
  registry := .ofList [Broker.board "e1" true]
  draw := fun _ => "c"

/-- A release of a lease that does not exist; after the minute a sweep, an order, and a listing. -/
def minuteEvents : List Event :=
  [⟨0, .release "b"⟩, ⟨60000, .sweep⟩, ⟨60000, .allocate Broker.boardOrder⟩, ⟨60000, .list none⟩]

/-- The store does not fail in what is left, if the order is granted. -/
theorem saved_minuteEvents {S : Service σ} (hr : S.registry = .ofList [Broker.board "e1" true])
    (hb : Broker.boardOrder.span ∈ S.broker.ledger.bounds)
    (ha : (Broker.claimFirst S.broker.ledger Broker.boardOrder 60000 (S.draw S.granted)
      [Broker.board "e1" true]).1.isOk = true) :
    ∀ x ∈ S.transcript (minuteEvents.drop 2), ¬ x.2.StoreFailed := by
  refine List.forall_mem_cons.2 ⟨?_, List.forall_mem_singleton.2 ?_⟩
  · rw [put_board hr hb]
    refine not_storeFailed_lease fun fault hf => ?_
    rw [hf] at ha
    cases ha
  · exact not_storeFailed_of_read nofun nofun

/-- The same over a store that does not fail. -/
def mendedService : Service (FaultyStore MemoryStore) :=
  minuteService.withStore stumblingStore.mended

/-- The sweep cannot record that the lease has expired. Order and listing are answered the same
without the release and the sweep, over a store that does not fail. -/
theorem thinned_transcript_minute :
    (minuteService.after (minuteEvents.take 2)).broker.ledger.leases = [Broker.minuteLease] ∧
      Thinned (minuteService.transcript minuteEvents)
        ((minuteService.transcript minuteEvents).drop 2) ∧
      mendedService.transcript (minuteEvents.drop 2) =
        (minuteService.transcript minuteEvents).drop 2 := by
  have reachable : minuteService.broker.Reachable := Broker.reachable_withLease rfl rfl
  have new : minuteService.AdmitsAll minuteEvents :=
    ⟨nofun, nofun, fun _ _ => by decide, nofun, trivial⟩
  have kept : Thinned (minuteService.transcript minuteEvents)
      ((minuteService.transcript minuteEvents).drop 2) :=
    .refused (Option.some_ne_none _) <| .sweep rfl <| .keep nofun <| .keep nofun .nil
  have saved : ∀ x ∈ (minuteService.transcript minuteEvents).drop 2, ¬ x.2.StoreFailed :=
    saved_minuteEvents (S := minuteService.after (minuteEvents.take 2)) rfl (by decide) (by decide)
  have saved' : ∀ x ∈ mendedService.transcript (minuteEvents.drop 2), ¬ x.2.StoreFailed :=
    saved_minuteEvents rfl (by decide) (by decide)
  refine ⟨rfl, kept, ?_⟩
  exact thinned_transcript (t := stumblingStore.mended) steady_faulty steady_faulty reachable rfl
    (by decide) new kept saved saved'

end Service

end LabLease
