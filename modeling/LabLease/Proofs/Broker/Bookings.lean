import LabLease.Proofs.Broker.Reopening
import LabLease.Proofs.Broker.Turns

/-!
# Bookings do not overlap

Two leases on one exporter that are granted in a run follow each other: when the second begins, the
first has expired, or has been given back (`Service.bookings_disjoint`).

When a lease is given back is not recorded, so this is said of a run and its answers. Between two
requests each record has its history in the run (`Service.ended_of_isOver`): if it was open and is
not, there was a request at or after its deadline, or one that gave it back. A grant meets no open
record of its exporter but one that is due (`AllocateOutcome.isDue_of_ok`).
-/

namespace LabLease

open Service

namespace Service

/-- The request was answered with a new lease. -/
def Grants (x : Event × Answer) (l : Lease) : Prop :=
  (∃ o, x.1.call = .allocate o) ∧ x.2 = .lease (.ok l)

/-- The lease was given back. -/
def GivesBack (x : Event × Answer) (l : Lease) : Prop :=
  x.1.call = .release l.id ∧ ∃ l', x.2 = .lease (.ok l')

end Service

variable {σ : Type} [LeaseStore σ] {L L' : Ledger σ} {l : Lease} {o : Order}
  {listed : List Exporter} {now : Instant} {id : String} {pos : Nat}

/-! ## Grants -/

/-- A lease that is granted begins at once. -/
theorem AllocateOutcome.createdAt_of_ok (ho : AllocateOutcome L o listed now id (.ok l) L') :
    l.createdAt = now := by
  obtain ⟨-, r, rfl⟩ := ho.booked_of_ok
  rfl

/-- A lease that is granted is recorded, and is open. -/
theorem AllocateOutcome.mem_of_ok (ho : AllocateOutcome L o listed now id (.ok l) L')
    (h : L.Consistent) : l ∈ L'.leases ∧ l.status.isOver = false := by
  obtain ⟨r, rfl, hleases⟩ := ho.granted_of_ok h
  refine ⟨?_, rfl⟩
  rw [hleases]
  exact List.mem_append_right _ (List.mem_singleton_self _)

/-- When a lease is granted, an open record of its exporter is due. -/
theorem AllocateOutcome.isDue_of_ok {l' : Lease}
    (ho : AllocateOutcome L o listed now id (.ok l') L') (h : L.Consistent) (hl : l ∈ L.leases)
    (he : l.exporter = l'.exporter) (hopen : l.status.isOver = false) : l.isDue now = true := by
  cases ho with
  | claimed _ _ _ _ hclaim =>
    obtain rfl := hclaim.eq_lease_of_ok
    cases hclaim with
    | takeover _ hl' he' hd =>
      have same := h.eq_of_exporter hl (List.mem_of_getElem? hl') (he.trans he'.symm) hopen
        (Ledger.isOver_of_isDue hd)
      rwa [same]
    | granted _ hf =>
      rw [h.isOver_of_find?_eq_none hf hl he] at hopen
      cases hopen

namespace Service

variable {S : Service σ} {e : Event} {es : List Event} {x y : Event × Answer}
  {xs ys : List (Event × Answer)}

/-! ## Transcripts -/

/-- A transcript lists the requests in their order. -/
theorem map_fst_transcript (S : Service σ) (es : List Event) :
    (S.transcript es).map (·.1) = es := by
  induction es generalizing S with
  | nil => rfl
  | cons e es ih => exact congrArg (e :: ·) (ih (S.put e).2)

/-- Where something stands in a transcript, the service has answered the requests before it, and
goes on with those behind it. -/
theorem transcript_eq_append_cons (h : S.transcript es = xs ++ x :: ys) :
    ∃ es₁ e es₂, es = es₁ ++ e :: es₂ ∧ S.transcript es₁ = xs ∧ x = (e, ((S.after es₁).put e).1) ∧
      ((S.after es₁).put e).2.transcript es₂ = ys := by
  induction xs generalizing S es with
  | nil =>
    cases es with
    | nil => cases h
    | cons e es =>
      obtain ⟨rfl, hys⟩ := List.cons.inj h
      exact ⟨[], e, es, rfl, rfl, rfl, hys⟩
  | cons x' xs ih =>
    cases es with
    | nil => cases h
    | cons e' es =>
      obtain ⟨rfl, hrest⟩ := List.cons.inj h
      obtain ⟨es₁, e, es₂, rfl, hxs, hx, hys⟩ := ih hrest
      exact ⟨e' :: es₁, e, es₂, rfl, congrArg _ hxs, hx, hys⟩

/-- A grant is an allocation that succeeds. -/
theorem Grants.outcome (hx : Grants (e, (S.put e).1) l) (h : S.broker.ledger.Consistent) :
    ∃ o, AllocateOutcome S.broker.ledger o S.registry.list e.time (S.draw S.granted) (.ok l)
      (S.put e).2.broker.ledger := by
  obtain ⟨⟨o, he⟩, hok⟩ := hx
  obtain ⟨now, call⟩ := e
  obtain rfl : call = .allocate o := he
  have hok : (S.broker.allocate o S.registry.list now (S.draw S.granted)).1 = .ok l :=
    Answer.lease.inj hok
  have ho := Broker.allocate_outcome h o S.registry.list now (S.draw S.granted)
  rw [hok] at ho
  exact ⟨o, ho⟩

/-! ## The history of a record -/

/-- After some requests a record is as it was; or it is over, and there was a request when its
deadline had come, or one by which the lease was given back. -/
theorem ended_of_isOver : ∀ {es : List Event} {S : Service σ}, S.broker.ledger.Consistent →
    S.AdmitsAll es → S.broker.ledger.leases[pos]? = some l →
    ∃ l', (S.after es).broker.ledger.leases[pos]? = some l' ∧ (l' = l ∨ l'.status.isOver = true ∧
      ∃ x ∈ S.transcript es, l.expiresAt ≤ x.1.time ∨ GivesBack x l)
  | [], _, _, _, hl => ⟨l, hl, .inl rfl⟩
  | e :: es, S, h, ⟨ha, hnew⟩, hl => by
    obtain ⟨l₁, hl₁, ht⟩ := put_turns h ha hl
    have next := put_consistent h ha
    -- Once the record is over, the other requests leave it alone.
    have ended (ho : l₁.status.isOver = true)
        (hx : l.expiresAt ≤ e.time ∨ GivesBack (e, (S.put e).1) l) :
        ∃ l', (S.after (e :: es)).broker.ledger.leases[pos]? = some l' ∧
          (l' = l ∨ l'.status.isOver = true ∧
            ∃ x ∈ S.transcript (e :: es), l.expiresAt ≤ x.1.time ∨ GivesBack x l) := by
      obtain ⟨l', hl', rfl | ⟨hopen, -⟩⟩ := (after_writes next hnew).grows hl₁
      · exact ⟨l', hl', .inr ⟨ho, _, List.mem_cons_self, hx⟩⟩
      · rw [ho] at hopen
        cases hopen
    cases ht with
    | stays =>
      obtain ⟨l', hl', rfl | ⟨ho, x, hx, hend⟩⟩ := ended_of_isOver next hnew hl₁
      · exact ⟨l', hl', .inl rfl⟩
      · exact ⟨l', hl', .inr ⟨ho, x, List.mem_cons_of_mem _ hx, hend⟩⟩
    | expires hd => exact ended rfl (.inl (Lease.isDue_iff.1 hd).2)
    | released _ _ he hans => exact ended rfl (.inr ⟨he, _, hans⟩)

/-- Take any run of a service with a clock that does not go back, over a store that may refuse any
write. If a lease is granted in it, and later another one on the same exporter, then the second
begins at or after the deadline of the first, or the first is given back between the two, not after
the second begins. Reference: `LeaseLedger.claim`, §3. -/
theorem bookings_disjoint {before mid later : List (Event × Answer)} {a b : Lease}
    (h : S.broker.Reachable) (hclock : es.Pairwise (·.time ≤ ·.time)) (hnew : S.AdmitsAll es)
    (hes : S.transcript es = before ++ x :: mid ++ y :: later) (hx : Grants x a) (hy : Grants y b)
    (hab : a.exporter = b.exporter) :
    a.expiresAt ≤ b.createdAt ∨ ∃ z ∈ mid, GivesBack z a ∧ z.1.time ≤ b.createdAt := by
  -- All that happens between the two grants happens before the second.
  have order : ∀ z ∈ mid, z.1.time ≤ y.1.time := by
    rw [← map_fst_transcript S es, List.pairwise_map, hes] at hclock
    intro z hz
    refine (List.pairwise_append.1 hclock).2.2 z ?_ y List.mem_cons_self
    exact List.mem_append_right _ (List.mem_cons_of_mem _ hz)
  rw [List.append_assoc, List.cons_append] at hes
  obtain ⟨es₁, e, es, rfl, -, rfl, hrest⟩ := transcript_eq_append_cons hes
  obtain ⟨es₂, e', es₃, rfl, rfl, rfl, -⟩ := transcript_eq_append_cons hrest
  obtain ⟨hnew₁, ha, hnew⟩ := admitsAll_append.1 hnew
  obtain ⟨hnew₂, -⟩ := admitsAll_append.1 hnew
  -- The ledger before the first grant, after it, and before the second.
  have h₁ := (after_writes h.consistent hnew₁).consistent h.consistent
  have h₂ := put_consistent h₁ ha
  have h₃ := (after_writes h₂ hnew₂).consistent h₂
  obtain ⟨o, first⟩ := hx.outcome h₁
  obtain ⟨o', second⟩ := hy.outcome h₃
  rw [second.createdAt_of_ok]
  obtain ⟨hmem, hopen⟩ := first.mem_of_ok h₁
  obtain ⟨pos, hpos⟩ := List.mem_iff_getElem?.1 hmem
  obtain ⟨a', ha', rfl | ⟨-, z, hz, hend⟩⟩ := ended_of_isOver h₂ hnew₂ hpos
  · -- The second grant finds the first lease as it was granted, so it is due.
    have hd := second.isDue_of_ok h₃ (List.mem_of_getElem? ha') hab hopen
    exact .inl (Lease.isDue_iff.1 hd).2
  · have hle : z.1.time ≤ e'.time := order z hz
    obtain hexp | hback := hend
    · exact .inl (UInt64.le_trans hexp hle)
    · exact .inr ⟨z, hz, hback, hle⟩

/-- A board over a store that refuses its second write. -/
def boardService : Service (FaultyStore MemoryStore) where
  broker := ⟨{}, .blank ({} : Settings).bounds
    { label := "flaky"
      inner := .empty
      faultAt := fun n => if n = 1 then some (.device "disk full") else none }⟩
  registry := .ofList [Broker.board "e1" true]
  draw n := if n = 0 then "a" else "b"

/-- The board is leased for a minute, and given back after half of it, when it is leased again. -/
def boardEvents : List Event :=
  [⟨0, .allocate Broker.boardOrder⟩, ⟨20000, .release "a"⟩, ⟨30000, .release "a"⟩,
    ⟨30000, .allocate Broker.boardOrder⟩]

/-- The lease of the board from an instant on. -/
def boardLease (id : String) (now : Instant) : Lease :=
  (Broker.boardOrder.booking "e1").lease now id

/-- The first release fails with the store, and the second does not. -/
def boardAnswers : List Answer :=
  [.lease (.ok (boardLease "a" 0)), .lease (.error (.store (.device "disk full"))),
    .lease (.ok { boardLease "a" 0 with status := .released }),
    .lease (.ok (boardLease "b" 30000))]

theorem transcript_board :
    boardService.transcript boardEvents = boardEvents.zip boardAnswers := by
  rw [boardEvents, transcript, put_board rfl (by decide)]
  refine congrArg₂ _ rfl ?_
  rw [transcript, transcript]
  refine congrArg₂ _ rfl (congrArg₂ _ rfl ?_)
  rw [transcript, put_board rfl (by decide)]
  rfl

theorem admitsAll_board : boardService.AdmitsAll boardEvents := by
  refine ⟨fun _ _ => rfl, ?_⟩
  rw [put_board rfl (by decide)]
  exact ⟨nofun, nofun, fun _ _ => by decide, trivial⟩

/-- Between the two grants the first lease is given back, so they do not overlap, although the
second begins before the deadline of the first. -/
theorem bookings_disjoint_board :
    boardService.broker.Reachable ∧
    boardService.transcript boardEvents = boardEvents.zip boardAnswers ∧
    (boardLease "b" 30000).createdAt < (boardLease "a" 0).expiresAt ∧
    ∃ z ∈ ((boardEvents.zip boardAnswers).drop 1).take 2,
      GivesBack z (boardLease "a" 0) ∧ z.1.time ≤ (boardLease "b" 30000).createdAt := by
  have made : Broker.ofLedger {} boardService.broker.ledger = .ok boardService.broker := rfl
  have reachable : boardService.broker.Reachable :=
    .ofLedger (Ledger.Opened.blank rfl).reachable made
  have early : (boardLease "b" 30000).createdAt < (boardLease "a" 0).expiresAt := by decide
  have run : boardService.transcript boardEvents =
      [] ++ _ :: ((boardEvents.zip boardAnswers).drop 1).take 2 ++ _ :: [] := transcript_board
  refine ⟨reachable, transcript_board, early, ?_⟩
  obtain hexp | hback := bookings_disjoint reachable (by decide) admitsAll_board run
    ⟨⟨_, rfl⟩, rfl⟩ ⟨⟨_, rfl⟩, rfl⟩ rfl
  · exact absurd hexp (UInt64.not_le.2 early)
  · exact hback

end Service

end LabLease
