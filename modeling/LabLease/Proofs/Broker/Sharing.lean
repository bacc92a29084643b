import LabLease.Proofs.Broker.Serving
import LabLease.Proofs.Store.Table
import Mathlib.Data.Fintype.Card

/-!
# Brokers that share a store

Several brokers may be opened over one store, and be asked in any order (`Shared`). Each goes by the
records that it loaded when it was opened, or made itself since; what the others write it does not
see before it is opened again. So two of them may lease the same exporter, and one may expire a
lease that another has released (`Shared.pair_disagrees`). What holds nevertheless is
`Shared.rows_after`; and if each broker is up to date when it is asked, nothing of the kind happens
(`Shared.Sound.after_of_upToDate`).
-/

namespace LabLease

open LeaseStore

variable {σ : Type}

/-! ## Brokers and their store -/

/-- A store, and brokers that were opened over it at some time. -/
structure Shared (ι σ : Type) where
  store : σ
  broker : ι → Broker σ

namespace Shared

variable {ι : Type} {X : Shared ι σ} {rows : List Lease}

/-- A broker over the store as it is now. -/
def current (X : Shared ι σ) (i : ι) : Broker σ :=
  { X.broker i with ledger := { (X.broker i).ledger with store := X.store } }

/-- The store holds the rows, all brokers have copies of some of them, and every open row is
recorded by one of them. -/
structure Sound (holds : σ → List Lease → Prop) (X : Shared ι σ) (rows : List Lease) : Prop where
  holds : holds X.store rows
  nodup : (rows.map (·.id)).Nodup
  copies (i : ι) : (X.broker i).ledger.Copies rows
  owned {r : Lease} (hr : r ∈ rows) (ho : r.status.isOver = false) :
    ∃ i, r ∈ (X.broker i).ledger.leases

variable {holds : σ → List Lease → Prop}

/-- A broker that is asked has a copy of some rows. -/
theorem Sound.copies_current (h : X.Sound holds rows) (i : ι) : (X.current i).ledger.Copies rows :=
  ⟨(h.copies i).consistent.withStore X.store, (h.copies i).row⟩

/-- Of the open rows of an exporter each is recorded by another broker. -/
theorem Sound.open_rows_le [Fintype ι] [Nonempty ι] (h : X.Sound holds rows) (exporter : String) :
    (rows.filter fun r => r.exporter == exporter && !r.status.isOver).length ≤
      Fintype.card ι := by
  have owner (r : Lease) : ∃ i, r ∈ rows → r.status.isOver = false →
      r ∈ (X.broker i).ledger.leases := by
    by_cases hr : r ∈ rows ∧ r.status.isOver = false
    · obtain ⟨i, hi⟩ := h.owned hr.1 hr.2
      exact ⟨i, fun _ _ => hi⟩
    · exact ⟨Classical.arbitrary ι, fun hr' ho => absurd ⟨hr', ho⟩ hr⟩
  choose f hf using owner
  have apart : ((rows.filter fun r => r.exporter == exporter && !r.status.isOver).map f).Nodup := by
    refine List.Nodup.map_on (fun r hr r' hr' hsame => ?_) ((List.Nodup.of_map _ h.nodup).filter _)
    simp only [List.mem_filter, Bool.and_eq_true, beq_iff_eq, Bool.not_eq_true'] at hr hr'
    obtain ⟨hr, he, ho⟩ := hr
    obtain ⟨hr', he', ho'⟩ := hr'
    have hrec := hf r hr ho
    rw [hsame] at hrec
    have hrec' := hf r' hr' ho'
    exact (h.copies (f r')).consistent.eq_of_exporter hrec hrec' (he.trans he'.symm) ho ho'
  rw [← List.length_map f]
  exact apart.length_le_card

/-! ## Requests to one of several -/

variable [LeaseStore σ] {rows' : List Lease} {r : Lease} {i j : ι} {c : Broker.Call}

/-- All brokers have just been opened over the store. -/
def Opened (X : Shared ι σ) : Prop :=
  ∀ i, ∃ settings, Broker.ofStore settings X.store = .ok (X.broker i)

/-- The identifier that a new lease would get is new to the store. -/
def Admits (X : Shared ι σ) (c : Broker.Call) : Prop :=
  ∀ o listed now id, c = .allocate o listed now id →
    ∀ rows, load X.store = .ok rows → ∀ r ∈ rows, r.id ≠ id

/-- By the request the broker grants a lease, on an exporter that is named by an open row of which
the broker has no record. -/
def Blind (X : Shared ι σ) (i : ι) (c : Broker.Call) : Prop :=
  ∃ o listed now id l rows r, c = .allocate o listed now id ∧
    ((X.current i).allocate o listed now id).1 = .ok l ∧ load X.store = .ok rows ∧ r ∈ rows ∧
    r.exporter = l.exporter ∧ r.status.isOver = false ∧
    ∀ l₀ ∈ (X.broker i).ledger.leases, l₀.id ≠ r.id

/-- The broker serves the request by its records, and there the lease is open. -/
def Relies (id : String) (X : Shared ι σ) (i : ι) (c : Broker.Call) : Prop :=
  c.isReopen = false ∧ ∃ l ∈ (X.broker i).ledger.leases, l.id = id ∧ l.status.isOver = false

/-- The broker serves the request by its records, and these are not the rows of the store. -/
def Outdated (X : Shared ι σ) (i : ι) (c : Broker.Call) : Prop :=
  c.isReopen = false ∧ load X.store ≠ .ok (X.broker i).ledger.leases

/-- When all brokers have just been opened, everything is sound, and the rows can be loaded. -/
theorem Opened.sound [Nonempty ι] (hk : Keeps holds) (h : X.Opened) (hh : holds X.store rows) :
    X.Sound holds rows ∧ Ledger.Loadable rows := by
  have copies (i : ι) : (X.broker i).ledger.leases = rows ∧ (X.broker i).ledger.Copies rows := by
    obtain ⟨settings, hB⟩ := h i
    exact Broker.copies_of_ofStore hk hh hB
  obtain ⟨hleases, hc⟩ := copies (Classical.arbitrary ι)
  have loadable := hc.consistent.loadable
  rw [hleases] at loadable
  refine ⟨⟨hh, loadable.nodup, fun i => (copies i).2, fun hr _ => ?_⟩, loadable⟩
  exact ⟨Classical.arbitrary ι, hleases ▸ hr⟩

/-- A request changes the rows as its broker does. -/
theorem Sound.changes (hk : Keeps holds) (h : X.Sound holds rows) (ha : X.Admits c) (i : ι) :
    ∃ rows', holds ((X.current i).serve c).ledger.store rows' ∧
      Ledger.Changes (X.current i).ledger ((X.current i).serve c).ledger rows rows' ∧
      (c.isReopen = true → rows' = rows) := by
  refine Broker.serve_changes (B := X.current i) hk h.holds (h.copies_current i) h.nodup ?_
  intro o listed now id he
  exact ha o listed now id he rows (hk.load h.holds)

/-- If a broker does not grant blindly, and records a new row, it knows the open rows on the same
exporter. -/
theorem Sound.knows_of_new {r' : Lease} (hk : Keeps holds) (h : X.Sound holds rows)
    (hb : ¬ X.Blind i c) (hr : r ∈ rows) (ho : r.status.isOver = false)
    (hr' : r' ∈ ((X.current i).serve c).ledger.leases) (hnew : ∀ r₀ ∈ rows, r₀.id ≠ r'.id)
    (he : r.exporter = r'.exporter) : ∃ l ∈ (X.broker i).ledger.leases, l.id = r.id := by
  obtain ⟨l, hl, hid⟩ | ⟨-, hrow⟩ | ⟨o, listed, now, hcall, hok⟩ :=
    Broker.serve_added hk h.holds (h.copies_current i).consistent hr'
  · obtain ⟨status, hrow, -⟩ := (h.copies i).row hl
    exact absurd hid (hnew { l with status := status } hrow)
  · exact absurd rfl (hnew r' hrow)
  · by_contra hnone
    refine hb ⟨o, listed, now, _, r', rows, r, hcall, hok, hk.load h.holds, hr, he, ho, ?_⟩
    exact fun l hl hid => hnone ⟨l, hl, hid⟩

/-- If the rows could be loaded, they still can, unless the request is a blind grant. -/
theorem Sound.loadable (hk : Keeps holds) (h : X.Sound holds rows)
    (hc : Ledger.Changes (X.current i).ledger ((X.current i).serve c).ledger rows rows')
    (hl : Ledger.Loadable rows) (hb : ¬ X.Blind i c) : Ledger.Loadable rows' := by
  -- Of an open row and a new one on the same exporter, the broker has both on record.
  have both {r r' : Lease} (hr : r ∈ rows) (hr₁ : r ∈ rows') (ho : r.status.isOver = false)
      (hr' : r' ∈ ((X.current i).serve c).ledger.leases) (hnew : ∀ r₀ ∈ rows, r₀.id ≠ r'.id)
      (he : r.exporter = r'.exporter) : r ∈ ((X.current i).serve c).ledger.leases := by
    obtain ⟨l, hl, hid⟩ := h.knows_of_new hk hb hr ho hr' hnew he
    exact hc.mem_of_kept hr₁ ho hl hid
  have one := fun {r r' : Lease} (hr : r ∈ ((X.current i).serve c).ledger.leases)
    (hr' : r' ∈ ((X.current i).serve c).ledger.leases) =>
    hc.copies.consistent.eq_of_exporter hr hr'
  refine Ledger.loadable_of_unique hc.nodup fun r hr r' hr' he ho ho' => ?_
  obtain hold | ⟨hrec, hnew⟩ := hc.mem_or_new hr ho
  · obtain hold' | ⟨hrec', hnew'⟩ := hc.mem_or_new hr' ho'
    · exact hl.eq_of_exporter hold hold' he ho ho'
    · exact one (both hold hr ho hrec' hnew' he) hrec' he ho ho'
  · obtain hold' | ⟨hrec', -⟩ := hc.mem_or_new hr' ho'
    · exact one hrec (both hold' hr' ho' hrec hnew he.symm) he ho ho'
    · exact one hrec hrec' he ho ho'

/-- A blind grant is made by an outdated broker. -/
theorem Blind.outdated (h : X.Blind i c) : X.Outdated i c := by
  obtain ⟨_, _, _, _, _, rows, r, rfl, -, hload, hr, -, -, hnone⟩ := h
  refine ⟨rfl, fun hcopy => ?_⟩
  obtain rfl := Except.ok.inj (hcopy.symm.trans hload)
  exact hnone r hr rfl

/-- Only an outdated broker relies on a lease that is over. -/
theorem Relies.outdated (h : X.Relies r.id i c) (hk : Keeps holds)
    (hs : X.Sound holds rows) (hr : r ∈ rows) (ho : r.status.isOver = true) : X.Outdated i c := by
  obtain ⟨hc, l, hl, hid, hopen⟩ := h
  refine ⟨hc, fun hcopy => ?_⟩
  obtain rfl := Except.ok.inj (hcopy.symm.trans (hk.load hs.holds))
  obtain rfl := List.inj_on_of_nodup_map hs.nodup hl hr hid
  rw [ho] at hopen
  cases hopen

variable [DecidableEq ι] {es es' : List (ι × Broker.Call)}

/-- One broker serves a request. -/
def step (X : Shared ι σ) (i : ι) (c : Broker.Call) : Shared ι σ where
  store := ((X.current i).serve c).ledger.store
  broker := Function.update X.broker i ((X.current i).serve c)

/-- The requests are served one after the other, each by its broker. -/
def after (X : Shared ι σ) (es : List (ι × Broker.Call)) : Shared ι σ :=
  es.foldl (fun X e => X.step e.1 e.2) X

/-- Each request is admitted when its turn comes. -/
def AdmitsAll (X : Shared ι σ) : List (ι × Broker.Call) → Prop
  | [] => True
  | (i, c) :: es => X.Admits c ∧ (X.step i c).AdmitsAll es

@[simp] theorem broker_step_self (X : Shared ι σ) (i : ι) (c : Broker.Call) :
    (X.step i c).broker i = (X.current i).serve c :=
  Function.update_self ..

@[simp] theorem broker_step_of_ne (hj : j ≠ i) : (X.step i c).broker j = X.broker j :=
  Function.update_of_ne hj ..

/-- Everything stays sound. -/
theorem Sound.step (h : X.Sound holds rows)
    (hc : Ledger.Changes (X.current i).ledger ((X.current i).serve c).ledger rows rows')
    (hh : holds (X.step i c).store rows') : (X.step i c).Sound holds rows' where
  holds := hh
  nodup := hc.nodup
  copies j := by
    by_cases hj : j = i
    · subst hj
      rw [broker_step_self]
      exact hc.copies
    · rw [broker_step_of_ne hj]
      refine ⟨(h.copies j).consistent, fun hl => (h.copies j).row_of_ended (fun pos r hr => ?_) hl⟩
      obtain ⟨status, hr', hst⟩ := hc.row hr
      exact ⟨status, hr', hst.imp_right And.left⟩
  owned {r} hr ho := by
    obtain hold | ⟨hnew, -⟩ := hc.mem_or_new hr ho
    · obtain ⟨j, hj⟩ := h.owned hold ho
      refine ⟨j, ?_⟩
      by_cases hji : j = i
      · subst hji
        rw [broker_step_self]
        exact hc.mem_of_kept hr ho hj rfl
      · rw [broker_step_of_ne hji]
        exact hj
    · exact ⟨i, by rw [broker_step_self]; exact hnew⟩

/-! ## Runs -/

/-- At one of the requests, when its turn comes, it is as `P` tells. -/
def Meets (X : Shared ι σ) (P : Shared ι σ → ι → Broker.Call → Prop)
    (es : List (ι × Broker.Call)) : Prop :=
  ∃ es₁ i c es₂, es = es₁ ++ (i, c) :: es₂ ∧ P (X.after es₁) i c

variable {P : Shared ι σ → ι → Broker.Call → Prop}

theorem meets_head (hp : P X i c) : X.Meets P ((i, c) :: es) := ⟨[], i, c, es, rfl, hp⟩

theorem Meets.tail (h : (X.step i c).Meets P es) : X.Meets P ((i, c) :: es) := by
  obtain ⟨es₁, j, d, es₂, rfl, hp⟩ := h
  exact ⟨(i, c) :: es₁, j, d, es₂, rfl, hp⟩

theorem Meets.imp {Q : Shared ι σ → ι → Broker.Call → Prop} (h : X.Meets P es)
    (hpq : ∀ {Y i c}, P Y i c → Q Y i c) : X.Meets Q es := by
  obtain ⟨es₁, i, c, es₂, he, hp⟩ := h
  exact ⟨es₁, i, c, es₂, he, hpq hp⟩

theorem after_append (X : Shared ι σ) (es es' : List (ι × Broker.Call)) :
    X.after (es ++ es') = (X.after es).after es' :=
  List.foldl_append

theorem admitsAll_append :
    X.AdmitsAll (es ++ es') ↔ X.AdmitsAll es ∧ (X.after es).AdmitsAll es' := by
  induction es generalizing X with
  | nil => exact (and_iff_right trivial).symm
  | cons e es ih => exact (and_congr_right fun _ => ih).trans and_assoc.symm

/-- After some requests everything is sound. A row is in its place, and is as it was, or over, and
then a broker served by records in which it was open. If the rows could be loaded, they still can,
or there was a blind grant. -/
theorem Sound.after (hk : Keeps holds) : ∀ {es : List (ι × Broker.Call)} {X : Shared ι σ}
    {rows : List Lease}, X.Sound holds rows → X.AdmitsAll es →
    ∃ rows', (X.after es).Sound holds rows' ∧
      (∀ (pos : Nat) (r : Lease), rows[pos]? = some r → ∃ status : Status,
        rows'[pos]? = some { r with status := status } ∧
          (status = r.status ∨
            status.isOver = true ∧ X.Meets (Relies r.id) es)) ∧
      (Ledger.Loadable rows → Ledger.Loadable rows' ∨ X.Meets Blind es)
  | [], _, rows, h, _ => ⟨rows, h, fun _ r hr => ⟨r.status, hr, .inl rfl⟩, .inl⟩
  | (i, c) :: es, X, rows, h, ⟨ha, hnew⟩ => by
    obtain ⟨rows₁, hh₁, change, hsame⟩ := h.changes hk ha i
    obtain ⟨rows', h', hrows, hload⟩ := (h.step change hh₁).after hk hnew
    refine ⟨rows', h', fun pos r hr => ?_, fun hl => ?_⟩
    · by_cases hc : c.isReopen = true
      · rw [← hsame hc] at hr
        obtain ⟨st, hr', hst⟩ := hrows pos r hr
        exact ⟨st, hr', hst.imp_right (And.imp_right Meets.tail)⟩
      · obtain ⟨st₁, hr₁, hst₁⟩ := change.row hr
        obtain ⟨st, hr', rfl | ⟨hover, hmeets⟩⟩ := hrows pos _ hr₁
        · refine ⟨_, hr', hst₁.imp_right fun ⟨hover, hopen⟩ => ⟨hover, meets_head ⟨?_, hopen⟩⟩⟩
          exact Bool.eq_false_iff.2 hc
        · exact ⟨st, hr', .inr ⟨hover, hmeets.tail⟩⟩
    · by_cases hb : X.Blind i c
      · exact .inr (meets_head hb)
      · exact (hload (h.loadable hk change hl hb)).imp_right Meets.tail

/-- If no broker serves by outdated records, the rows can be loaded, as they could before, and those
that are over stay as they are. -/
theorem Sound.after_of_upToDate (hk : Keeps holds) (h : X.Sound holds rows) (hnew : X.AdmitsAll es)
    (hl : Ledger.Loadable rows) (hup : ¬ X.Meets Outdated es) :
    ∃ rows', (X.after es).Sound holds rows' ∧ Ledger.Loadable rows' ∧
      ∀ (pos : Nat) (r : Lease), rows[pos]? = some r → r.status.isOver = true →
        rows'[pos]? = some r := by
  obtain ⟨rows', h', hrows, hload⟩ := h.after hk hnew
  refine ⟨rows', h', (hload hl).resolve_right fun hb => hup (hb.imp Blind.outdated), ?_⟩
  intro pos r hr ho
  obtain ⟨_, hr', rfl | ⟨-, es₁, i, c, es₂, rfl, hrelies⟩⟩ := hrows pos r hr
  · exact hr'
  · -- The row was over already when the broker was asked.
    obtain ⟨rows₁, h₁, hrows₁, -⟩ := h.after hk (admitsAll_append.1 hnew).1
    obtain ⟨status, hr₁, hst⟩ := hrows₁ pos r hr
    have hover : status.isOver = true := by
      obtain rfl | ⟨hover, -⟩ := hst
      · exact ho
      · exact hover
    have outdated : (X.after es₁).Outdated i c :=
      Relies.outdated (r := { r with status := status }) hrelies hk h₁
        (List.mem_of_getElem? hr₁) hover
    exact absurd ⟨es₁, i, c, es₂, rfl, outdated⟩ hup

/-- Brokers are opened over a table, and are asked in any order. Then the table names an exporter in
at most as many open rows as there are brokers, and in more than one only if there was a blind
grant. From any moment on, a row stays as it is, in its place, but for its state. That changes only
to released or expired, and only if a broker served meanwhile by records in which the lease was
open. Reference: `LeaseLedger.with_store` and `SqliteLeaseStore.save`, §3. -/
theorem rows_after {ι : Type} [Fintype ι] [DecidableEq ι] [Nonempty ι] {X : Shared ι TableStore}
    {es : List (ι × Broker.Call)} (h : X.Opened) (hnew : X.AdmitsAll es) :
    ∃ rows, (X.after es).store.table.leases = .ok rows ∧
      (∀ exporter, (rows.filter fun r => r.exporter == exporter && !r.status.isOver).length ≤
        Fintype.card ι) ∧
      (Ledger.Loadable rows ∨ X.Meets Blind es) ∧
      ∀ es₁ es₂ rows₁, es = es₁ ++ es₂ → (X.after es₁).store.table.leases = .ok rows₁ →
        ∀ (pos : Nat) (r : Lease), rows₁[pos]? = some r → ∃ status : Status,
          rows[pos]? = some { r with status := status } ∧
            (status = r.status ∨ (status = .released ∨ status = .expired) ∧
              (X.after es₁).Meets (Relies r.id) es₂) := by
  obtain ⟨settings, hB⟩ := h (Classical.arbitrary ι)
  obtain ⟨hs, hl⟩ := h.sound keeps_table (Broker.load_of_ofStore hB).2
  obtain ⟨rows, hs', -, hload⟩ := hs.after keeps_table hnew
  refine ⟨rows, hs'.holds, hs'.open_rows_le, hload hl, ?_⟩
  rintro es₁ es₂ rows₁ rfl hrows₁ pos r hr
  obtain ⟨hnew₁, hnew₂⟩ := admitsAll_append.1 hnew
  obtain ⟨rows₁', hs₁, -⟩ := hs.after keeps_table hnew₁
  obtain rfl := Except.ok.inj (hrows₁.symm.trans hs₁.holds)
  obtain ⟨rows', hs₂, hrows, -⟩ := hs₁.after keeps_table hnew₂
  rw [← after_append] at hs₂
  obtain rfl := Except.ok.inj (hs'.holds.symm.trans hs₂.holds)
  obtain ⟨status, hr', hst⟩ := hrows pos r hr
  exact ⟨status, hr', hst.imp_right (And.imp_left Status.isOver_eq_true_iff.1)⟩

/-- An order of a board, of which there is one. -/
theorem step_board (X : Shared ι σ) (i : ι)
    (hb : Broker.boardOrder.span ∈ (X.broker i).ledger.bounds) (now : Instant) (id : String) :
    let claimed := Broker.claimFirst (X.current i).ledger Broker.boardOrder now id
      [Broker.board "e1" true]
    X.step i (.allocate Broker.boardOrder [Broker.board "e1" true] now id) =
      { store := claimed.2.store
        broker := Function.update X.broker i { X.broker i with ledger := claimed.2 } } := by
  have answer := Broker.allocate_board (X.current i) hb now id
  simp only [step, Broker.serve, answer]
  rfl

/-- Two brokers that were opened over an empty table. -/
def pair : Shared Bool TableStore where
  store := { path := "leases.db" }
  broker _ := ⟨{}, .blank ({} : Settings).bounds { path := "leases.db" }⟩

/-- Each of the two is asked for a board, of which there is one. -/
def pairOrders : List (Bool × Broker.Call) :=
  [(false, .allocate Broker.boardOrder [Broker.board "e1" true] 0 "a"),
    (true, .allocate Broker.boardOrder [Broker.board "e1" true] 0 "b")]

/-- One broker leases the board for a minute, and takes it back after half of it. The other one was
opened in between, and sweeps when the minute is over. -/
def pairEnds : List (Bool × Broker.Call) :=
  [(false, .allocate Broker.boardOrder [Broker.board "e1" true] 0 "a"), (true, .reopen {}),
    (false, .release "a" 30000), (true, .sweep 60000)]

/-- The lease of the board. -/
def pairLease (id : String) : Lease :=
  (Broker.boardOrder.booking "e1").lease 0 id

theorem opened_pair : pair.Opened := fun _ => ⟨{}, rfl⟩

/-- After the first of the two orders. -/
theorem leases_after_first :
    (pair.after (pairOrders.take 1)).store.table.leases = .ok [pairLease "a"] := by
  simp only [pairOrders, after, List.take_succ_cons, List.take_zero, List.foldl_cons,
    List.foldl_nil]
  rw [step_board _ _ (by decide)]
  rfl

theorem leases_after_pairOrders :
    (pair.after pairOrders).store.table.leases = .ok [pairLease "a", pairLease "b"] := by
  simp only [pairOrders, after, List.foldl_cons, List.foldl_nil]
  rw [step_board _ _ (by decide), step_board _ _ (by decide)]
  rfl

theorem leases_after_release : (pair.after (pairEnds.take 3)).store.table.leases =
    .ok [{ pairLease "a" with status := .released }] := by
  simp only [pairEnds, after, List.take_succ_cons, List.take_zero, List.foldl_cons, List.foldl_nil]
  rw [step_board _ _ (by decide)]
  rfl

theorem leases_after_pairEnds :
    (pair.after pairEnds).store.table.leases = .ok [{ pairLease "a" with status := .expired }] := by
  simp only [pairEnds, after, List.foldl_cons, List.foldl_nil]
  rw [step_board _ _ (by decide)]
  rfl

theorem admitsAll_pairOrders : pair.AdmitsAll pairOrders := by
  refine ⟨fun _ _ _ _ _ rows hload => ?_, fun _ _ _ id he rows hload => ?_, trivial⟩
  · obtain rfl := Except.ok.inj hload
    exact nofun
  · cases he
    obtain rfl := Except.ok.inj (leases_after_first.symm.trans hload)
    decide

theorem admitsAll_pairEnds : pair.AdmitsAll pairEnds := by
  refine ⟨fun _ _ _ _ _ rows hload => ?_, nofun, nofun, nofun, trivial⟩
  obtain rfl := Except.ok.inj hload
  exact nofun

/-- Of two brokers each leases the board, so the table has two open rows of one exporter. And a
lease that was saved as released is saved as expired by the broker that was opened before. -/
theorem pair_disagrees :
    pair.Opened ∧ pair.AdmitsAll pairOrders ∧ pair.AdmitsAll pairEnds ∧
    (pair.after pairOrders).store.table.leases = .ok [pairLease "a", pairLease "b"] ∧
    (pairLease "a").exporter = (pairLease "b").exporter ∧
    (pairLease "a").status = .active ∧ (pairLease "b").status = .active ∧
    (pair.after (pairEnds.take 3)).store.table.leases =
      .ok [{ pairLease "a" with status := .released }] ∧
    (pair.after pairEnds).store.table.leases = .ok [{ pairLease "a" with status := .expired }] :=
  ⟨opened_pair, admitsAll_pairOrders, admitsAll_pairEnds, leases_after_pairOrders, rfl, rfl, rfl,
    leases_after_release, leases_after_pairEnds⟩

/-- The second of the two granted blindly, and it swept by a record of the lease as open. -/
theorem rows_after_pair :
    pair.Opened ∧ pair.AdmitsAll pairOrders ∧ pair.AdmitsAll pairEnds ∧
    pair.Meets Blind pairOrders ∧
    (pair.after (pairEnds.take 3)).Meets (Relies "a") (pairEnds.drop 3) := by
  refine ⟨opened_pair, admitsAll_pairOrders, admitsAll_pairEnds, ?_, ?_⟩
  · obtain ⟨rows, hrows, -, hl, -⟩ := rows_after opened_pair admitsAll_pairOrders
    obtain rfl := Except.ok.inj (leases_after_pairOrders.symm.trans hrows)
    refine hl.resolve_left fun hl => ?_
    have same : pairLease "a" = pairLease "b" :=
      hl.eq_of_exporter (by simp) (by simp) rfl rfl rfl
    exact absurd (congrArg Lease.id same) (by decide)
  · obtain ⟨rows, hrows, -, -, hrow⟩ := rows_after opened_pair admitsAll_pairEnds
    obtain rfl := Except.ok.inj (leases_after_pairEnds.symm.trans hrows)
    obtain ⟨status, hr, rfl | ⟨-, hmeets⟩⟩ := hrow (pairEnds.take 3) (pairEnds.drop 3) _
      (List.take_append_drop 3 pairEnds).symm leases_after_release 0 _ rfl
    · cases hr
    · exact hmeets

end Shared

end LabLease
