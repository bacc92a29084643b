import LabLease.Broker
import LabLease.Proofs.Ledger.Claim
import LabLease.Proofs.Text.ByteOrder

/-!
# Which exporter an order is filled with

An order may be filled with any exporter that is listed online with labels that satisfy the
selector (`Eligible`). The broker goes through them by identifier and claims one after the other.
Since a claim on a blocked exporter changes nothing, it stops at the first that is not blocked
(`Broker.claimFirst_split`), which is the one with the least identifier (`Chosen`).

`AllocateOutcome` lists all ways in which an allocation may end. The last of them is a claim on the
chosen exporter, so whatever is known about claims carries over.
-/

namespace LabLease

open Broker

variable {σ : Type} {L L' : Ledger σ} {o : Order} {s : Selector} {listed : List Exporter}
  {now : Instant} {id r r' : String}

/-- What an order asks of one exporter. -/
def Order.booking (o : Order) (exporter : String) : Booking :=
  ⟨exporter, o.span, o.name, o.selector⟩

@[simp] theorem Order.booking_exporter (o : Order) (exporter : String) :
    (o.booking exporter).exporter = exporter := rfl
@[simp] theorem Order.booking_span (o : Order) (exporter : String) :
    (o.booking exporter).span = o.span := rfl

/-- An exporter is listed online with labels that satisfy the selector. -/
def Eligible (s : Selector) (listed : List Exporter) (r : String) : Prop :=
  ∃ e ∈ listed, e.id = r ∧ e.online = true ∧ s.holds e.labels = true

/-- The exporter that an order is filled with: of those that are eligible and not blocked, the one
whose identifier has the least bytes. -/
structure Chosen (L : Ledger σ) (s : Selector) (listed : List Exporter) (now : Instant)
    (r : String) : Prop where
  eligible : Eligible s listed r
  not_blocked : ¬ L.Blocked now r
  least {r' : String} (he : Eligible s listed r') (hb : ¬ L.Blocked now r') :
    Text.bytes r.toList ≤ Text.bytes r'.toList

/-- At most one exporter is chosen. -/
theorem Chosen.eq (h : Chosen L s listed now r) (h' : Chosen L s listed now r') : r = r' := by
  refine String.le_antisymm ?_ ?_
  · exact Text.le_iff_bytes_le.2 (h.least h'.eligible h'.not_blocked)
  · exact Text.le_iff_bytes_le.2 (h'.least h.eligible h.not_blocked)

/-- The candidates are the eligible exporters. -/
theorem mem_candidates {e : Exporter} :
    e ∈ candidates s listed ↔ e ∈ listed ∧ e.online = true ∧ s.holds e.labels = true := by
  simp [candidates]

/-- Eligible are the identifiers of the candidates. -/
theorem eligible_iff : Eligible s listed r ↔ ∃ e ∈ candidates s listed, e.id = r := by
  simp only [mem_candidates]
  constructor
  · rintro ⟨e, he, hr, hon, hl⟩
    exact ⟨e, ⟨he, hon, hl⟩, hr⟩
  · rintro ⟨e, ⟨he, hon, hl⟩, hr⟩
    exact ⟨e, he, hr, hon, hl⟩

/-- The first candidate that is not blocked is the chosen one. -/
theorem chosen_of_split {before after : List Exporter} {e : Exporter}
    (hs : candidates s listed = before ++ e :: after)
    (hbefore : ∀ e' ∈ before, L.Blocked now e'.id) (he : ¬ L.Blocked now e.id) :
    Chosen L s listed now e.id where
  eligible := eligible_iff.2 ⟨e, by simp [hs], rfl⟩
  not_blocked := he
  least {r'} hr' hb := by
    obtain ⟨e', he', rfl⟩ := eligible_iff.1 hr'
    have sorted : (before ++ e :: after).Pairwise (fun a b => a.id ≤ b.id) :=
      hs ▸ Exporter.pairwise_sorted _
    rw [hs, List.mem_append, List.mem_cons] at he'
    rcases he' with he' | rfl | he'
    · exact absurd (hbefore e' he') hb
    · exact List.le_refl _
    · have hle := (List.pairwise_cons.1 (List.pairwise_append.1 sorted).2.1).1 e' he'
      exact Text.le_iff_bytes_le.1 hle

/-- A selector is refused for a flaw in its text. -/
theorem Selector.eq_of_parse_error {text : String} {f : Failure}
    (h : Selector.parse text = .error f) : ∃ flaw, f = .invalidSelector text flaw := by
  unfold Selector.parse at h
  split at h
  · cases h
  · split at h
    · cases h
      exact ⟨_, rfl⟩
    · cases h

variable [LeaseStore σ]

/-- Going through exporters ends with a claim on the first that is not blocked; if all are blocked,
it changes nothing. -/
theorem Broker.claimFirst_split (now : Instant) (id : String) (h : L.Consistent)
    (hb : o.span ∈ L.bounds) (es : List Exporter) :
    ((∀ e ∈ es, L.Blocked now e.id) ∧
      claimFirst L o now id es = (.error (.allLeased o.selector), L)) ∨
    ∃ before e after, es = before ++ e :: after ∧ (∀ e' ∈ before, L.Blocked now e'.id) ∧
      ¬ L.Blocked now e.id ∧ claimFirst L o now id es = L.claim (o.booking e.id) now id := by
  induction es with
  | nil => exact .inl ⟨by simp, rfl⟩
  | cons e es ih =>
    have first := Ledger.claim_outcome h (o.booking e.id) now id
    rcases hc : L.claim (o.booking e.id) now id with ⟨a, L'⟩
    rw [hc] at first
    by_cases hbl : L.Blocked now e.id
    · obtain ⟨⟨holder, rfl⟩, rfl⟩ := first.of_blocked h hb hbl
      have next : claimFirst L' o now id (e :: es) = claimFirst L' o now id es := by
        rw [claimFirst, ← Order.booking, hc]
      rw [next]
      obtain ⟨hall, heq⟩ | ⟨before, e', after, hes, hbefore, he', heq⟩ := ih
      · exact .inl ⟨List.forall_mem_cons.2 ⟨hbl, hall⟩, heq⟩
      · exact .inr ⟨e :: before, e', after, by rw [hes]; rfl,
          List.forall_mem_cons.2 ⟨hbl, hbefore⟩, he', heq⟩
    · refine .inr ⟨[], e, es, rfl, by simp, hbl, ?_⟩
      rw [claimFirst, ← Order.booking, hc]
      split
      · next heq =>
        cases heq
        exact absurd rfl (first.not_held hbl _ _)
      · rfl

/-- How an allocation may end. -/
inductive AllocateOutcome (L : Ledger σ) (o : Order) (listed : List Exporter) (now : Instant)
    (id : String) : Except Failure Lease → Ledger σ → Prop
  /-- The selector has a flaw. -/
  | badSelector {flaw : SelectorFlaw}
      (hs : Selector.parse o.selector = .error (.invalidSelector o.selector flaw)) :
      AllocateOutcome L o listed now id (.error (.invalidSelector o.selector flaw)) L
  /-- The length asked for may not be granted. -/
  | outOfRange {s : Selector} (hs : Selector.parse o.selector = .ok s) (hb : o.span ∉ L.bounds) :
      AllocateOutcome L o listed now id (.error (.spanOutOfRange o.span L.bounds)) L
  /-- No exporter is eligible. -/
  | noExporter {s : Selector} (hs : Selector.parse o.selector = .ok s) (hb : o.span ∈ L.bounds)
      (hno : ∀ r, ¬ Eligible s listed r) :
      AllocateOutcome L o listed now id (.error (.noExporter o.selector)) L
  /-- Some are, and all of them are blocked. -/
  | allLeased {s : Selector} {r : String} (hs : Selector.parse o.selector = .ok s)
      (hb : o.span ∈ L.bounds) (hr : Eligible s listed r)
      (hall : ∀ r, Eligible s listed r → L.Blocked now r) :
      AllocateOutcome L o listed now id (.error (.allLeased o.selector)) L
  /-- The chosen exporter is claimed. -/
  | claimed {s : Selector} {r : String} {a : Except Failure Lease} {L' : Ledger σ}
      (hs : Selector.parse o.selector = .ok s) (hb : o.span ∈ L.bounds)
      (hc : Chosen L s listed now r) (ha : L.claim (o.booking r) now id = (a, L'))
      (ho : Ledger.ClaimOutcome L (o.booking r) now id a L') :
      AllocateOutcome L o listed now id a L'

/-- If an eligible exporter is not blocked, an allocation is a claim on the chosen one. -/
theorem AllocateOutcome.claims_chosen {a : Except Failure Lease}
    (ho : AllocateOutcome L o listed now id a L') (hs : Selector.parse o.selector = .ok s)
    (hb : o.span ∈ L.bounds) (hr : Eligible s listed r) (hbl : ¬ L.Blocked now r) :
    ∃ r, Chosen L s listed now r ∧ Ledger.ClaimOutcome L (o.booking r) now id a L' := by
  cases ho with
  | badSelector hs' =>
    rw [hs'] at hs
    cases hs
  | outOfRange _ hb' => exact absurd hb hb'
  | noExporter hs' _ hno =>
    rw [hs'] at hs
    cases hs
    exact absurd hr (hno r)
  | allLeased hs' _ _ hall =>
    rw [hs'] at hs
    cases hs
    exact absurd (hall r hr) hbl
  | claimed hs' _ hc _ ho =>
    rw [hs'] at hs
    cases hs
    exact ⟨_, hc, ho⟩

/-- A lease that is granted on an order is one of its bookings, and its length is allowed. -/
theorem AllocateOutcome.booked_of_ok {l : Lease}
    (ho : AllocateOutcome L o listed now id (.ok l) L') :
    o.span ∈ L.bounds ∧ ∃ r, l = (o.booking r).lease now id := by
  cases ho with
  | claimed _ hb _ _ hclaim => exact ⟨hb, _, hclaim.eq_lease_of_ok⟩

/-- An allocation ends in one of the listed ways. -/
theorem Broker.allocate_outcome {B : Broker σ} (h : B.ledger.Consistent) (o : Order)
    (listed : List Exporter) (now : Instant) (id : String) :
    AllocateOutcome B.ledger o listed now id (B.allocate o listed now id).1
      (B.allocate o listed now id).2.ledger := by
  unfold allocate SpanRange.check
  cases hs : Selector.parse o.selector with
  | error f =>
    obtain ⟨flaw, rfl⟩ := Selector.eq_of_parse_error hs
    exact .badSelector hs
  | ok s =>
    by_cases hb : o.span ∈ B.ledger.bounds
    · simp only [if_pos hb]
      cases hc : candidates s listed with
      | nil =>
        refine .noExporter hs hb fun r hr => ?_
        obtain ⟨e, he, -⟩ := eligible_iff.1 hr
        rw [hc] at he
        cases he
      | cons e es =>
        obtain ⟨hall, heq⟩ | ⟨before, e', after, hes, hbefore, he', heq⟩ :=
          claimFirst_split now id h hb (e :: es)
        · simp only [heq]
          refine .allLeased hs hb (eligible_iff.2 ⟨e, by simp [hc], rfl⟩) fun r hr => ?_
          obtain ⟨e', he', rfl⟩ := eligible_iff.1 hr
          rw [hc] at he'
          exact hall e' he'
        · simp only [heq]
          have chosen := chosen_of_split (hc.trans hes) hbefore he'
          exact .claimed hs hb chosen rfl (Ledger.claim_outcome h _ now id)
    · simp only [if_neg hb]
      exact .outOfRange hs hb

end LabLease
