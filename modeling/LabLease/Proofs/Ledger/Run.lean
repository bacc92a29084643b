import LabLease.Proofs.Ledger.Loading
import LabLease.Proofs.Ledger.Write

/-!
# Runs of a ledger

A ledger starts without records or is loaded from a store (`Ledger.Opened`), and then claims,
releases, expiries and sweeps follow in any order, at any clock readings, over a store that may
refuse any of the writes (`Ledger.Run`). The only rule is that a claim comes with an identifier
that the ledger does not know (`Ledger.Admits`).

Every run is a sequence of writes (`Run.writes`), so every ledger that a run leads to is
consistent, and `Run.tables_agree` spells out what that means: identifiers are distinct, both
look-up tables say what the records say, and no exporter has two leases that are not over.
-/

namespace LabLease.Ledger

variable {σ : Type} [LeaseStore σ] {L L' L₀ : Ledger σ}

/-- An element of a list that has grown by one at its end is the new one or stood there before. -/
theorem concat_eq_append_cons {α : Type} {as before after : List α} {a b : α}
    (h : as ++ [b] = before ++ a :: after) :
    (as = before ∧ b = a ∧ after = []) ∨
      ∃ after', after = after' ++ [b] ∧ as = before ++ a :: after' := by
  rcases List.eq_nil_or_concat' after with rfl | ⟨after', c, rfl⟩
  · obtain ⟨has, hb⟩ := List.append_inj' h rfl
    exact .inl ⟨has, (List.cons.inj hb).1, rfl⟩
  · rw [← List.cons_append, ← List.append_assoc] at h
    obtain ⟨has, hb⟩ := List.append_inj' h rfl
    exact .inr ⟨after', by rw [(List.cons.inj hb).1], has⟩

/-- What can be asked of a ledger that may change it. -/
inductive Action
  /-- Claim an exporter under a new identifier. -/
  | claim (b : Booking) (now : Instant) (id : String)
  /-- Give a lease back. -/
  | release (id : String) (now : Instant)
  /-- Record a lease as expired. -/
  | expire (id : String)
  /-- Record all leases that are due as expired. -/
  | sweep (now : Instant)
deriving DecidableEq, Repr

/-- The ledger after an action, whatever its answer. -/
def after (L : Ledger σ) : Action → Ledger σ
  | .claim b now id => (L.claim b now id).2
  | .release id now => (L.release id now).2
  | .expire id => (L.expire id).2
  | .sweep now => (L.sweep now).2

/-- A claim comes with an identifier that the ledger does not know. -/
def Admits (L : Ledger σ) : Action → Prop
  | .claim _ _ id => L.knows id = false
  | .release .. | .expire _ | .sweep _ => True

instance (L : Ledger σ) : (a : Action) → Decidable (L.Admits a)
  | .claim _ _ id => inferInstanceAs (Decidable (L.knows id = false))
  | .release .. | .expire _ | .sweep _ => inferInstanceAs (Decidable True)

/-- A ledger leads to another by a sequence of actions. -/
inductive Run : Ledger σ → List Action → Ledger σ → Prop
  | nil (L : Ledger σ) : Run L [] L
  | cons {L L' : Ledger σ} {a : Action} {as : List Action} (ha : L.Admits a)
      (h : Run (L.after a) as L') : Run L (a :: as) L'

/-- A ledger as it is made: without records over a store that has none, or with all records of a
store that are fit for a ledger. -/
inductive Opened : Ledger σ → Prop
  | blank {bounds : SpanRange} {store : σ} (h : LeaseStore.load store = .ok []) :
      Opened (.blank bounds store)
  | loaded {bounds : SpanRange} {store : σ} {L : Ledger σ} (h : ofStore bounds store = .ok L) :
      Opened L

/-- A ledger that some run leads to. -/
def Reachable (L : Ledger σ) : Prop := ∃ L₀ as, Opened L₀ ∧ Run L₀ as L

/-- A ledger is made consistent. -/
theorem Opened.consistent (h : L.Opened) : L.Consistent := by
  cases h with
  | blank => exact consistent_blank
  | loaded h => exact consistent_ofStore h

/-- An action is a sequence of writes. -/
theorem after_writes (h : L.Consistent) {a : Action} (ha : L.Admits a) : Writes L (L.after a) := by
  cases a with
  | claim b now id => exact (claim_outcome h b now id).writes ha
  | release id now => exact (release_outcome h id now).writes
  | expire id => exact (expire_outcome h id).writes
  | sweep now => exact expireAll_writes (L.due now) h

/-- A run is a sequence of writes. -/
theorem Run.writes {as : List Action} (hr : Run L as L') (h : L.Consistent) : Writes L L' := by
  induction hr with
  | nil => exact .refl
  | cons ha _ ih =>
    have first := after_writes h ha
    exact first.trans (ih (first.consistent h))

/-- A run can be prolonged. -/
theorem Run.append {as as' : List Action} {L'' : Ledger σ} (h : Run L as L') (h' : Run L' as' L'') :
    Run L (as ++ as') L'' := by
  induction h with
  | nil => exact h'
  | cons ha _ ih => exact .cons ha (ih h')

/-- Further actions lead from reachable ledgers to reachable ledgers. -/
theorem Reachable.run {as : List Action} (h : L.Reachable) (hr : Run L as L') : L'.Reachable := by
  obtain ⟨L₀, as₀, h₀, hr₀⟩ := h
  exact ⟨L₀, as₀ ++ as, h₀, hr₀.append hr⟩

/-- A ledger is reachable as soon as it is made. -/
theorem Opened.reachable (h : L.Opened) : L.Reachable := ⟨L, [], h, .nil L⟩

/-- Every ledger that a run leads to is consistent. -/
theorem Reachable.consistent (h : L.Reachable) : L.Consistent := by
  obtain ⟨L₀, as, h₀, hr⟩ := h
  exact (hr.writes h₀.consistent).consistent h₀.consistent

/-- Whatever was asked of a ledger and whichever writes failed, its tables say what its records say.
Identifiers are distinct, and the index maps exactly each of them to its position; an exporter is
held by a lease exactly if the record of that lease names it and is pending or active. So an
exporter has at most one such record, and looking for the record of a holder never misses.
Reference: `LedgerState`, §8. -/
theorem Run.tables_agree {as : List Action} (h₀ : L₀.Opened) (hr : Run L₀ as L) :
    (L.leases.map (·.id)).Nodup ∧
    (∀ id pos, L.index.find? id = some pos ↔ ∃ l, L.leases[pos]? = some l ∧ l.id = id) ∧
    (∀ exporter id, L.holders.find? exporter = some id ↔
      ∃ l ∈ L.leases, l.id = id ∧ l.exporter = exporter ∧
        (l.status = .pending ∨ l.status = .active)) ∧
    (∀ (i j : Nat) (l l' : Lease), L.leases[i]? = some l → L.leases[j]? = some l' →
      l.exporter = l'.exporter → (l.status = .pending ∨ l.status = .active) →
      (l'.status = .pending ∨ l'.status = .active) → i = j) ∧
    (∀ exporter id, L.holders.find? exporter = some id →
      ∃ pos l, L.index.find? id = some pos ∧ L.leases[pos]? = some l ∧ l.exporter = exporter) := by
  have h : L.Consistent := Reachable.consistent ⟨L₀, as, h₀, hr⟩
  simp only [← Status.isOver_eq_false_iff]
  refine ⟨h.nodup, fun _ _ => h.index_iff, fun _ _ => h.holders_iff, ?_, ?_⟩
  · intro i j l l' hl hl' he ho ho'
    exact h.pos_eq_of_exporter hl hl' he ho ho'
  · intro exporter id hh
    obtain ⟨pos, l, -, hl, hid, he, -⟩ := h.record?_holder hh
    exact ⟨pos, l, h.index_iff.2 ⟨l, hl, hid⟩, hl, he⟩

/-- A ledger over a store that refuses its third write. -/
def rehearsed : Ledger (FaultyStore MemoryStore) :=
  .blank ⟨.ofSecs 60, .ofSecs 3600⟩
    { label := "rehearsal"
      inner := .empty
      faultAt := fun n => if n = 2 then some (.device "disk full") else none }

/-- The third claim fails when it is to record the due holder as expired; the fourth succeeds. Then
the clock goes back for a release, and forward again for a sweep. -/
def rehearsal : List Action :=
  [.claim { exporter := "e1", span := .ofSecs 60 } 0 "a",
    .claim { exporter := "e2", span := .ofSecs 60 } 0 "b",
    .claim { exporter := "e1", span := .ofSecs 60 } 60000 "c",
    .claim { exporter := "e1", span := .ofSecs 60 } 60000 "d",
    .release "d" 59999,
    .sweep 60000,
    .claim { exporter := "e2", span := .ofSecs 60 } 0 "e"]

/-- The rehearsal is a run, and its ledger has two records for each exporter and one open one. -/
theorem Run.tables_agree_rehearsed :
    ∃ L, rehearsed.Opened ∧ Run rehearsed rehearsal L ∧
      L.leases.map (fun l => (l.id, l.status)) =
        [("a", .expired), ("b", .expired), ("d", .released), ("e", .active)] ∧
      (L.leases.map (·.id)).Nodup ∧
      (L.index.find? "e" = some 3 ↔ ∃ l, L.leases[3]? = some l ∧ l.id = "e") ∧
      (L.holders.find? "e2" = some "e" ↔ ∃ l ∈ L.leases, l.id = "e" ∧ l.exporter = "e2" ∧
        (l.status = .pending ∨ l.status = .active)) := by
  have h₀ : rehearsed.Opened := .blank rfl
  have hr : Run rehearsed rehearsal (rehearsal.foldl after rehearsed) :=
    .cons (by decide) <| .cons (by decide) <| .cons (by decide) <| .cons (by decide) <|
      .cons (by decide) <| .cons (by decide) <| .cons (by decide) <| .nil _
  obtain ⟨hn, hi, hh, -⟩ := Run.tables_agree h₀ hr
  exact ⟨_, h₀, hr, by decide, hn, hi "e" 3, hh "e2" "e"⟩

end LabLease.Ledger
