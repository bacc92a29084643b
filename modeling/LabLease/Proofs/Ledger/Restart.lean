import LabLease.Proofs.Ledger.Reload

/-!
# Restarts

A process may end at any moment, also between the two writes of a claim that takes over from a due
holder. What it leaves behind is what the store was after the last write. To speak of these moments
a ledger is run over a `Chronicle`, a store that remembers what it was after each write. An
operation does not look at its store other than by writing to it, so it does the same over a
chronicle as over the store itself (`after_map`), and `Ledger.moments` are those of the run itself.

At each of these moments the store holds records that make a ledger (`Writes.past`), since each
write leads from one consistent ledger to another. `Run.restarts` puts together what can be loaded
after a run and at each moment of it.
-/

namespace LabLease

open LeaseStore

/-- A store that remembers what it was after each write, whether or not it took it. -/
structure Chronicle (σ : Type) where
  /-- The store as it is now. -/
  store : σ
  /-- What it was after each write, the first one first. -/
  past : List σ

variable {σ τ : Type} [LeaseStore σ] [LeaseStore τ]

instance : LeaseStore (Chronicle σ) where
  load c := load c.store
  save c l := ((save c.store l).1, ⟨(save c.store l).2, c.past ++ [(save c.store l).2]⟩)
  describe c := describe c.store

/-- A chronicle keeps records as its store does. -/
theorem LeaseStore.Keeps.chronicle {holds : σ → List Lease → Prop} (hk : Keeps holds) :
    Keeps fun (c : Chronicle σ) ls => holds c.store ls where
  load h := hk.load h
  refused h hs := by
    injection hs with ha hs
    subst hs
    exact hk.refused h (Prod.ext ha rfl)
  closed h hn hl hs := by
    injection hs with ha hs
    subst hs
    exact hk.closed h hn hl (Prod.ext ha rfl)
  entered h hnew hs := by
    injection hs with ha hs
    subst hs
    exact hk.entered h hnew (Prod.ext ha rfl)

namespace Ledger

/-! ## Another store behind the same ledger -/

/-- The ledger over what `f` makes of its store. -/
def map (f : σ → τ) (L : Ledger σ) : Ledger τ := { L with store := f L.store }

section
variable {f : σ → τ} (hf : ∀ s l, save (f s) l = ((save s l).1, f (save s l).2))
include hf

theorem transition_map (L : Ledger σ) (pos : Nat) (l : Lease) (status : Status) :
    (L.map f).transition pos l status =
      ((L.transition pos l status).1, (L.transition pos l status).2.map f) := by
  have hs : save (L.map f).store { l with status := status } = _ := hf L.store _
  rw [transition, transition, hs]
  rcases save L.store { l with status := status } with ⟨_ | _, s⟩
  · rfl
  · rfl

theorem grant_map (L : Ledger σ) (b : Booking) (now : Instant) (id : String) :
    (L.map f).grant b now id = ((L.grant b now id).1, (L.grant b now id).2.map f) := by
  have hs : save (L.map f).store (b.lease now id) = _ := hf L.store _
  rw [grant_eq, grant_eq, hs]
  rcases save L.store (b.lease now id) with ⟨_ | _, s⟩
  · rfl
  · rfl

theorem claim_map (L : Ledger σ) (b : Booking) (now : Instant) (id : String) :
    (L.map f).claim b now id = ((L.claim b now id).1, (L.claim b now id).2.map f) := by
  have hb : (L.map f).bounds = L.bounds := rfl
  have hh : (L.map f).holders = L.holders := rfl
  have hr (id : String) : (L.map f).record? id = L.record? id := rfl
  simp only [claim, hb, hh, hr, transition_map hf, grant_map hf]
  cases L.bounds.check b.span with
  | error => rfl
  | ok =>
    dsimp only
    cases L.holders.find? b.exporter with
    | none => rfl
    | some holder =>
      dsimp only
      rcases L.record? holder with _ | ⟨pos, l⟩
      · rfl
      · dsimp only
        cases l.isDue now with
        | false => rfl
        | true =>
          -- A takeover: the second write starts from the store that the first one left.
          rcases L.transition pos l .expired with ⟨_ | _, L'⟩
          · rfl
          · exact grant_map hf L' b now id

theorem release_map (L : Ledger σ) (id : String) (now : Instant) :
    (L.map f).release id now = ((L.release id now).1, (L.release id now).2.map f) := by
  have hr : (L.map f).record? id = L.record? id := rfl
  simp only [release, hr, transition_map hf]
  rcases L.record? id with _ | ⟨pos, l⟩
  · rfl
  · dsimp only
    cases l.status.isOver with
    | true => rfl
    | false =>
      cases l.isDue now with
      | true => rcases L.transition pos l .expired with ⟨_ | _, L'⟩ <;> rfl
      | false => rcases L.transition pos l .released with ⟨_ | _, L'⟩ <;> rfl

theorem expire_map (L : Ledger σ) (id : String) :
    (L.map f).expire id = ((L.expire id).1, (L.expire id).2.map f) := by
  have hr : (L.map f).record? id = L.record? id := rfl
  simp only [expire, hr, transition_map hf]
  rcases L.record? id with _ | ⟨pos, l⟩
  · rfl
  · dsimp only
    cases l.status.isOver with
    | true => rfl
    | false => rcases L.transition pos l .expired with ⟨_ | _, L'⟩ <;> rfl

theorem expireAll_map (ids : List String) (L : Ledger σ) :
    ((L.map f).expireAll ids).2 = (L.expireAll ids).2.map f := by
  induction ids generalizing L with
  | nil => rfl
  | cons id ids ih => rw [expireAll_cons_snd, expireAll_cons_snd, expire_map hf, ih]

/-- An action does the same over either store. -/
theorem after_map (L : Ledger σ) (a : Action) : (L.map f).after a = (L.after a).map f := by
  cases a with
  | claim b now id => exact congrArg Prod.snd (claim_map hf L b now id)
  | release id now => exact congrArg Prod.snd (release_map hf L id now)
  | expire id => exact congrArg Prod.snd (expire_map hf L id)
  | sweep now => exact expireAll_map hf (L.due now) L

/-- A run over either store is a run over the other. -/
theorem Run.of_map {L : Ledger σ} {as : List Action} {M : Ledger τ} (hr : Run (L.map f) as M) :
    Run L as (as.foldl after L) ∧ (as.foldl after L).map f = M := by
  induction as generalizing L with
  | nil =>
    cases hr
    exact ⟨.nil L, rfl⟩
  | cons a as ih =>
    obtain _ | ⟨ha, hr⟩ := hr
    rw [after_map hf] at hr
    obtain ⟨hr', hM⟩ := ih hr
    have ha' : L.Admits a := by
      cases a with
      | claim => exact ha
      | release | expire | sweep => trivial
    exact ⟨.cons ha' hr', hM⟩

end

/-! ## Moments of a run -/

/-- The ledger over a chronicle that begins. -/
def watched (L : Ledger σ) : Ledger (Chronicle σ) := { L with store := ⟨L.store, []⟩ }

/-- What the store was after each write of a run, the first one first. -/
def moments (L : Ledger σ) (as : List Action) : List σ := (as.foldl after L.watched).store.past

variable {holds : σ → List Lease → Prop}

/-- A chronicle grows by what the store is after a write. -/
theorem Write.past_eq {L L' : Ledger (Chronicle σ)} (hw : Write L L') :
    L'.store.past = L.store.past ++ [L'.store.store] := by
  have grown {l : Lease} {a : Except StoreFault Unit} {c : Chronicle σ}
      (hs : save L.store l = (a, c)) : c.past = L.store.past ++ [c.store] := by
    cases hs
    rfl
  cases hw with
  | refused hs | closed _ _ _ hs | entered _ _ _ hs => exact grown hs

/-- After each write the store held the records of a consistent ledger. -/
theorem Writes.past (hk : Keeps holds) {L L' : Ledger (Chronicle σ)} (h : L.Consistent)
    (hh : holds L.store.store L.leases) (hnew : L.store.past = []) (hw : Writes L L') :
    ∀ s ∈ L'.store.past, ∃ ls, holds s ls ∧ Loadable ls := by
  induction hw with
  | refl => simp [hnew]
  | @tail L' L'' first hw ih =>
    have h' : L'.Consistent := Writes.consistent h first
    intro s hs
    rw [hw.past_eq, List.mem_append, List.mem_singleton] at hs
    obtain hs | rfl := hs
    · exact ih s hs
    · have held : holds L''.store.store L''.leases :=
        hw.held hk.chronicle h' (Writes.held hk.chronicle h hh first)
      exact ⟨L''.leases, held, (hw.consistent h').loadable⟩

variable {L L₀ : Ledger σ}

/-- A ledger is made with the records of its store. -/
theorem Opened.load_eq (h : L.Opened) : load L.store = .ok L.leases := by
  cases h with
  | blank h => exact h
  | loaded h => exact (kept_of_ofStore h).2.2

/-- A ledger over records in process memory, or over what stands for them and may refuse any write,
can be dropped after any action. What can be loaded from its store is what the ledger was, and has
the same look-up tables. Even at every single moment of the run, also between two writes of one
action, a ledger can be loaded, and no exporter has two open leases in it. Reference:
`LeaseLedger.with_store`, §14. -/
theorem Run.restarts {shows : σ → MemoryStore → Prop} (hs : Fronts shows) {records : List Lease}
    {as : List Action} (h₀ : L₀.Opened) (hm : shows L₀.store (.ofRecords records))
    (hr : Run L₀ as L) :
    load L.store = .ok L.leases ∧
    (∀ bounds, ofStore bounds L.store = .ok { L with bounds := bounds }) ∧
    (as.foldl after L₀.watched).map Chronicle.store = L ∧
    ∀ s ∈ L₀.moments as, ∀ bounds, ∃ M, ofStore bounds s = .ok M ∧
      ∀ (i j : Nat) (l l' : Lease), M.leases[i]? = some l → M.leases[j]? = some l' →
        l.exporter = l'.exporter → (l.status = .pending ∨ l.status = .active) →
        (l'.status = .pending ∨ l'.status = .active) → i = j := by
  have hleases : L₀.leases = (MemoryStore.ofRecords records).records := by
    have := hs.load hm
    rw [h₀.load_eq] at this
    exact Except.ok.inj this
  have held₀ : ∃ m, shows L₀.store m ∧ m.Holds L₀.leases :=
    ⟨_, hm, hleases ▸ MemoryStore.holds_ofRecords records⟩
  have held := (hr.writes h₀.consistent).held hs.keeps h₀.consistent held₀
  have consistent : L.Consistent := Reachable.consistent ⟨L₀, as, h₀, hr⟩
  -- The run over the store is a run over its chronicle, of which the store is the last moment.
  have run : Run (L₀.watched.map Chronicle.store) as L := hr
  obtain ⟨run', same⟩ := Run.of_map (f := Chronicle.store) (fun _ _ => rfl) run
  refine ⟨hs.keeps.load held, consistent.ofStore_eq hs.keeps held, same, ?_⟩
  intro s hmoment bounds
  have consistent₀ : L₀.watched.Consistent := h₀.consistent.withStore _
  obtain ⟨ls, hls, loadable⟩ :=
    (run'.writes consistent₀).past hs.keeps consistent₀ held₀ rfl s hmoment
  obtain ⟨M, hM⟩ : ∃ M, ofRecords bounds s ls = .ok M := ofRecords_isOk_iff.2 loadable
  refine ⟨M, by rw [ofStore, hs.keeps.load hls]; exact hM, ?_⟩
  simp only [← Status.isOver_eq_false_iff]
  intro i j l l' hl hl' he ho ho'
  exact (consistent_ofRecords hM).pos_eq_of_exporter hl hl' he ho ho'

/-- The rehearsal tries eight writes, of which the third fails. After the fourth the first lease has
expired, and the one that takes its place is not there yet; this can be loaded. -/
theorem Run.restarts_rehearsed :
    ∃ L s M, Run rehearsed rehearsal L ∧ load L.store = .ok L.leases ∧
      ofStore L.bounds L.store = .ok L ∧
      (rehearsed.moments rehearsal).map (fun s => s.inner.records.map (·.id)) =
        [["a"], ["a", "b"], ["a", "b"], ["a", "b"], ["a", "b", "d"], ["a", "b", "d"],
          ["a", "b", "d"], ["a", "b", "d", "e"]] ∧
      (rehearsed.moments rehearsal)[3]? = some s ∧
      s.inner.records.map (fun l => (l.id, l.status)) = [("a", .expired), ("b", .active)] ∧
      ofStore L.bounds s = .ok M := by
  have hr : Run rehearsed rehearsal (rehearsal.foldl after rehearsed) :=
    .cons (by decide) <| .cons (by decide) <| .cons (by decide) <| .cons (by decide) <|
      .cons (by decide) <| .cons (by decide) <| .cons (by decide) <| .nil _
  have empty : rehearsed.store.inner = .ofRecords [] ∧ rehearsed.store.loadFault = none :=
    ⟨rfl, rfl⟩
  obtain ⟨hload, hstore, -, hmoments⟩ := Run.restarts fronts_faulty (.blank rfl) empty hr
  have between : (rehearsed.moments rehearsal)[3]? = some (rehearsed.moments rehearsal)[3] := rfl
  obtain ⟨M, hM, -⟩ := hmoments _ (List.mem_of_getElem? between)
    (rehearsal.foldl after rehearsed).bounds
  exact ⟨_, _, M, hr, hload, hstore _, by decide, between, by decide, hM⟩

end Ledger

end LabLease
