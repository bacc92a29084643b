import LabLease.Proofs.Broker.Bookings
import LabLease.Proofs.Selector.Grammar
import Mathlib.Data.List.Induction

/-!
# Listing leases under a selector

A selector is matched against labels in two places. An allocation goes through the exporters that
the registry lists; a listing of leases makes a map of them, and looks up the exporter of each
lease. In a registry that updates lead to every record stands under its own identifier
(`Registry.Reachable.keyed`), so no identifier is listed twice and the map says of an exporter what
the registry says of it (`Ledger.list_eq_filter`).

Main statement: a listing under a selector selects exactly the leases whose exporters satisfy it,
and what was allocated under a selector is listed under it (`Broker.Reachable.list_meets`).
-/

namespace LabLease

open Service

/-! ## Maps of lists -/

/-- If no key stands twice in a list, its map has exactly the entries of the list. -/
theorem KeyMap.find?_ofList_eq_some_iff {α : Type} {es : List (String × α)} {k : String} {v : α}
    (h : (es.map (·.1)).Nodup) : (ofList es).find? k = some v ↔ (k, v) ∈ es := by
  induction es using List.reverseRecOn with
  | nil => simp [ofList]
  | append_singleton es e ih =>
    obtain ⟨k', v'⟩ := e
    have last : ofList (es ++ [(k', v')]) = (ofList es).insert k' v' := by
      simp [ofList, List.foldl_append]
    rw [List.map_append, List.nodup_append] at h
    obtain ⟨hes, -, hne⟩ := h
    rw [last, find?_insert, List.mem_append, List.mem_singleton, Prod.mk.injEq]
    split
    · next hk =>
      subst hk
      have absent : (k', v) ∉ es := fun hmem =>
        hne k' (List.mem_map_of_mem hmem) k' (List.mem_singleton_self _) rfl
      simp [absent, eq_comm]
    · next hk => simp [ih hes, Ne.symm hk]

/-! ## Registries -/

namespace Registry

variable {r : Registry} {e : Exporter} {s : Selector} {id : String}

/-- A registry that updates lead to. -/
inductive Reachable : Registry → Prop
  | empty : Reachable Registry.empty
  | update {r : Registry} (h : Reachable r) (u : Update) : Reachable (u.apply r).2

/-- Every record stands under its own identifier. -/
def Keyed (r : Registry) : Prop :=
  ∀ ⦃id : String⦄ ⦃e : Exporter⦄, r.byId.find? id = some e → e.id = id

theorem keyed_empty : Registry.empty.Keyed := nofun

/-- Putting in one record. -/
theorem Keyed.upsert (h : r.Keyed) (e : Exporter) : (r.upsert e).Keyed := by
  intro id e' he'
  rw [Registry.upsert, KeyMap.find?_insert] at he'
  split at he'
  · next hid =>
    cases he'
    exact hid
  · exact h he'

/-- Putting in several. -/
theorem Keyed.foldl_upsert (h : r.Keyed) (exporters : List Exporter) :
    (exporters.foldl Registry.upsert r).Keyed := by
  induction exporters generalizing r with
  | nil => exact h
  | cons e exporters ih => exact ih (h.upsert e)

/-- Taking out a record. -/
theorem Keyed.remove (h : r.Keyed) (id : String) : (r.remove id).2.Keyed := by
  intro id' e he
  rw [Registry.remove, KeyMap.find?_erase] at he
  split at he
  · cases he
  · exact h he

/-- Every registry that updates lead to is keyed. -/
theorem Reachable.keyed (h : r.Reachable) : r.Keyed := by
  induction h with
  | empty => exact keyed_empty
  | @update r _ u ih =>
    cases u with
    | refresh exporters => exact keyed_empty.foldl_upsert exporters
    | upsert e => exact ih.upsert e
    | remove id => exact ih.remove id
    | setOnline id online =>
      rw [Update.apply, setOnline]
      cases he : r.byId.find? id with
      | none => exact ih
      | some e =>
        -- The record that is put in is that of the exporter, so this is one more `upsert`.
        obtain rfl := ih he
        exact ih.upsert { e with online := online }

/-- A registry of a list of exporters is one that an update leads to. -/
theorem reachable_ofList (exporters : List Exporter) : (ofList exporters).Reachable :=
  .update .empty (.refresh exporters)

/-- What is got is what stands under the identifier. -/
theorem get_eq_ok_iff : r.get id = .ok e ↔ r.byId.find? id = some e := by
  rw [get]
  cases r.byId.find? id <;> simp

/-- Listed are the records that are got under their identifiers. -/
theorem Keyed.mem_list_iff (h : r.Keyed) : e ∈ r.list ↔ r.get e.id = .ok e := by
  rw [get_eq_ok_iff, list, KeyMap.values, List.mem_map]
  constructor
  · rintro ⟨⟨id, e⟩, hmem, rfl⟩
    have he := KeyMap.find?_eq_some_iff.2 hmem
    rwa [h he]
  · exact fun he => ⟨(e.id, e), KeyMap.find?_eq_some_iff.1 he, rfl⟩

/-- No exporter is listed twice. -/
theorem Keyed.nodup_list (h : r.Keyed) : (r.list.map (·.id)).Nodup := by
  have keys : r.list.map (·.id) = r.byId.entries.map (·.1) := by
    rw [list, KeyMap.values, List.map_map]
    exact List.map_congr_left fun x hx => h (KeyMap.find?_eq_some_iff.2 hx)
  rw [keys, List.nodup_iff_pairwise_ne, List.pairwise_map]
  exact r.byId.ascending.imp fun {a b} hlt (heq : a.1 = b.1) => String.lt_irrefl b.1 (heq ▸ hlt)

/-- The registry has the exporter, with labels that satisfy every clause. -/
def Satisfies (r : Registry) (s : Selector) (id : String) : Prop :=
  ∃ e, r.get id = .ok e ∧ ∀ c ∈ s.clauses, e.labels.find? c.key = some c.value

instance (r : Registry) (s : Selector) (id : String) : Decidable (r.Satisfies s id) :=
  match h : r.get id with
  | .error _ => .isFalse (by simp [Satisfies, h])
  | .ok e => decidable_of_iff (s.holds e.labels = true) (by simp [Satisfies, h, Selector.holds_iff])

/-- It is listed with such labels. -/
theorem Keyed.satisfies_iff (h : r.Keyed) :
    r.Satisfies s id ↔ ∃ e ∈ r.list, e.id = id ∧ s.holds e.labels = true := by
  simp only [Satisfies, Selector.holds_iff]
  constructor
  · rintro ⟨e, he, hlabels⟩
    obtain rfl := h (get_eq_ok_iff.1 he)
    exact ⟨e, h.mem_list_iff.2 he, rfl, hlabels⟩
  · rintro ⟨e, he, rfl, hlabels⟩
    exact ⟨e, h.mem_list_iff.1 he, hlabels⟩

end Registry

/-! ## Listings -/

variable {σ : Type} {B : Broker σ} {L : Ledger σ} {registry : Registry} {s : Selector}
  {text : String} {l : Lease} {now : Instant}

/-- A selector that demands something selects the leases on exporters that satisfy it. -/
theorem Ledger.list_eq_filter (h : registry.Keyed) (hs : s.isEmpty = false) :
    L.list s registry.list = L.leases.filter (registry.Satisfies s ·.exporter) := by
  rw [list, if_neg (by simp [hs])]
  refine List.filter_congr fun l _ => ?_
  have hnodup : ((registry.list.map fun e => (e.id, s.holds e.labels)).map (·.1)).Nodup := by
    rw [List.map_map]
    exact h.nodup_list
  have found : (KeyMap.ofList (registry.list.map fun e => (e.id, s.holds e.labels))).find?
      l.exporter = some true ↔ registry.Satisfies s l.exporter := by
    rw [KeyMap.find?_ofList_eq_some_iff hnodup, h.satisfies_iff]
    simp
  rw [Bool.eq_iff_iff, decide_eq_true_iff, ← found, Option.getD_eq_iff]
  simp

/-- A listing under a selector shows what the ledger selects. -/
theorem Broker.list_eq_ok {listed : List Exporter} (hs : Selector.parse text = .ok s) :
    B.list (some text) listed now = .ok ((B.ledger.list s listed).map (·.observedAt now)) := by
  rw [list, Selector.parseOptional, hs]

/-- What leases are selected by does not hang on how they are shown. -/
theorem Broker.list_eq_filter (h : registry.Keyed) (hs : Selector.parse text = .ok s)
    (hne : s.isEmpty = false) : B.list (some text) registry.list now =
      .ok ((B.ledger.leases.map (·.observedAt now)).filter (registry.Satisfies s ·.exporter)) := by
  rw [list_eq_ok hs, Ledger.list_eq_filter h hne, List.filter_map]
  simp only [Function.comp_def, Lease.observedAt_exporter]

/-- A listing fails exactly if its selector is refused, and in the same way. -/
theorem Broker.list_eq_error_iff {listed : List Exporter} {f : Failure} :
    B.list (some text) listed now = .error f ↔ Selector.parse text = .error f := by
  rw [list, Selector.parseOptional]
  cases Selector.parse text <;> simp

/-- A lease on an exporter that satisfies a selector is listed under it until its deadline. -/
theorem Broker.exists_list_of_satisfies (h : registry.Keyed) (hs : Selector.parse text = .ok s)
    (hl : l ∈ B.ledger.leases) (hr : registry.Satisfies s l.exporter) (hlive : now < l.expiresAt) :
    ∃ ls, B.list (some text) registry.list now = .ok ls ∧ l ∈ ls := by
  have shown : l ∈ B.ledger.leases.map (·.observedAt now) := by
    refine List.mem_map.2 ⟨l, hl, Lease.observedAt_of_not_isDue fun hd => ?_⟩
    exact absurd (Lease.isDue_iff.1 hd).2 (UInt64.not_le.2 hlive)
  cases hne : s.isEmpty with
  | false => exact ⟨_, list_eq_filter h hs hne, List.mem_filter.2 ⟨shown, decide_eq_true hr⟩⟩
  | true =>
    refine ⟨_, list_eq_ok hs, ?_⟩
    rwa [Ledger.list, if_pos hne]

variable [LeaseStore σ]

/-- What a listing of leases shows, for a broker with a registry. -/
structure Broker.ListSpec (B : Broker σ) (registry : Registry) (now : Instant) : Prop where
  /-- Without a selector it shows all leases, oldest first and as they are at the time. -/
  all : B.list none registry.list now = .ok (B.ledger.leases.map (·.observedAt now))
  /-- With a blank one it shows the same, leases on unknown exporters among them. -/
  blank {text : String} (hb : ∀ ch ∈ text.toList, Text.isBlank ch = true) :
    B.list (some text) registry.list now = B.list none registry.list now
  /-- With any other one it shows those whose exporters are in the registry with such labels. -/
  selected {text : String} {s : Selector} {ls : List Lease} (hs : Selector.parse text = .ok s)
    (hb : ¬ ∀ ch ∈ text.toList, Text.isBlank ch = true)
    (hall : B.list none registry.list now = .ok ls) :
    B.list (some text) registry.list now = .ok (ls.filter (registry.Satisfies s ·.exporter))
  /-- It fails exactly if the text is no selector. -/
  fails_iff {text : String} : (∃ f, B.list (some text) registry.list now = .error f) ↔
    ¬ ∃ s, Selector.parse text = .ok s
  /-- The failure says so. -/
  invalid {text : String} {f : Failure} (h : B.list (some text) registry.list now = .error f) :
    ∃ flaw, f = .invalidSelector text flaw
  /-- A lease that is granted keeps the text of the order, which is a selector, and until its
  deadline it is listed as active under it. -/
  granted {o : Order} {id : String} {l : Lease}
    (h : (B.allocate o registry.list now id).1 = .ok l) :
    l.selector = o.selector ∧ (∃ s, Selector.parse l.selector = .ok s) ∧
    ∀ later < l.expiresAt, ∃ ls,
      (B.allocate o registry.list now id).2.list (some l.selector) registry.list later = .ok ls ∧
      l ∈ ls ∧ l.status = .active

/-- A lease that is granted is on an exporter that satisfies the selector of the order. -/
theorem AllocateOutcome.satisfies_of_ok {o : Order} {id : String} {L' : Ledger σ}
    (ho : AllocateOutcome L o registry.list now id (.ok l) L') (h : registry.Keyed) :
    l.selector = o.selector ∧ l.status = .active ∧
      ∃ s, Selector.parse o.selector = .ok s ∧ registry.Satisfies s l.exporter := by
  cases ho with
  | claimed hs _ hc _ hclaim =>
    obtain rfl := hclaim.eq_lease_of_ok
    obtain ⟨e, he, hid, -, hlabels⟩ := hc.eligible
    exact ⟨rfl, rfl, _, hs, h.satisfies_iff.2 ⟨e, he, hid, hlabels⟩⟩

/-- For every broker as it may be found at any time, every registry that updates lead to and every
clock reading, a listing shows all leases if its selector is blank, and otherwise those on exporters
whose labels satisfy it now; a lease that was granted is listed under its own selector until its
deadline. Reference: `LeaseBroker.list`, §4.5 and §8. -/
theorem Broker.Reachable.list_meets (h : B.Reachable) (hr : registry.Reachable) (now : Instant) :
    B.ListSpec registry now where
  all := rfl
  blank {text} hb := by
    rw [list_eq_ok ((Selector.parse_described text).ok_iff.2 (.blank hb))]
    rfl
  selected {text s ls} hs hb hall := by
    cases hall
    refine list_eq_filter hr.keyed hs (Bool.eq_false_iff.2 ?_)
    rwa [ne_eq, ((Selector.parse_described text).ok_iff.1 hs).isEmpty_iff]
  fails_iff {text} := by
    simp only [list_eq_error_iff]
    cases Selector.parse text <;> simp
  invalid hf := Selector.eq_of_parse_error (list_eq_error_iff.1 hf)
  granted {o id l} hok := by
    have ho := allocate_outcome h.consistent o registry.list now id
    rw [hok] at ho
    obtain ⟨hmem, -⟩ := ho.mem_of_ok h.consistent
    obtain ⟨hsel, hactive, s, hs, hsat⟩ := ho.satisfies_of_ok hr.keyed
    refine ⟨hsel, ⟨s, hsel ▸ hs⟩, fun later hlive => ?_⟩
    obtain ⟨ls, hls, hl⟩ := exists_list_of_satisfies hr.keyed (hsel ▸ hs) hmem hsat hlive
    exact ⟨ls, hls, hl, hactive⟩

namespace Broker

/-- A lease on an exporter that is not known. -/
def strayLease : Lease := { minuteLease with exporter := "e9" }

/-- The stray lease is listed under a blank selector, and under no other. The board that is then
leased is listed under the selector of its order, up to its deadline. -/
theorem list_meets_stray :
    let B := withLease strayLease (MemoryStore.ofRecords [strayLease])
    let registry := Registry.ofList [board "e1" true]
    B.Reachable ∧ registry.Reachable ∧ B.ListSpec registry 30000 ∧
    B.list (some " ") registry.list 30000 = .ok [strayLease] ∧
    B.list (some "type=board") registry.list 30000 = .ok [] ∧
    (B.allocate boardOrder registry.list 30000 "b").1 = .ok (boardLease "b" 30000) ∧
    ∃ ls, (B.allocate boardOrder registry.list 30000 "b").2.list (some "type=board")
      registry.list 89999 = .ok ls ∧ boardLease "b" 30000 ∈ ls := by
  intro B registry
  have reachable : B.Reachable := reachable_withLease rfl rfl
  have known : registry.Reachable := Registry.reachable_ofList _
  have spec : B.ListSpec registry 30000 := Broker.Reachable.list_meets reachable known 30000
  have answer : (B.allocate boardOrder registry.list 30000 "b").1 = .ok (boardLease "b" 30000) := by
    rw [show registry.list = [board "e1" true] from rfl, allocate_board B (by decide)]
    rfl
  obtain ⟨-, -, listed⟩ := spec.granted answer
  obtain ⟨ls, hls, hl, -⟩ := listed 89999 (by decide)
  exact ⟨reachable, known, spec, by decide, by decide, answer, ls, hls, hl⟩

end Broker

end LabLease
