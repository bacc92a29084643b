import LabLease.Proofs.Broker.Listing

/-!
# What a registry knows of an exporter

A registry is a finite map: every record stands under its own identifier, the listing ascends
strictly, and look-ups, listing and size say the same. What it maps an identifier to is told by the
updates that were made to it. The record of an exporter is the one that it was last given, with the
flag that was last set since then (`Registry.Leaves`).

Only some updates settle what is known of an exporter, whatever was known before
(`Registry.Update.Settles`). All others leave its record as it is but for the flag, so that one more
update extends what is said of the updates before it (`Registry.leaves_concat_of_not_settles`).
Main statement: `Registry.after_meets`.
-/

namespace LabLease.Registry

open Service

variable {r : Registry} {u : Update} {us : List Update} {e e' : Exporter} {id : String}

namespace Update

/-- The record that an update gives an exporter. Of several in one list the last counts. -/
def given? (u : Update) (id : String) : Option Exporter :=
  match u with
  | .refresh exporters => exporters.reverse.find? (·.id == id)
  | .upsert e => if e.id = id then some e else none
  | .remove _ | .setOnline .. => none

/-- After the update it does not matter what was known of an exporter before. -/
def Settles (u : Update) (id : String) : Prop :=
  match u with
  | .refresh _ => True
  | .upsert e => e.id = id
  | .remove id' => id' = id
  | .setOnline .. => False

/-- The flag that an update sets for an exporter. -/
def flag? (u : Update) (id : String) : Option Bool :=
  match u with
  | .setOnline id' online => if id' = id then some online else none
  | .refresh _ | .upsert _ | .remove _ => none

/-- The exporter that an update names, if it is about a single one. -/
def named? : Update → Option String
  | .refresh _ => none
  | .upsert e => some e.id
  | .remove id | .setOnline id _ => some id

end Update

/-- The last flag that updates set for an exporter. -/
def lastFlag? (us : List Update) (id : String) : Option Bool :=
  (us.filterMap (·.flag? id)).getLast?

/-- What updates, the oldest first, leave of an exporter: one of them gave it a record, those since
then settled nothing, and the last of them that set its flag replaced that. -/
inductive Leaves (us : List Update) (id : String) : Exporter → Prop
  | of {before since : List Update} {u : Update} {given : Exporter}
      (hus : us = before ++ u :: since) (hu : u.given? id = some given)
      (hsince : ∀ u' ∈ since, ¬ u'.Settles id) :
      Leaves us id { given with online := (lastFlag? since id).getD given.online }

/-- The registry after updates, which knew no exporter at first. -/
def after (us : List Update) : Registry := us.foldl (fun r u => (u.apply r).2) empty

theorem after_concat (us : List Update) (u : Update) :
    after (us ++ [u]) = (u.apply (after us)).2 := by
  rw [after, List.foldl_concat, after]

theorem reachable_after (us : List Update) : (after us).Reachable := by
  induction us using List.reverseRecOn with
  | nil => exact .empty
  | append_singleton us u ih => exact after_concat us u ▸ .update ih u

/-! ## One update -/

/-- Putting in several records leaves the last with an identifier, or what there was. -/
theorem find?_foldl_upsert (r : Registry) (exporters : List Exporter) (id : String) :
    (exporters.foldl upsert r).byId.find? id =
      (exporters.reverse.find? (·.id == id)).or (r.byId.find? id) := by
  induction exporters generalizing r with
  | nil => rfl
  | cons e exporters ih =>
    rw [List.foldl_cons, ih, upsert, KeyMap.find?_insert, List.reverse_cons, List.find?_append,
      Option.or_assoc, List.find?_singleton]
    by_cases h : e.id = id <;> simp [h]

/-- A registry of a list has the last record with an identifier. -/
theorem find?_ofList (exporters : List Exporter) (id : String) :
    (ofList exporters).byId.find? id = exporters.reverse.find? (·.id == id) := by
  rw [ofList, find?_foldl_upsert]
  exact Option.or_none

/-- An update that settles what is known of an exporter leaves the record that it gives. -/
theorem find?_apply_of_settles (h : u.Settles id) :
    (u.apply r).2.byId.find? id = u.given? id := by
  cases u with
  | refresh exporters => exact find?_ofList exporters id
  | upsert e =>
    obtain rfl : e.id = id := h
    simp [Update.apply, Registry.upsert, Update.given?]
  | remove id' =>
    obtain rfl : id' = id := h
    simp [Update.apply, Registry.remove, KeyMap.find?_erase, Update.given?]
  | setOnline => exact h.elim

/-- Any other leaves what was known, but for the flag. -/
theorem find?_apply_of_not_settles (h : ¬ u.Settles id) : (u.apply r).2.byId.find? id =
    (r.byId.find? id).map fun e => { e with online := (u.flag? id).getD e.online } := by
  have kept : (r.byId.find? id).map (fun e => { e with online := e.online }) = r.byId.find? id :=
    Option.map_id'
  cases u with
  | refresh => exact absurd trivial h
  | upsert e =>
    have hne : e.id ≠ id := h
    simp [Update.apply, Registry.upsert, KeyMap.find?_insert, hne, Update.flag?, kept]
  | remove id' =>
    have hne : id' ≠ id := h
    simp [Update.apply, Registry.remove, KeyMap.find?_erase, hne, Update.flag?, kept]
  | setOnline id' online =>
    rw [Update.apply, setOnline, Update.flag?]
    by_cases hid : id' = id
    · subst hid
      cases he : r.byId.find? id' with
      | none => exact he
      | some e => simp
    · cases r.byId.find? id' with
      | none => simp [hid, kept]
      | some e => simp [hid, KeyMap.find?_insert, kept]

/-- An update that names another exporter settles nothing, and sets no flag. -/
theorem Update.flag?_eq_none {id' : String} (hu : u.named? = some id') (hne : id' ≠ id) :
    ¬ u.Settles id ∧ u.flag? id = none := by
  cases u with
  | refresh => cases hu
  | upsert | remove | setOnline =>
    cases hu
    simp [Settles, flag?, hne]

/-! ## Updates one after the other -/

theorem Update.settles_of_given? (h : u.given? id = some e) : u.Settles id := by
  cases u with
  | refresh => trivial
  | upsert e' =>
    rw [given?] at h
    split at h
    · next hid => exact hid
    · cases h
  | remove | setOnline => cases h

/-- What an update leaves that settles what is known is the record that it gives. -/
theorem leaves_concat_of_settles (h : u.Settles id) :
    Leaves (us ++ [u]) id e ↔ u.given? id = some e := by
  constructor
  · rintro @⟨before, since, u', given, hus, hu', hsince⟩
    obtain ⟨-, rfl, rfl⟩ | ⟨since, rfl, -⟩ := Ledger.concat_eq_append_cons hus
    · exact hu'
    · exact absurd h (hsince u (List.mem_append_right _ List.mem_cons_self))
  · exact fun hu => .of rfl hu (List.forall_mem_nil _)

theorem lastFlag?_concat (us : List Update) (u : Update) (id : String) :
    lastFlag? (us ++ [u]) id = (u.flag? id).or (lastFlag? us id) := by
  have last : ([u].filterMap (·.flag? id)).getLast? = u.flag? id := by
    cases hu : u.flag? id <;> simp [hu]
  rw [lastFlag?, List.filterMap_append, List.getLast?_append, last, lastFlag?]

/-- What any other update leaves is what those before it left, but for the flag. -/
theorem leaves_concat_of_not_settles (h : ¬ u.Settles id) : Leaves (us ++ [u]) id e ↔
    ∃ e', Leaves us id e' ∧ e = { e' with online := (u.flag? id).getD e'.online } := by
  have flags (since : List Update) (b : Bool) : (lastFlag? (since ++ [u]) id).getD b =
      (u.flag? id).getD ((lastFlag? since id).getD b) := by
    rw [lastFlag?_concat, Option.getD_or]
  constructor
  · rintro @⟨before, since, u', given, hus, hu', hsince⟩
    obtain ⟨-, rfl, -⟩ | ⟨since, rfl, rfl⟩ := Ledger.concat_eq_append_cons hus
    · exact absurd (Update.settles_of_given? hu') h
    · refine ⟨_, .of rfl hu' fun u'' hu'' => hsince u'' (List.mem_append_left _ hu''), ?_⟩
      rw [flags]
  · rintro ⟨_, @⟨before, since, u', given, rfl, hu', hsince⟩, rfl⟩
    have hus : (before ++ u' :: since) ++ [u] = before ++ u' :: (since ++ [u]) := by simp
    have hnone : ∀ u'' ∈ since ++ [u], ¬ u''.Settles id := by
      intro u'' hu''
      obtain hu'' | hu'' := List.mem_append.1 hu''
      · exact hsince u'' hu''
      · exact List.mem_singleton.1 hu'' ▸ h
    have leaves := Leaves.of hus hu' hnone
    rwa [flags] at leaves

/-- A registry knows of an exporter what the updates have left. -/
theorem find?_after_iff (us : List Update) :
    (after us).byId.find? id = some e ↔ Leaves us id e := by
  induction us using List.reverseRecOn generalizing e with
  | nil =>
    refine ⟨nofun, ?_⟩
    rintro ⟨hus, -, -⟩
    simp at hus
  | append_singleton us u ih =>
    rw [after_concat]
    by_cases h : u.Settles id
    · rw [find?_apply_of_settles h, leaves_concat_of_settles h]
    · rw [find?_apply_of_not_settles h, leaves_concat_of_not_settles h, Option.map_eq_some_iff]
      simp only [ih, eq_comm]

/-! ## The map -/

/-- A listing ascends by the bytes of the identifiers. -/
theorem Keyed.ascending_list (h : r.Keyed) :
    r.list.Pairwise fun a b => Text.bytes a.id.toList < Text.bytes b.id.toList := by
  rw [list, KeyMap.values, List.pairwise_map]
  refine r.byId.ascending.imp_of_mem fun {a b} ha hb hlt => ?_
  rw [h (KeyMap.find?_eq_some_iff.2 ha), h (KeyMap.find?_eq_some_iff.2 hb)]
  exact Text.bytes_lt_bytes hlt

/-- A look-up gives an element of the listing by its identifier. -/
theorem Keyed.get_eq_ok_iff_mem (h : r.Keyed) : r.get id = .ok e ↔ e ∈ r.list ∧ e.id = id := by
  constructor
  · intro he
    obtain rfl := h (get_eq_ok_iff.1 he)
    exact ⟨h.mem_list_iff.2 he, rfl⟩
  · rintro ⟨he, rfl⟩
    exact h.mem_list_iff.1 he

/-- A look-up fails in one way only. -/
theorem get_eq_error_iff {f : Failure} :
    r.get id = .error f ↔ f = .unknownExporter id ∧ ∀ e, r.get id ≠ .ok e := by
  rw [get]
  cases r.byId.find? id <;> simp [eq_comm]

/-- What a registry should be after some updates. -/
structure MapSpec (us : List Update) (r : Registry) : Prop where
  /-- Every record stands under its own identifier. -/
  keyed : r.Keyed
  /-- The listing ascends strictly by the bytes of the identifiers. -/
  ascending : r.list.Pairwise fun a b => Text.bytes a.id.toList < Text.bytes b.id.toList
  /-- A look-up gives what is listed with the identifier. -/
  get_ok_iff {id : String} {e : Exporter} : r.get id = .ok e ↔ e ∈ r.list ∧ e.id = id
  /-- If nothing is, it fails and says so. -/
  get_error_iff {id : String} {f : Failure} :
    r.get id = .error f ↔ f = .unknownExporter id ∧ ∀ e ∈ r.list, e.id ≠ id
  /-- The size is the length of the listing. -/
  size_eq : r.size = r.list.length
  /-- The record of an exporter is what the updates have left of it. -/
  record_iff {id : String} {e : Exporter} : r.get id = .ok e ↔ Leaves us id e
  /-- Setting the flag of an exporter that is not listed fails, and nothing has changed. -/
  refused {id : String} (h : ∀ e ∈ r.list, e.id ≠ id) (online : Bool) :
    (Update.setOnline id online).apply r = (.updated (.error (.unknownExporter id)), r)
  /-- For one that is listed it succeeds, and changes nothing else in the record. -/
  turned {id : String} {e : Exporter} (h : r.get id = .ok e) (online : Bool) :
    ((Update.setOnline id online).apply r).1 = .updated (.ok ()) ∧
      ((Update.setOnline id online).apply r).2.get id = .ok { e with online := online }
  /-- An update that names another exporter does not touch the record. -/
  others {u : Update} {id id' : String} (hu : u.named? = some id') (hne : id' ≠ id) :
    (u.apply r).2.get id = r.get id

/-- Whatever updates were made to a registry, it is a map that has for each exporter the record that
the updates tell. Reference: `InMemoryRegistry`, §4.1. -/
theorem after_meets (us : List Update) : MapSpec us (after us) := by
  have keyed : (after us).Keyed := (reachable_after us).keyed
  refine
    { keyed
      ascending := keyed.ascending_list
      get_ok_iff := keyed.get_eq_ok_iff_mem
      get_error_iff := fun {id f} => ?_
      size_eq := (List.length_map ..).symm
      record_iff := get_eq_ok_iff.trans (find?_after_iff us)
      refused := fun {id} h online => ?_
      turned := fun {id e} h online => ?_
      others := fun {u id id'} hu hne => ?_ }
  · rw [get_eq_error_iff]
    simp only [ne_eq, keyed.get_eq_ok_iff_mem, not_and]
  · have unknown : (after us).byId.find? id = none := by
      refine Option.eq_none_iff_forall_ne_some.2 fun e he => ?_
      obtain ⟨hmem, hid⟩ := keyed.get_eq_ok_iff_mem.1 (get_eq_ok_iff.2 he)
      exact h e hmem hid
    rw [Update.apply, setOnline, unknown]
  · have known := get_eq_ok_iff.1 h
    have unsettled : ¬ (Update.setOnline id online).Settles id := not_false
    refine ⟨by rw [Update.apply, setOnline, known], get_eq_ok_iff.2 ?_⟩
    rw [find?_apply_of_not_settles unsettled, known]
    simp [Update.flag?]
  · obtain ⟨hsettles, hflag⟩ := Update.flag?_eq_none hu hne
    rw [get, get, find?_apply_of_not_settles hsettles, hflag]
    cases (after us).byId.find? id <;> rfl

/-- Of two records in one list the last counts, and a flag that is set is gone with the next
record. -/
example : (after [.refresh [{ id := "e1" }, { id := "e2" }, { id := "e1", online := false }],
    .setOnline "e2" false, .upsert { id := "e2" }, .setOnline "e3" true]).list =
      [{ id := "e1", online := false }, { id := "e2" }] := by
  decide

end LabLease.Registry
