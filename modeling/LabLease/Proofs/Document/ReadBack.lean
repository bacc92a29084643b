import LabLease.Inventory
import LabLease.Proofs.Command.Documents
import LabLease.Proofs.Failure.Steps
import LabLease.Proofs.Registry.History

/-!
# Documents that are read back

Leases, exporters and inventories are written as documents and read again, by this program and by
others. What is read is what was written, to the last character of every text: a record in either
written form of its document is read as the record (`Lease.ofJson?_toJson`,
`Exporter.ofJson?_toJson`, `Inventory.ofJson?_toJson`), although a lease without a name has no
member for it, and although readers put defaults in for members that are missing.

An inventory is refused all the same if its exporters do not have identifiers of their own
(`Inventory.Sound`), for its first flaw; what it shares with the registry that is filled from it is
that there no exporter replaces another. Main statement: `documents_meet`.
-/

namespace LabLease

open Json (Plain plain_ofFields Written)

/-! ## Records as objects -/

namespace Json

variable {names : List String} {fs : Fields}

/-- Of members that all name a field none is passed over. -/
theorem knownMembers_of_mem (h : ∀ f ∈ fs, f.1 ∈ names) :
    knownMembers names (fs.map fun (key, value) => (some key, value)) = fs := by
  induction fs with
  | nil => rfl
  | cons f fs ih =>
    obtain ⟨hf, hfs⟩ := List.forall_mem_cons.1 h
    have rest := ih hfs
    rw [knownMembers] at rest ⊢
    simp only [List.map_cons, List.filterMap_cons, if_pos hf, rest]

/-- An object whose members name fields, none of them twice, has those fields. -/
theorem fields?_ofFields (h : ∀ f ∈ fs, f.1 ∈ names) (hd : (fs.map (·.1)).Nodup) :
    (ofFields fs).fields? names = some fs := by
  have keyed : (fs.map fun (key, value) => (some key, value)).all (·.1.isSome) = true := by
    simp
  rw [ofFields, fields?]
  simp only [knownMembers_of_mem h, keyed, hd, and_self, if_true]

/-- A number of 64 bits is read back. -/
theorem toWord?_ofNat (n : UInt64) : toWord? (ofNat n.toNat) = some n := Text.word?_repr n

/-- A list is read back if each of its elements is. -/
theorem mapM_map_eq_some {α : Type} {write : α → Json} {read : Json → Option α}
    (h : ∀ a, read (write a) = some a) (as : List α) :
    (as.map write).mapM read = some as := by
  induction as with
  | nil => rfl
  | cons a as ih => simp [List.mapM_cons, h, ih]

end Json

/-! ## Leases, exporters and inventories -/

/-- A lease is read back from its document, with a name or without. -/
theorem Lease.ofJson?_toJson (l : Lease) : ofJson? l.toJson = some l := by
  obtain ⟨id, name, selector, exporter, status, createdAt, durationMs, expiresAt⟩ := l
  unfold ofJson? toJson
  rw [Json.fields?_ofFields]
  · cases name <;>
      simp [nameField, Json.field, Json.fieldOr, Json.toText?, Json.toOptionalText?, Json.ofText,
        Json.toWord?_ofNat, Status.ofJson?, List.lookup_cons]
  · cases name <;> simp [nameField, fieldNames]
  · cases name <;> simp [nameField]

/-- A map is filled again from its entries. -/
theorem KeyMap.ofList_entries {α : Type} (m : KeyMap α) : ofList m.entries = m := by
  have distinct : (m.entries.map (·.1)).Nodup := by
    rw [List.nodup_iff_pairwise_ne, List.pairwise_map]
    exact m.ascending.imp fun {a b} hlt (heq : a.1 = b.1) => String.lt_irrefl b.1 (heq ▸ hlt)
  refine ext_find? fun k => Option.ext fun v => ?_
  rw [find?_ofList_eq_some_iff distinct, find?_eq_some_iff]

/-- Labels are read back. -/
theorem Labels.ofJson?_toJson (labels : Labels) : ofJson? (toJson labels) = some labels := by
  have entries : (toJson labels).toEntries? = some labels.entries := by
    rw [toJson, Json.ofFields, Json.toEntries?]
    generalize labels.entries = es
    induction es with
    | nil => rfl
    | cons e es ih =>
      simp only [List.map_cons, List.mapM_cons, ih]
      rfl
  rw [ofJson?, entries, Option.map_some, KeyMap.ofList_entries]

/-- An exporter is read back from its document. -/
theorem Exporter.ofJson?_toJson (e : Exporter) : ofJson? e.toJson = some e := by
  unfold ofJson? toJson
  rw [Json.fields?_ofFields]
  · simp [Json.field, Json.fieldOr, Json.toText?, Json.ofText, Json.toBool?,
      Labels.ofJson?_toJson, List.lookup_cons]
  · simp [fieldNames]
  · simp

namespace Inventory

/-- The exporters of an inventory are read back, in their order. -/
theorem ofJson?_toJson (inv : Inventory) : ofJson? inv.toJson = some inv := by
  unfold ofJson? toJson
  rw [Json.fields?_ofFields]
  · simp [Json.fieldOr, Json.toList?, Json.mapM_map_eq_some Exporter.ofJson?_toJson]
  · simp
  · simp

end Inventory

theorem Exporter.plain_toJson (e : Exporter) : Plain e.toJson :=
  plain_ofFields (by simp [Labels.plain_toJson])

theorem Inventory.plain_toJson (inv : Inventory) : Plain inv.toJson := by
  have exporters : Plain (.array (inv.exporters.map Exporter.toJson)) :=
    .array (by simp [Exporter.plain_toJson])
  exact plain_ofFields (by simpa using exporters)

/-! ## Inventories with flaws -/

namespace Inventory

variable {es before after : List Exporter} {e : Exporter} {seen : List String} {flaw : ConfigFlaw}

/-- The exporters have identifiers, and each has its own. -/
structure Sound (es : List Exporter) : Prop where
  ne_empty : ∀ e ∈ es, e.id ≠ ""
  distinct : (es.map (·.id)).Nodup

/-- What is wrong with the first exporter that does not have an identifier of its own. -/
inductive FirstFlaw (es : List Exporter) : ConfigFlaw → Prop
  | empty {before after : List Exporter} {e : Exporter} (hes : es = before ++ e :: after)
      (hb : Sound before) (he : e.id = "") : FirstFlaw es .emptyExporterId
  | repeated {before after : List Exporter} {e : Exporter} (hes : es = before ++ e :: after)
      (hb : Sound before) (hne : e.id ≠ "") (he : e.id ∈ before.map (·.id)) :
      FirstFlaw es (.repeatedExporterId e.id)

/-- Exporters in front that are sound are passed over, and their identifiers kept in mind. -/
theorem flawAfter?_append (h : Sound before) (hs : ∀ e ∈ before, e.id ∉ seen)
    (es : List Exporter) :
    flawAfter? seen (before ++ es) = flawAfter? ((before.map (·.id)).reverse ++ seen) es := by
  induction before generalizing seen with
  | nil => rfl
  | cons e before ih =>
    obtain ⟨hne, hnes⟩ := List.forall_mem_cons.1 h.ne_empty
    obtain ⟨hnew, hd⟩ := List.nodup_cons.1 h.distinct
    obtain ⟨hse, hss⟩ := List.forall_mem_cons.1 hs
    have unseen : ∀ e' ∈ before, e'.id ∉ e.id :: seen := by
      intro e' he' hmem
      rcases List.mem_cons.1 hmem with hid | hmem
      · exact hnew (List.mem_map.2 ⟨e', he', hid⟩)
      · exact hss e' he' hmem
    rw [List.cons_append, flawAfter?, if_neg hne, if_neg hse, ih ⟨hnes, hd⟩ unseen]
    simp

/-- What comes behind exporters that are sound. -/
theorem flaw?_append (h : Sound before) (es : List Exporter) :
    flaw? ⟨before ++ es⟩ = flawAfter? (before.map (·.id)).reverse es := by
  rw [flaw?, flawAfter?_append h fun _ _ => List.not_mem_nil, List.append_nil]

/-- An inventory that is sound has no flaw. -/
theorem Sound.flaw?_eq (h : Sound es) : flaw? ⟨es⟩ = none := by
  have := flaw?_append h []
  rwa [List.append_nil] at this

/-- Any other has the first one. -/
theorem FirstFlaw.flaw?_eq (h : FirstFlaw es flaw) : flaw? ⟨es⟩ = some flaw := by
  cases h with
  | empty hes hb he => rw [hes, flaw?_append hb, flawAfter?, if_pos he]
  | repeated hes hb hne he =>
    rw [hes, flaw?_append hb, flawAfter?, if_neg hne, if_pos (List.mem_reverse.2 he)]

/-- One of the two it is. -/
theorem sound_or_firstFlaw (es : List Exporter) : Sound es ∨ ∃ flaw, FirstFlaw es flaw := by
  induction es using List.reverseRecOn with
  | nil => exact .inl ⟨List.forall_mem_nil _, .nil⟩
  | append_singleton es e ih =>
    obtain hes | ⟨flaw, hf⟩ := ih
    · by_cases he : e.id = ""
      · exact .inr ⟨_, .empty rfl hes he⟩
      by_cases hr : e.id ∈ es.map (·.id)
      · exact .inr ⟨_, .repeated rfl hes he hr⟩
      refine .inl ⟨?_, ?_⟩
      · simpa [or_imp, forall_and, he] using hes.ne_empty
      · rw [List.map_append, List.map_singleton, List.nodup_append]
        refine ⟨hes.distinct, List.nodup_singleton _, fun id hid id' hid' heq => hr ?_⟩
        rw [← List.mem_singleton.1 hid', ← heq]
        exact hid
    · refine .inr ⟨flaw, ?_⟩
      cases hf with
      | empty hes hb he => exact .empty (by rw [hes, List.append_assoc]; rfl) hb he
      | repeated hes hb hne he => exact .repeated (by rw [hes, List.append_assoc]; rfl) hb hne he

/-- What comes of reading an inventory that was written. -/
theorem parse_described {inv : Inventory} {complaint text : String}
    (hw : inv.toJson.Written text) :
    Described (parse complaint text) (fun inv' => inv' = inv ∧ Sound inv.exporters)
      fun f => ∃ flaw, f = .invalidConfig flaw ∧ FirstFlaw inv.exporters flaw := by
  have read : (Json.parse? text).bind ofJson? = some inv := by
    rw [inv.plain_toJson.parse?_written hw, Option.bind_some, ofJson?_toJson]
  refine .of_total ?_ ?_ ?_
  · rintro _ ⟨rfl, h⟩
    simp only [parse, read, h.flaw?_eq]
  · rintro _ ⟨flaw, rfl, h⟩
    simp only [parse, read, h.flaw?_eq]
  · obtain h | ⟨flaw, h⟩ := sound_or_firstFlaw inv.exporters
    · exact .inl ⟨inv, rfl, h⟩
    · exact .inr ⟨_, flaw, rfl, h⟩

end Inventory

/-! ## The registry of an inventory -/

/-- If the exporters of a list have identifiers of their own, its registry has each of them. -/
theorem Registry.find?_ofList_eq_some_iff {es : List Exporter} (hd : (es.map (·.id)).Nodup)
    {e : Exporter} : (ofList es).byId.find? e.id = some e ↔ e ∈ es := by
  rw [find?_ofList]
  constructor
  · intro h
    exact List.mem_reverse.1 (List.mem_of_find?_eq_some h)
  · intro he
    obtain ⟨e', he'⟩ : ∃ e', es.reverse.find? (·.id == e.id) = some e' := by
      rw [← Option.isSome_iff_exists, List.find?_isSome]
      exact ⟨e, List.mem_reverse.2 he, beq_self_eq_true _⟩
    have hmem : e' ∈ es := List.mem_reverse.1 (List.mem_of_find?_eq_some he')
    have hid : e'.id = e.id := by simpa using List.find?_some he'
    rw [he', List.inj_on_of_nodup_map hd hmem he hid]

/-- It lists exactly those. -/
theorem Registry.list_ofList_perm {es : List Exporter} (hd : (es.map (·.id)).Nodup) :
    (ofList es).list.Perm es := by
  have keyed : (ofList es).Keyed := (reachable_ofList es).keyed
  refine (List.perm_ext_iff_of_nodup keyed.nodup_list.of_map hd.of_map).2 fun e => ?_
  rw [keyed.mem_list_iff, get_eq_ok_iff, find?_ofList_eq_some_iff hd]

/-! ## What is read -/

/-- What should be read where a lease, an exporter or an inventory was written. -/
structure ReadBackSpec (l : Lease) (e : Exporter) (inv : Inventory) : Prop where
  /-- The lease. -/
  lease {text : String} (hw : l.toJson.Written text) :
    (Json.parse? text).bind Lease.ofJson? = some l
  /-- The exporter. -/
  exporter {text : String} (hw : e.toJson.Written text) :
    (Json.parse? text).bind Exporter.ofJson? = some e
  /-- The inventory, if its exporters have identifiers of their own, and nothing else. -/
  inventory {complaint text : String} (hw : inv.toJson.Written text) {inv' : Inventory} :
    Inventory.parse complaint text = .ok inv' ↔
      inv' = inv ∧ (∀ e ∈ inv.exporters, e.id ≠ "") ∧ (inv.exporters.map (·.id)).Nodup
  /-- Otherwise it is refused for its first flaw. -/
  refused {complaint text : String} (hw : inv.toJson.Written text) {f : Failure} :
    Inventory.parse complaint text = .error f ↔
      ∃ flaw, f = .invalidConfig flaw ∧ Inventory.FirstFlaw inv.exporters flaw
  /-- The registry of an inventory that was read lists its exporters, none of them lost, by the
  bytes of their identifiers. -/
  registry {complaint text : String} {inv' : Inventory} (hw : inv.toJson.Written text)
    (hr : Inventory.parse complaint text = .ok inv') :
    inv'.registry.list.Perm inv.exporters ∧
      inv'.registry.list.Pairwise fun a b => Text.bytes a.id.toList < Text.bytes b.id.toList

/-- Every lease and every exporter is read back from its document as it was. So is an inventory,
exactly if its exporters have identifiers of their own, and the registry filled from it lists all of
them. Reference: `Inventory.from_json` and `Inventory.into_registry`, §14. -/
theorem documents_meet (l : Lease) (e : Exporter) (inv : Inventory) : ReadBackSpec l e inv where
  lease hw := by rw [l.plain_toJson.parse?_written hw, Option.bind_some, l.ofJson?_toJson]
  exporter hw := by rw [e.plain_toJson.parse?_written hw, Option.bind_some, e.ofJson?_toJson]
  inventory {_ text} hw {inv'} := by
    rw [(Inventory.parse_described hw).ok_iff]
    exact and_congr_right' ⟨fun h => ⟨h.ne_empty, h.distinct⟩, fun ⟨hne, hd⟩ => ⟨hne, hd⟩⟩
  refused hw := (Inventory.parse_described hw).error_iff
  registry hw hr := by
    obtain ⟨rfl, sound⟩ := (Inventory.parse_described hw).ok_iff.1 hr
    exact ⟨Registry.list_ofList_perm sound.distinct,
      (Registry.reachable_ofList _).keyed.ascending_list⟩

end LabLease
