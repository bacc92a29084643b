import LabLease.Proofs.Failure.Steps
import LabLease.Proofs.Store.Keeping
import LabLease.Proofs.Store.Taking
import Mathlib.Data.List.Nodup

/-!
# Tables keep records

A table reads as a list of leases if its rows do, one after the other (`leases_eq_ok_iff`). Saving a
lease whose identifier has a row overwrites three cells of the row, and the others read as before
(`Row.decode_updatedBy`, `LeaseTable.leases_of_save`). That is enough for a ledger, which gives a
lease another status and changes nothing else of it: so a table keeps what a ledger writes
(`keeps_table`).
-/

namespace LabLease

/-! ## Reading -/

namespace Cell

variable {c : Cell} {position : Nat} {column : String}

theorem readText_eq_ok_iff {s : String} : c.readText position column = .ok s ↔ c = .text s := by
  cases c <;> simp [readText]

theorem readTextOrNull_eq_ok_iff {s : Option String} :
    c.readTextOrNull position column = .ok s ↔ c = s.elim .null .text := by
  cases c <;> cases s <;> simp [readTextOrNull]

/-- An integer is read as the same number without a sign, unless it is below zero. -/
theorem readNumber_integer {i : Int64} : (integer i).readNumber position column =
    if i.toInt < 0 then .error (.backend (.columnRange i.toInt position)) else .ok i.toUInt64 := by
  have sign : i < 0 ↔ i.toInt < 0 := Int64.lt_iff_toInt_lt
  simp only [readNumber, sign]

/-- A number is read from an integer that is the same number. -/
theorem readNumber_eq_ok_iff {n : UInt64} :
    c.readNumber position column = .ok n ↔ ∃ i : Int64, c = .integer i ∧ i.toInt = n.toNat := by
  cases c with
  | integer i =>
    simp only [readNumber_integer, integer.injEq, exists_eq_left']
    split
    · next hneg =>
      constructor
      · intro h
        cases h
      · omega
    · next hpos =>
      have nonneg : 0 ≤ i := Int64.le_iff_toInt_le.2 (Int.not_lt.1 hpos)
      rw [Except.ok.injEq, ← UInt64.toNat_inj, Int64.toNat_toUInt64_of_le nonneg,
        Int64.toNatClampNeg]
      omega
  | null | real | text | malformed | blob => simp [readNumber]

end Cell

/-- A lease with the name, the status and the deadline of another. -/
def Lease.updatedBy (l new : Lease) : Lease :=
  { l with name := new.name, status := new.status, expiresAt := new.expiresAt }

namespace Row

variable {r : Row} {l : Lease}

/-- A row reads as a lease if each of its cells reads as the lease has it. -/
theorem decode_eq_ok_iff : r.decode = .ok l ↔
    r.status = .text l.status.text ∧ r.id = .text l.id ∧
    r.name.readTextOrNull 1 "name" = .ok l.name ∧
    r.selector = .text l.selector ∧ r.exporter = .text l.exporter ∧
    r.createdAt.readNumber 5 "created_at" = .ok l.createdAt ∧
    r.durationMs.readNumber 6 "duration_ms" = .ok l.durationMs ∧
    r.expiresAt.readNumber 7 "expires_at" = .ok l.expiresAt := by
  simp only [decode, bind_eq_ok_iff, Cell.readText_eq_ok_iff]
  constructor
  · rintro ⟨status, hs, id, hid, name, hn, selector, hse, exporter, he, c, hc, d, hd, x, hx, h⟩
    split at h
    · cases h
    · next st hst =>
      cases h
      rw [Status.ofText?_eq_some_iff.1 hst] at hs
      exact ⟨hs, hid, hn, hse, he, hc, hd, hx⟩
  · rintro ⟨hs, hid, hn, hse, he, hc, hd, hx⟩
    refine ⟨_, hs, _, hid, _, hn, _, hse, _, he, _, hc, _, hd, _, hx, ?_⟩
    rw [Status.ofText?_text]

/-- A row into which a lease was written reads as the row's own lease with what was written. -/
theorem decode_updatedBy {new : Lease} (h : r.decode = .ok l) (hf : LeaseTable.fits new = true) :
    (r.updatedBy (ofLease new)).decode = .ok (l.updatedBy new) := by
  obtain ⟨-, hid, -, hse, he, hc, hd, -⟩ := decode_eq_ok_iff.1 h
  obtain ⟨hs', -, hn', -, -, -, -, hx'⟩ := decode_eq_ok_iff.1 (LeaseTable.decode_ofLease hf)
  exact decode_eq_ok_iff.2 ⟨hs', hid, hn', hse, he, hc, hd, hx'⟩

end Row

namespace LeaseTable

variable {t t' : LeaseTable} {ls : List Lease} {l : Lease}

theorem leases_eq_ok_iff :
    t.leases = .ok ls ↔ List.Forall₂ (fun r l => r.decode = .ok l) t.rows ls :=
  mapM_eq_ok_iff

/-- A row has the identifier of a lease exactly if what it reads as has. -/
theorem any_id_eq (h : t.leases = .ok ls) (id : String) :
    t.rows.any (·.id == .text id) = ls.any (·.id == id) := by
  obtain ⟨rows⟩ := t
  have h : List.Forall₂ (fun r l => r.decode = .ok l) rows ls := leases_eq_ok_iff.1 h
  induction h with
  | nil => rfl
  | cons hr _ ih =>
    rw [List.any_cons, List.any_cons, ih (leases_eq_ok_iff.2 ‹_›), (Row.decode_eq_ok_iff.1 hr).2.1]
    simp [beq_eq_decide]

/-! ## Saving -/

/-- Writing a lease into all rows with its identifier writes it into what those rows read as. -/
theorem forall₂_updatedBy {rows : List Row}
    (h : List.Forall₂ (fun r l => r.decode = .ok l) rows ls) (hf : fits l = true) :
    List.Forall₂ (fun r l => r.decode = .ok l)
      (rows.map fun r => if r.id = .text l.id then r.updatedBy (.ofLease l) else r)
      (ls.map fun l' => if l'.id = l.id then l'.updatedBy l else l') := by
  induction h with
  | nil => exact .nil
  | @cons r l' _ _ hr _ ih =>
    refine .cons ?_ ih
    beta_reduce
    simp only [(Row.decode_eq_ok_iff.1 hr).2.1, Cell.text.injEq]
    split
    · exact Row.decode_updatedBy hr hf
    · exact hr

/-- Saving a lease that fits in the table. -/
theorem save_of_fits (hf : fits l = true) : t.save l =
    if t.rows.any (·.id == .text l.id) then
      .ok ⟨t.rows.map fun r => if r.id = .text l.id then r.updatedBy (.ofLease l) else r⟩
    else .ok ⟨t.rows ++ [.ofLease l]⟩ := by
  rw [save, hf]
  rfl

/-- A lease that was saved fits in the table. -/
theorem fits_of_save (hs : t.save l = .ok t') : fits l = true := by
  rw [save] at hs
  split at hs
  · cases hs
  · next hf => simpa using hf

/-- Saving a lease writes it into what the table reads as. -/
theorem leases_of_save (h : t.leases = .ok ls) (hs : t.save l = .ok t') :
    t'.leases = .ok (savedInto Lease.updatedBy ls l) := by
  have hf : fits l = true := fits_of_save hs
  have hrows := leases_eq_ok_iff.1 h
  rw [save_of_fits hf, any_id_eq h] at hs
  rw [savedInto, leases_eq_ok_iff]
  split at hs
  · next hid =>
    cases hs
    rw [if_pos hid]
    exact forall₂_updatedBy hrows hf
  · next hid =>
    cases hs
    rw [if_neg hid]
    exact List.rel_append hrows (.cons (decode_ofLease hf) .nil)

end LeaseTable

namespace LeaseStore

/-- A table that takes a lease saves it. -/
theorem save_table_of_ok {s s' : TableStore} {l : Lease} (hs : save s l = (.ok (), s')) :
    s.table.save l = .ok s'.table := by
  simp only [save] at hs
  split at hs
  · cases hs
  · next t ht =>
    split at hs
    · cases hs
    · cases hs
      exact ht

/-- A table writes leases into its records. -/
theorem savesInto_table :
    SavesInto (fun (s : TableStore) ls => s.table.leases = .ok ls) Lease.updatedBy where
  load h := h
  refused h hs := (careful_table hs).trans h
  saved h hs := LeaseTable.leases_of_save h (save_table_of_ok hs)

/-- A table keeps records. -/
theorem keeps_table : Keeps fun (s : TableStore) ls => s.table.leases = .ok ls :=
  savesInto_table.keeps fun _ _ => rfl

end LeaseStore

end LabLease
