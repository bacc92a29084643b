import LabLease.KeyMap

/-!
# Exporters

An exporter is a leasable unit of lab hardware, known by its identifier and described by labels.
Which lease holds it is not part of it: that is for the ledger to know.
-/

namespace LabLease

/-- The labels of an exporter: at most one value per key, listed by key. -/
abbrev Labels := KeyMap String

/-- A leasable unit of lab hardware. Reference: `Resource`, §3. -/
structure Exporter where
  /-- Its identifier. -/
  id : String
  /-- What selectors are evaluated against. -/
  labels : Labels := KeyMap.empty
  /-- Whether it can be reached at present. -/
  online : Bool := true
deriving DecidableEq, Repr, Inhabited

namespace Exporter

/-- Exporters in ascending order of their identifiers; those that share one keep their order. -/
def sorted (exporters : List Exporter) : List Exporter :=
  exporters.mergeSort fun a b => decide (a.id ≤ b.id)

/-- Sorting loses and adds nothing. -/
theorem sorted_perm (exporters : List Exporter) : (sorted exporters).Perm exporters :=
  List.mergeSort_perm _ _

@[simp] theorem mem_sorted {e : Exporter} {exporters : List Exporter} :
    e ∈ sorted exporters ↔ e ∈ exporters :=
  List.mem_mergeSort

/-- A sorted list ascends by identifier. -/
theorem pairwise_sorted (exporters : List Exporter) :
    (sorted exporters).Pairwise (fun a b => a.id ≤ b.id) := by
  have trans : ∀ a b c : Exporter, decide (a.id ≤ b.id) = true → decide (b.id ≤ c.id) = true →
      decide (a.id ≤ c.id) = true := fun a b c hab hbc => by
    simp only [decide_eq_true_eq] at *
    exact String.le_trans hab hbc
  have total : ∀ a b : Exporter, (decide (a.id ≤ b.id) || decide (b.id ≤ a.id)) = true :=
    fun a b => by
      simp only [Bool.or_eq_true, decide_eq_true_eq]
      exact String.le_total _ _
  have h := List.pairwise_mergeSort trans total exporters
  exact h.imp fun h => of_decide_eq_true h

end Exporter

end LabLease
