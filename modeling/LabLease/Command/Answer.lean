import LabLease.Command
import LabLease.Document

/-!
# Answers to commands

Every command is answered by one envelope: a document that says whether the command succeeded, and
carries data if it did and an error text if it did not. The error text runs from what was being
done down to the innermost cause. A failure of the broker also carries its code; a request that was
turned down before it reached the broker has none.
-/

namespace LabLease

/-- Why a command failed. -/
inductive Refusal
  /-- The request was turned down before it reached the broker. -/
  | request (flaw : RequestFlaw)
  /-- The broker failed, or could not be assembled, while `doing` went on. -/
  | failure (doing : List String) (cause : Failure)
deriving DecidableEq, Repr

namespace Refusal

/-- The code of a refusal, if it has one. -/
def code? : Refusal → Option String
  | .request _ => none
  | .failure _ cause => some cause.code

/-- A refusal in words. -/
def message : Refusal → String
  | .request flaw => flaw.message
  | .failure doing cause => cause.chain doing

end Refusal

/-- What is printed in answer to a command. Reference: `ApiResponse`. -/
structure Envelope where
  /-- Whether the command succeeded. -/
  success : Bool
  /-- What it gave. -/
  data : Option Json
  /-- The code of its failure. -/
  code : Option String
  /-- What went wrong. -/
  error : Option String
deriving Repr

namespace Envelope

/-- The envelope of a success. Reference: `ApiResponse.ok`. -/
def ofData (data : Json) : Envelope := ⟨true, some data, none, none⟩

/-- The envelope of a refusal. Reference: `ApiResponse.err`, by `print_failure`. -/
def ofRefusal (r : Refusal) : Envelope := ⟨false, none, r.code?, some r.message⟩

/-- The member for a value, if there is one. -/
def member (key : String) : Option Json → Json.Fields
  | none => []
  | some v => [(key, v)]

/-- An envelope as a document; what it does not have has no member. -/
def toJson (e : Envelope) : Json :=
  .ofFields <|
    [("success", .bool e.success)] ++ member "data" e.data ++
      member "kind" (e.code.map .ofText) ++ member "error" (e.error.map .ofText)

end Envelope

namespace Lease

/-- A lease as it is reported: its length in whole minutes, its name only if it has one. Reference:
`LeaseResponse`. -/
def report (l : Lease) : Json :=
  .ofFields <|
    [("lease_id", .ofText l.id)] ++ nameField "lease_name" l.name ++
    [("selector", .ofText l.selector), ("exporter", .ofText l.exporter),
      ("state", .ofText l.status.text), ("duration_minutes", .ofNat l.span.minutes),
      ("created_at", .ofNat l.createdAt.toNat), ("expires_at", .ofNat l.expiresAt.toNat)]

end Lease

/-- Leases as they are reported. -/
def reportLeases (leases : List Lease) : Json := .array (leases.map Lease.report)

/-- A number of leases that were recorded as expired. Reference: `SweepResponse`. -/
def reportExpired (expired : Nat) : Json := .ofFields [("expired", .ofNat expired)]

/-- A program's name and version. Reference: `VersionResponse`. -/
def reportVersion (name version : String) : Json :=
  .ofFields [("name", .ofText name), ("version", .ofText version)]

namespace ExporterInfo

/-- The listing of an exporter as a document. -/
def toJson (e : ExporterInfo) : Json :=
  .ofFields <|
    [("id", .ofText e.id), ("labels", Labels.toJson e.labels)] ++
      Envelope.member "online" (e.online.map .bool) ++
      Envelope.member "lease" (e.lease.map Lease.toJson)

end ExporterInfo

namespace BrokerInfo

/-- The summary of a broker as a document. -/
def toJson (b : BrokerInfo) : Json :=
  .ofFields
    [("config", b.settings.toJson), ("storage", .ofText b.storage),
      ("exporters", .ofNat b.exporters), ("live_leases", .ofNat b.liveLeases)]

end BrokerInfo

end LabLease
