import LabLease.Failure.Fault
import LabLease.Lease

/-!
# What can go wrong

`Failure` is the one type of refusals and faults that the ledger, the broker and the loading of
files report. Its cases are causes, with the values that describe them; the wording is in
`Failure.message`, and `Failure.code` is the short name by which a caller tells them apart.

A fault below the ledger has a message of its own, and may have causes further down. `chain` joins
them, outermost first: what was being done, the failure, and each of its causes.
-/

namespace LabLease

/-- The refusals and faults of the registry, the ledger and the broker, and of loading files.
Reference: `BrokerError`, §7 and §12. -/
inductive Failure
  /-- A selector text has no meaning. -/
  | invalidSelector (selector : String) (flaw : SelectorFlaw)
  /-- A length of time outside the range that may be granted was asked for. -/
  | spanOutOfRange (requested : Span) (allowed : SpanRange)
  /-- No exporter that is online satisfies the selector. -/
  | noExporter (selector : String)
  /-- Every exporter that is online and satisfies the selector is held. -/
  | allLeased (selector : String)
  /-- One exporter is held by a lease. -/
  | exporterHeld (exporter lease : String)
  /-- No exporter has the identifier. -/
  | unknownExporter (id : String)
  /-- No lease has the identifier. -/
  | unknownLease (id : String)
  /-- The lease is over. -/
  | alreadyOver (id : String) (status : Status)
  /-- Settings or an inventory cannot be used. -/
  | invalidConfig (flaw : ConfigFlaw)
  /-- The store of lease records failed. -/
  | store (fault : StoreFault)
deriving DecidableEq, Repr

namespace Failure

/-- The short name of a failure's cause, free of the values that describe it. Reference:
`BrokerError.kind`, with the names of `ErrorKind`. -/
def code : Failure → String
  | .invalidSelector .. => "INVALID_SELECTOR"
  | .spanOutOfRange .. => "DURATION_OUT_OF_RANGE"
  | .noExporter _ => "NO_AVAILABLE_RESOURCE"
  | .allLeased _ => "ALL_RESOURCES_BUSY"
  | .exporterHeld .. => "RESOURCE_BUSY"
  | .unknownExporter _ => "RESOURCE_NOT_FOUND"
  | .unknownLease _ => "LEASE_NOT_FOUND"
  | .alreadyOver .. => "ALREADY_TERMINAL"
  | .invalidConfig _ => "INVALID_CONFIG"
  | .store _ => "STORE"

/-- A failure in words. -/
def message : Failure → String
  | .invalidSelector selector flaw => "invalid selector " ++ quoted selector ++ ": " ++ flaw.message
  | .spanOutOfRange requested allowed =>
    "requested duration " ++ requested.text ++ " outside allowed range " ++ allowed.min.text ++
      "..=" ++ allowed.max.text
  | .noExporter selector => "no online exporter matches selector " ++ quoted selector
  | .allLeased selector => "all exporters matching selector " ++ quoted selector ++ " are leased"
  | .exporterHeld exporter lease =>
    "exporter " ++ quoted exporter ++ " is held by lease " ++ quoted lease
  | .unknownExporter id => "exporter " ++ quoted id ++ " not found"
  | .unknownLease id => "lease " ++ quoted id ++ " not found"
  | .alreadyOver id status => "lease " ++ quoted id ++ " is already " ++ status.text
  | .invalidConfig flaw => "invalid configuration: " ++ flaw.message
  | .store fault => "lease store: " ++ fault.message

/-- What lies below a failure, outermost first. -/
def causes : Failure → List String
  | .store fault => fault.message :: fault.causes
  | _ => []

/-- A failure with what was being done when it arose, and with its causes: from the outermost to
the innermost, each separated from the next by a colon. -/
def chain (doing : List String) (f : Failure) : String :=
  String.intercalate ": " (doing ++ f.message :: f.causes)

end Failure

end LabLease
