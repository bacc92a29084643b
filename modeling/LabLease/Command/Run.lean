import LabLease.Command.Answer
import LabLease.Inventory
import LabLease.Settings
import LabLease.Store.Table

/-!
# Running a command

A command is answered by a broker that is assembled for it alone: settings first, then the
registry, then the records, each from what was found under the path that the options name for it
(`Surroundings`). What fails first is the answer, and nothing after it is looked at. A command that
only tells the version needs no broker.

`Command.run` gives the answer and, where a database was reached, what it was left as, or why it
could not be opened. A database that could be opened is left as something, also if the command
failed.
-/

namespace LabLease

/-- What is found under the paths of the options when a command starts. -/
structure Surroundings where
  /-- The text of the settings file. -/
  settings : Except FileFault String
  /-- The text of the inventory file. -/
  inventory : Except FileFault String
  /-- What the reader of documents says of the first of these texts that it refuses. The words are
  its own: here they are only passed on. -/
  complaint : String
  /-- The database, opened. -/
  database : Except BackendFault TableStore

/-- Where the records of a command's broker are kept. -/
abbrev CommandStore := MemoryStore ⊕ TableStore

/-- The name of the program. -/
def programName : String := "benchlease"

/-- The version of the program. -/
def programVersion : String := "0.1.0"

namespace Command

/-- The settings that are in effect. Reference: `load_config`. -/
def settings (o : Options) (found : Surroundings) : Except Refusal Settings := do
  let s ← match o.settings with
    | none => .ok {}
    | some path =>
      match Settings.load path found.complaint found.settings with
      | .error f => .error (.failure ["loading config " ++ path] f)
      | .ok s => .ok s
  match (o.override s).check with
  | .error f => .error (.failure [] f)
  | .ok () => .ok (o.override s)

/-- The exporters that are known. Reference: `load_registry`. -/
def registry (o : Options) (found : Surroundings) : Except Refusal Registry :=
  match o.inventory with
  | none => .ok Registry.empty
  | some path =>
    match Inventory.load path found.complaint found.inventory with
    | .error f => .error (.failure ["loading inventory " ++ path] f)
    | .ok inv => .ok inv.registry

/-- A refusal for a fault of the database that the options name. -/
def refuseDatabase (o : Options) (f : Failure) : Refusal :=
  .failure ["opening SQLite lease store at " ++ quoted (o.database?.getD "")] f

/-- Opens the database, if leases are kept in one. Reference: `create_broker`. -/
def openDatabase (o : Options) (found : Except BackendFault TableStore) :
    Except Refusal (Option TableStore) :=
  match o.database?, found with
  | none, _ => .ok none
  | some _, .error fault => .error (refuseDatabase o (.store (.backend fault)))
  | some _, .ok s => .ok (some s)

/-- The broker over an opened database, or over process memory. Reference: `create_broker`. -/
def assemble (o : Options) (s : Settings) :
    Option TableStore → Except Refusal (Broker CommandStore)
  | none =>
    match Broker.ofLedger s (Ledger.blank s.bounds (.inl MemoryStore.empty)) with
    | .error f => .error (.failure [] f)
    | .ok B => .ok B
  | some opened =>
    match Broker.ofStore s (.inr opened : CommandStore) with
    | .error f => .error (refuseDatabase o f)
    | .ok B => .ok B

/-- The database of a store, if it is one. -/
def database? : CommandStore → Option TableStore
  | .inl _ => none
  | .inr s => some s

/-- An answer of the broker, as the answer to a command. -/
def answer {α : Type} (report : α → Json) : Except Failure α → Except Refusal Json
  | .error f => .error (.failure [] f)
  | .ok a => .ok (report a)

/-- Puts a command to a broker. New leases take their identifiers from `draw`. A watch is put as its
first sweep. Reference: `run`, with `run_lease` and `run_sweep`. -/
def put (c : Command) (B : Broker CommandStore) (listed : List Exporter) (now : Instant)
    (draw : Nat → String) : Except Refusal Json × Broker CommandStore :=
  match c with
  | .summary => (.ok (B.summary listed now).toJson, B)
  | .exporters q =>
    (answer (fun infos => .array (infos.map ExporterInfo.toJson)) (B.exporters q listed now), B)
  | .leases selector => (answer reportLeases (B.list selector listed now), B)
  | .create r =>
    match r.flaw? with
    | some flaw => (.error (.request flaw), B)
    | none =>
      let (granted, B) := B.allocate r.order listed now (B.ledger.unused draw)
      (answer Lease.report granted, B)
  | .display id => (answer Lease.report (B.lease id now), B)
  | .release id =>
    let (released, B) := B.release id now
    (answer Lease.report released, B)
  | .sweep | .watch =>
    let (expired, B) := B.sweep now
    (.ok (reportExpired expired), B)
  | .version => (.ok (reportVersion programName programVersion), B)

/-- Runs a command, and gives its answer with what became of the database. Reference: `run`. -/
def run (o : Options) (c : Command) (found : Surroundings) (now : Instant) (draw : Nat → String) :
    Except Refusal Json × Option (Except BackendFault TableStore) :=
  if c = .version then (.ok (reportVersion programName programVersion), none)
  else
    match settings o found, registry o found with
    | .error r, _ | .ok _, .error r => (.error r, none)
    | .ok s, .ok reg =>
      match openDatabase o found.database with
      | .error r => (.error r, some found.database)
      | .ok opened =>
        match assemble o s opened with
        | .error r => (.error r, opened.map .ok)
        | .ok B =>
          let (answer, B) := c.put B reg.list now draw
          (answer, (database? B.ledger.store).map .ok)

end Command

/-- What a run of the program leaves behind: its exit status and what it printed. -/
structure Reply where
  /-- The exit status. -/
  status : UInt8
  /-- What was printed. -/
  output : String
deriving DecidableEq, Repr

namespace Reply

/-- The reply to a command: its envelope, but nothing after a watch that ran. Reference: `emit` and
`print_failure`. -/
def ofAnswer (c : Command) : Except Refusal Json → Reply
  | .error r => ⟨1, (Envelope.ofRefusal r).toJson.pretty ++ "\n"⟩
  | .ok data => ⟨0, if c = .watch then "" else (Envelope.ofData data).toJson.pretty ++ "\n"⟩

/-- The reply to a question for the version. -/
def version : Reply := ⟨0, programName ++ " " ++ programVersion ++ "\n"⟩

/-- The reply to a question for help. -/
def help : Reply := ⟨0, "Usage: " ++ programName ++ " [OPTIONS] <COMMAND>\n"⟩

/-- The reply to words that make no command line. -/
def misuse : Reply := ⟨2, ""⟩

end Reply

end LabLease
