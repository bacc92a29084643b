import LabLease.Failure.Flaw
import LabLease.Text.Utf8

/-!
# Faults of what is stored

What can go wrong with the place that keeps lease records: a fault of the database behind it
(`BackendFault`), which may lie in how the database was named (`AddressFlaw`), a record that cannot
be part of a ledger (`RecordFlaw`), and both as the fault of a store (`StoreFault`). A fault may
have causes further down, which `causes` lists from the outermost to the innermost.
-/

namespace LabLease

/-- What is wrong with a stored lease record. Reference: the reasons of `StoreError.Corrupt`. -/
inductive RecordFlaw
  /-- An earlier record has the same identifier. -/
  | repeatedId
  /-- An earlier record that is not over holds the same exporter. -/
  | alsoHeld (exporter holder : String)
  /-- The text in the place of the status names none. -/
  | unknownStatus (text : String)
  /-- A flaw in words of its own. -/
  | stated (words : String)
deriving DecidableEq, Repr

/-- A flaw in words. -/
def RecordFlaw.message : RecordFlaw → String
  | .repeatedId => "duplicate lease id"
  | .alsoHeld exporter holder =>
    "exporter " ++ quoted exporter ++ " also held by live lease " ++ quoted holder
  | .unknownStatus text => "unknown state " ++ quoted text
  | .stated words => words

/-- The kinds of values a cell of a database table can hold. -/
inductive CellKind
  | null
  | integer
  | real
  | text
  | blob
deriving DecidableEq, Repr

/-- The name of a kind. -/
def CellKind.name : CellKind → String
  | .null => "Null"
  | .integer => "Integer"
  | .real => "Real"
  | .text => "Text"
  | .blob => "Blob"

/-- What is wrong with the address of a database. -/
inductive AddressFlaw
  /-- The address names a host that is not this one. -/
  | foreignHost (host : String)
  /-- A parameter that names a mode, of access or of caching, has a value that is none. -/
  | unknownMode (kind value : String)
  /-- A mode of access asks for more than an earlier one allows. -/
  | forbiddenMode (value : String)
  /-- There is no file layer of the name that is given. -/
  | unknownLayer (name : String)
deriving DecidableEq, Repr

namespace AddressFlaw

/-- A flaw in words. -/
def message : AddressFlaw → String
  | .foreignHost host => "invalid uri authority: " ++ host
  | .unknownMode kind value => "no such " ++ kind ++ " mode: " ++ value
  | .forbiddenMode value => "access mode not allowed: " ++ value
  | .unknownLayer name => "no such vfs: " ++ name

/-- What the database says below a flaw. -/
def cause : AddressFlaw → String
  | .forbiddenMode _ => "Error code 3: Access permission denied"
  | _ => "Error code 1: SQL error or missing database"

end AddressFlaw

/-- A fault of the database behind a store. -/
inductive BackendFault
  /-- A number is too large for a column of signed 64-bit integers. -/
  | numberTooLarge
  /-- A column, given by position and name, holds a value of a kind that cannot be read there. -/
  | columnKind (kind : CellKind) (position : Nat) (column : String)
  /-- A column holds a text whose bytes are not UTF-8. -/
  | columnText (flaw : Text.Flaw) (position : Nat)
  /-- A column holds an integer that cannot be read there. -/
  | columnRange (value : Int) (position : Nat)
  /-- The file is no database. -/
  | notDatabase
  /-- The file is a database of a kind that is not known. -/
  | unknownFormat
  /-- The parts of the database do not fit together. -/
  | malformed
  /-- The file can be neither opened nor created. -/
  | cannotOpen (path : String)
  /-- A file that the database needs beside its own can be neither opened nor created. -/
  | cannotOpenBeside
  /-- The database must not be written to. -/
  | readOnly
  /-- A change of the database was interrupted, and must not be undone because that is writing. -/
  | interrupted
  /-- Nothing can be read from what was opened. -/
  | unreadable
  /-- The file whose rights a new file is to have cannot be looked at. -/
  | noModel
  /-- Somebody else has locked the database. -/
  | locked
  /-- The database cannot be locked. -/
  | cannotLock
  /-- The users of the database cannot agree on what its log says. -/
  | disagreement
  /-- The database was not named as databases are. -/
  | address (flaw : AddressFlaw)
  /-- A rule of the table forbids a row. -/
  | constraint (rule column : String)
  /-- A fault in words of its own. -/
  | stated (words : String)
deriving DecidableEq, Repr

namespace BackendFault

/-- A fault in words. -/
def message : BackendFault → String
  | .numberTooLarge => "number too large to fit in target type"
  | .columnKind kind position column =>
    "Invalid column type " ++ kind.name ++ " at index: " ++ Nat.repr position ++
      ", name: " ++ column
  | .columnText flaw position =>
    "Conversion error from type Text at index: " ++ Nat.repr position ++ ", " ++ flaw.message
  | .columnRange value position =>
    "Integer " ++ toString value ++ " out of range at index " ++ Nat.repr position
  | .notDatabase => "file is not a database"
  | .unknownFormat => "unsupported file format"
  | .malformed => "database disk image is malformed"
  | .cannotOpen path => "unable to open database file: " ++ path
  | .cannotOpenBeside => "unable to open database file"
  | .readOnly | .interrupted => "attempt to write a readonly database"
  | .unreadable | .noModel | .cannotLock => "disk I/O error"
  | .locked => "database is locked"
  | .disagreement => "locking protocol"
  | .address flaw => flaw.message
  | .constraint rule column => rule ++ " constraint failed: leases." ++ column
  | .stated words => words

/-- What lies below a fault of the database, outermost first. -/
def causes : BackendFault → List String
  | .numberTooLarge => ["number too large to fit in target type"]
  | .columnKind .. | .columnRange .. | .stated _ => []
  | .columnText flaw _ => [flaw.message]
  | .notDatabase => ["Error code 26: File opened that is not a database file"]
  | .unknownFormat => ["Error code 1: SQL error or missing database"]
  | .malformed => ["Error code 11: The database disk image is malformed"]
  | .cannotOpen _ | .cannotOpenBeside => ["Error code 14: Unable to open the database file"]
  | .readOnly => ["Error code 8: Attempt to write a readonly database"]
  | .interrupted =>
    ["Error code 776: Database has hot journal that must be rolled back (requires write access)"]
  | .unreadable => ["Error code 266: Error reading from disk"]
  | .noModel => ["Error code 1802: Error invoking fstat to get file metadata"]
  | .locked => ["Error code 5: The database file is locked"]
  | .cannotLock => ["Error code 3850: I/O error in the advisory file locking layer"]
  | .disagreement => ["Error code 15: Database lock protocol error"]
  | .address flaw => [flaw.cause]
  | .constraint rule _ =>
    [if rule = "UNIQUE" then "Error code 2067: A UNIQUE constraint failed"
      else "Error code 1299: A NOT NULL constraint failed"]

end BackendFault

/-- A fault of a store of lease records. Reference: `StoreError`, §12. -/
inductive StoreFault
  /-- A fault of the database behind the store. -/
  | backend (fault : BackendFault)
  /-- A fault of input or output. -/
  | device (words : String)
  /-- A record that cannot be part of a ledger. -/
  | corrupt (id : String) (flaw : RecordFlaw)
deriving DecidableEq, Repr

namespace StoreFault

/-- A fault in words. -/
def message : StoreFault → String
  | .backend fault => "backend: " ++ fault.message
  | .device words => "io: " ++ words
  | .corrupt id flaw => "corrupt lease record " ++ quoted id ++ ": " ++ flaw.message

/-- What lies below a fault of a store, outermost first. -/
def causes : StoreFault → List String
  | .backend fault => fault.message :: fault.causes
  | .device words => [words]
  | .corrupt .. => []

end StoreFault

end LabLease
