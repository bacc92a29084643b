import LabLease.Store.DatabaseFiles
import LabLease.Store.FirstPage
import LabLease.Store.Location

/-!
# Opening a database

What becomes of the files of a database when it is opened: `Location.openFiles` gives the store, or
the fault that is met first, and the `Session` in which that happened. Also where a fault is met,
what was done before it is done.

A database that was interrupted in a change is first brought back to what it was before
(`Location.undo`). Where its users can share a log of changes, it keeps one from then on
(`Location.keepLog`), and a log that it has is used (`Location.openLog`); where they cannot, it can
be opened only if it has none. Where there is no table of leases one is made (`Location.makeTable`),
for which there has to be a right to write.

Changes that were completed in a log count as made in the database's own file (`DatabaseFiles`), so
a log that an earlier user left behind is used without that its bytes are read.

What the files are when the session is over says `Location.leave`. Who may write to a log leaves
neither it nor its index behind.
-/

namespace LabLease

/-- A database in use. -/
structure Session where
  /-- Its files. -/
  files : DatabaseFiles
  /-- Changes are written to the log. -/
  usesLog : Bool := false
deriving DecidableEq, Repr, Inhabited

/-- A step in opening a database. -/
abbrev Opening := EStateM BackendFault Session

namespace Opening

/-- The files as they are now. -/
def files : Opening DatabaseFiles := return (← get).files

/-- Changes the files. -/
def change (f : DatabaseFiles → DatabaseFiles) : Opening Unit :=
  modify fun s => { s with files := f s.files }

/-- Fails if something does not hold. -/
def require (holds : Bool) (fault : BackendFault) : Opening Unit :=
  unless holds do throw fault

/-- Writes a first change without a log, for which there has to be a journal while it is written. -/
def writeWithJournal (name : FileName) : Opening Unit := do
  require (Companion.journal.fits name) .cannotOpenBeside
  change ({ · with journal := none })

end Opening

namespace Location

open Opening

/-! ## Before the database is read -/

/-- Makes the file of the database, if it is not there and may be made. -/
def findFile (l : Location) (label : String) : Opening Unit := do
  if (← files).main.isNone then
    require (l.access == .create) (.cannotOpen label)
    change ({ · with main := some .empty })

/-- The database is locked by a file beside it. -/
def usesLockFile (l : Location) : Bool := l.layer == .lockFile && !l.ignoresLocks

/-- Locks the database, if that is done by a file beside it. -/
def lock (l : Location) (name : FileName) : Opening Unit := do
  if l.usesLockFile then
    require (Companion.lock.fits name) .cannotLock
    require (← files).lock.isNone .locked

/-- Somebody seems to be in the middle of a change. With a file for a lock, that is anybody who uses
the database. -/
def seemsBusy (l : Location) (f : DatabaseFiles) : Bool :=
  l.layer == .lockFile && (l.usesLockFile || f.lock.isSome)

/-- Undoes a change that was interrupted. A journal that begins with zero is of a change that was
completed, and one beside a database without pages is of none; such a one is removed by who can lock
the database for writing. -/
def undo (l : Location) : Opening Unit := do
  let f ← files
  if f.hasJournal && !l.seemsBusy f then
    if !f.content.hasPages then
      unless l.access == .read && l.sharesLog do change ({ · with journal := none })
    else if !f.journal.any FileContent.startsWithZero then
      require (l.access != .read) .interrupted
      change ({ · with journal := none })

/-! ## The log -/

/-- How many bytes a log begins with before its first change. -/
def logHeader : Nat := 32

/-- A log begins with bytes of which the sixteenth and the seven behind it, which its index would
have to repeat, are not all zero. -/
def differsFromIndex : FileContent → Bool
  | .plain bytes => decide (logHeader ≤ bytes.length) && ((bytes.drop 16).take 8).any (· != 0)
  | .database .. | .foreign _ => true

/-- The index of a log without changes, of which only so much is written out that it is no text. -/
def blankIndex : FileContent := .plain [0x18, 0xe2, 0x2d, 0]

/-- Finds or makes the index of the log. One that must not be written to has to be there already,
and does not say anything about the log. -/
def openIndex (l : Location) : Opening Unit := do
  let f ← files
  if l.keepsIndex then
    require f.index.isSome .cannotOpenBeside
    require (!f.log.any differsFromIndex) .disagreement
  else if !l.hasOwnIndex then change ({ · with index := some blankIndex })

/-- Changes are written to the log from now on, behind those that it holds already. -/
def openLog (l : Location) (name : FileName) : Opening Unit := do
  require (l.sharesLog && Companion.log.fits name) .cannotOpenBeside
  change fun f => { f with log := some (f.log.getD .empty) }
  modify ({ · with usesLog := true })
  l.openIndex

/-- Uses a log that is there. One beside a database without pages is removed. -/
def findLog (l : Location) (name : FileName) : Opening Unit := do
  let f ← files
  if f.hasLog then
    if f.content.hasPages then l.openLog name else change ({ · with log := none })

/-! ## The database -/

/-- Reads the first page. A log that it tells of is used. -/
def readPage (l : Location) (name : FileName) : Opening FirstPage := do
  let c := (← files).content
  if c.startsLog && !(← get).usesLog && !l.isFrozen then l.openLog name
  MonadExcept.ofExcept c.firstPage

/-- Gives the database a log, if it has none and can have one. -/
def keepLog (l : Location) (name : FileName) (page : FirstPage) : Opening Unit := do
  if l.sharesLog && !(← get).usesLog then
    require (l.access != .read && !page.isLocked) .readOnly
    writeWithJournal name
    change fun f => { f with main := some f.content.withLog }
    l.openLog name

/-- Nothing can be written to the database. -/
def cannotWrite (l : Location) (s : Session) : Bool := l.isReadOnly || s.usesLog && l.keepsIndex

/-- Makes the table of leases. -/
def makeTable (l : Location) (name : FileName) (page : FirstPage) : Opening LeaseTable := do
  require (!l.cannotWrite (← get) && !page.isLocked) .readOnly
  unless (← get).usesLog do writeWithJournal name
  require page.hasPlace .malformed
  change fun f => { f with main := some (.database .empty f.content.startsLog) }
  return .empty

/-- Opens a database, of which the label and the name of its file are given. Reference:
`SqliteLeaseStore.open`. -/
def openStore (l : Location) (label : String) (name : FileName) : Opening TableStore := do
  l.findFile label
  unless l.isFrozen do
    l.lock name
    l.undo
    l.findLog name
  let page ← l.readPage name
  l.keepLog name page
  let table ← match page.table with
    | some t => pure t
    | none => l.makeTable name page
  return ⟨label, table, l.cannotWrite (← get)⟩

/-- Opens the database with the given files. -/
def openFiles (l : Location) (label : String) (name : FileName) (files : DatabaseFiles) :
    Except BackendFault TableStore × Session :=
  match (l.openStore label name).run { files := files } with
  | .ok store s => (.ok store, s)
  | .error fault s => (.error fault, s)

/-! ## Leaving the database -/

/-- The files when the database is closed. -/
def close (l : Location) (s : Session) : DatabaseFiles :=
  if s.usesLog && l.access != .read && !l.keepsIndex then
    { s.files with
      log := none
      index := if l.hasOwnIndex then s.files.index else none }
  else s.files

/-- The session in which the table has become that of a store. -/
def written (s : Session) (left : TableStore) : Session :=
  let before := s.files
  let after := { before with main := some (.database left.table before.content.startsLog) }
  if left.readOnly then s
  else if s.usesLog || after.main == before.main then { s with files := after }
  else { s with files := { after with journal := none } }

/-- The files after a database was opened, or could not be, and then left as a store. -/
def leave (l : Location) (s : Session) : Except BackendFault TableStore → DatabaseFiles
  | .ok left => l.close (written s left)
  | .error _ => l.close s

/-! ## Where there is no file -/

/-- Why no database can be opened where there can be no file, which may be because there is a
directory: that can be opened to be read, but cannot be read. -/
def faultAt (l : Location) (label : String) (isDirectory : Bool) : BackendFault :=
  if isDirectory && l.access == .read then .unreadable else .cannotOpen label

/-- How many bytes the name of a database in process memory has at most. -/
def longestMemoryName : Nat := 1016

/-- Opens a database that is in no file. -/
def openTransient (l : Location) (label : String) : Except BackendFault TableStore :=
  if !l.isPrivate && longestMemoryName < l.path.length then .error (.cannotOpen label)
  else if l.access == .read || !l.isPrivate && l.isFrozen then .error .readOnly
  else .ok { path := label }

end Location

end LabLease
