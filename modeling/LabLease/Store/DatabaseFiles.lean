import LabLease.Store.FileContent
import LabLease.Store.FileName

/-!
# The files of a database

A database has a file of its own, and others beside it while it is in use: a journal, from which a
change that was interrupted is undone; a log of changes that are not yet in the database's own file;
an index of that log; and, where files cannot be locked, a file that says that somebody uses the
database. Each of them is a `Companion`, and its name is the database's name with a suffix, so there
has to be room for the suffix in a name (`Companion.fits`).

The content of a database's own file (`DatabaseFiles.main`) is the database as its users see it.
What was completed in a log counts as made there, and what a journal would undo as undone. So log
and journal are known by their bytes alone, and these are never taken apart into changes.

Names with different suffixes are different (`Companion.name_inj`), so no two of the files of a
database are one.
-/

namespace LabLease

/-- What a file beside a database is. -/
inductive Companion
  /-- What undoes a change that was interrupted. -/
  | journal
  /-- Changes that are not yet in the database's own file. -/
  | log
  /-- What is to be known of the log. -/
  | index
  /-- The sign that somebody uses the database. -/
  | lock
deriving DecidableEq, Repr

namespace Companion

/-- What the name of the file has behind the name of the database. -/
def suffix : Companion → FileName
  | .journal => Text.bytes "-journal".toList
  | .log => Text.bytes "-wal".toList
  | .index => Text.bytes "-shm".toList
  | .lock => Text.bytes ".lock".toList

/-- The name of the file beside a database of the given name. -/
def name (c : Companion) (database : FileName) : FileName := database ++ c.suffix

/-- The name of the file is one that a file can have. -/
def fits (c : Companion) (database : FileName) : Bool :=
  decide ((c.name database).length ≤ FileName.longest)

/-- Different files beside a database have different names. -/
theorem name_inj {c e : Companion} {database : FileName} (h : c.name database = e.name database) :
    c = e := by
  have h : c.suffix = e.suffix := List.append_cancel_left h
  revert h
  cases c <;> cases e <;> decide

/-- A file beside a database does not have its name. -/
theorem name_ne (c : Companion) (database : FileName) : c.name database ≠ database := by
  intro h
  have h : c.suffix = [] := List.append_cancel_left (h.trans (List.append_nil database).symm)
  revert h
  cases c <;> decide

end Companion

/-- The path of a file beside the database with a path. -/
def Trail.beside (t : Trail) (c : Companion) : Trail :=
  match t.names with
  | [] => t
  | name :: names => { t with names := c.name name :: names }

/-- The files of a database, as far as they are there. -/
structure DatabaseFiles where
  /-- Its own file, as its users see it. -/
  main : Option FileContent := none
  journal : Option FileContent := none
  log : Option FileContent := none
  index : Option FileContent := none
  lock : Option FileContent := none
deriving DecidableEq, Repr, Inhabited

namespace DatabaseFiles

/-- What is in the database's own file. One that is not there counts as empty. -/
def content (f : DatabaseFiles) : FileContent := f.main.getD .empty

/-- There is a journal, and something in it. -/
def hasJournal (f : DatabaseFiles) : Bool := f.journal.any (!·.isEmpty)

/-- There is a log, and something in it. -/
def hasLog (f : DatabaseFiles) : Bool := f.log.any (!·.isEmpty)

end DatabaseFiles

end LabLease
