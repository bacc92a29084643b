import LabLease.Failure.Flaw
import LabLease.Store.Table
import LabLease.Text.Utf8

/-!
# What a file holds

A file holds bytes (`FileContent.plain`), of which nothing is known but what they are, or a database
with tables, among which there is one of leases (`FileContent.database`) or not
(`FileContent.foreign`). The bytes of a database with tables are not written out here: they are
never text, and it is more than one page long. What its other tables hold is never looked at.

Only what a database's first bytes could be is looked at in a file of bytes. A file with no more
than one byte has no pages.
-/

namespace LabLease

/-- What a file holds. -/
inductive FileContent
  /-- Bytes. -/
  | plain (bytes : List UInt8)
  /-- A database with a table of leases, and whether it keeps its changes in a log. -/
  | database (table : LeaseTable) (hasLog : Bool)
  /-- A database with tables of which none is one of leases, and whether it keeps its changes in a
  log. -/
  | foreign (hasLog : Bool)
deriving DecidableEq, Repr

namespace FileContent

/-- The content of a file that was just made. -/
def empty : FileContent := .plain []

instance : Inhabited FileContent := ⟨empty⟩

/-- The content of a file with the given bytes. -/
def ofBytes (bytes : ByteArray) : FileContent := .plain bytes.data.toList

/-- The content of a file with the given text. -/
def ofText (s : String) : FileContent := .plain (Text.bytes s.toList)

/-- Reads a file as text. -/
def readText : FileContent → Except FileFault String
  | .plain bytes =>
    match String.fromUTF8? ⟨bytes.toArray⟩ with
    | some s => .ok s
    | none => .error .notText
  | .database .. | .foreign _ => .error .notText

/-- There is nothing in the file. -/
def isEmpty : FileContent → Bool
  | .plain bytes => bytes.isEmpty
  | .database .. | .foreign _ => false

/-- There is a first byte, and it is zero. -/
def startsWithZero : FileContent → Bool
  | .plain bytes => bytes.head? == some 0
  | .database .. | .foreign _ => false

/-- There are pages in the file. -/
def hasPages : FileContent → Bool
  | .plain bytes => decide (1 < bytes.length)
  | .database .. | .foreign _ => true

end FileContent

end LabLease
