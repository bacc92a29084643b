import LabLease.Failure.Fault
import LabLease.Store.FileContent

/-!
# The first page of a database

A database begins with a mark, and with numbers that say how its file is divided into pages, how
many pages there are and in which way changes are kept. Behind them, on the same page, is the list
of its tables.

`FileContent.firstPage` says what is found there: a table of leases, or no such table yet, if there
are only others, the list is empty or the file has no pages at all. A list in bytes that is not
empty is not read: where it makes sense, the file does not hold bytes but a database
(`FileContent.foreign`), and where it does not, the database is malformed. Whether changes are kept
in a log can be seen before anything but the mark is looked at (`FileContent.startsLog`).
`FileContent.withLog` gives a database a log from then on.
-/

namespace LabLease

/-- What the first page of a database says. -/
structure FirstPage where
  /-- The table of leases, if there is one. -/
  table : Option LeaseTable := none
  /-- The database must not be written to. -/
  isLocked : Bool := false
  /-- There is a place for a table on the page. -/
  hasPlace : Bool := true
deriving DecidableEq, Repr, Inhabited

namespace FirstPage

/-- The bytes that a database begins with. -/
def mark : List UInt8 := Text.bytes "SQLite format 3".toList ++ [0]

/-- The number in a byte. Behind the end of a file there are zeros. -/
def byte (bytes : List UInt8) (place : Nat) : Nat := (bytes.getD place 0).toNat

/-- The number in some bytes, of which the first counts most. -/
def number (bytes : List UInt8) (place count : Nat) : Nat :=
  (List.range count).foldl (fun n i => 256 * n + byte bytes (place + i)) 0

/-- The bytes begin with the mark, and in a version that can be read. -/
def isMarked (bytes : List UInt8) : Bool := bytes.take 16 == mark && byte bytes 19 ≤ 2

/-- The sizes that pages can have. -/
def pageSizes : List Nat := [512, 1024, 2048, 4096, 8192, 16384, 32768, 65536]

/-- How many bytes a page has. -/
def pageSize (bytes : List UInt8) : Nat := 256 * byte bytes 16 + 65536 * byte bytes 17

/-- The numbers that can have but one value have it, and the size of a page is one. -/
def isLaidOut (bytes : List UInt8) : Bool :=
  (bytes.drop 21).take 3 == [64, 32, 32] && pageSizes.contains (pageSize bytes)

/-- How many bytes of a page can be used. -/
def usable (bytes : List UInt8) : Nat := pageSize bytes - byte bytes 20

/-- How many bytes of a page have to be usable. -/
def leastUsable : Nat := 480

/-- How many pages are in the file, of which the last need not be complete. -/
def filePages (bytes : List UInt8) : Nat :=
  (bytes.length + pageSize bytes - 1) / pageSize bytes

/-- How many pages the database has. The number that says so counts if it was written with the last
change. -/
def pageCount (bytes : List UInt8) : Nat :=
  let said := number bytes 28 4
  if said = 0 ∨ number bytes 24 4 ≠ number bytes 92 4 then filePages bytes else said

/-- The latest of the formats that are known. -/
def latestFormat : Nat := 4

/-- The list of tables is there, and empty. -/
def listsNothing (bytes : List UInt8) : Bool := byte bytes 100 == 13 && number bytes 103 2 == 0

/-- A table can be put into the empty list: no part of the page is marked as free apart, the free
part in its middle ends on the page, and no pages are said to be free or used that cannot be. -/
def hasRoom (bytes : List UInt8) : Bool :=
  let top := if number bytes 105 2 = 0 then 65536 else number bytes 105 2
  let free := top + byte bytes 107
  number bytes 101 2 == 0 && 108 ≤ free && free ≤ usable bytes && number bytes 36 4 == 0 &&
    number bytes 52 4 ≤ pageCount bytes

/-- Reads bytes as a database that has no tables. -/
def ofBytes (bytes : List UInt8) : Except BackendFault FirstPage :=
  if !isMarked bytes || !isLaidOut bytes then .error .notDatabase
  else if filePages bytes < pageCount bytes then .error .malformed
  else if usable bytes < leastUsable then .error .notDatabase
  else if latestFormat < byte bytes 47 then .error .unknownFormat
  else if !listsNothing bytes then .error .malformed
  else .ok { isLocked := decide (2 < byte bytes 18), hasPlace := hasRoom bytes }

/-- The page of a database that has no tables and keeps its changes in a log. -/
def blank : List UInt8 :=
  mark ++ [16, 0, 2, 2, 0, 64, 32, 32] ++ List.replicate 7 0 ++ [1] ++ List.replicate 68 0 ++
    [13, 0, 0, 0, 0, 16, 0, 0] ++ List.replicate 3988 0

end FirstPage

namespace FileContent

/-- The database in a file keeps its changes in a log. -/
def startsLog : FileContent → Bool
  | .plain bytes => FirstPage.isMarked bytes && FirstPage.byte bytes 19 == 2
  | .database _ hasLog | .foreign hasLog => hasLog

/-- The first page of the database in a file. -/
def firstPage (c : FileContent) : Except BackendFault FirstPage :=
  match c with
  | .plain bytes => if c.hasPages then FirstPage.ofBytes bytes else .ok {}
  | .database t _ => .ok { table := some t }
  | .foreign _ => .ok {}

/-- The file, if from now on its database keeps changes in a log. -/
def withLog (c : FileContent) : FileContent :=
  match c with
  | .plain bytes => .plain (if c.hasPages then (bytes.set 18 2).set 19 2 else FirstPage.blank)
  | .database t _ => .database t true
  | .foreign _ => .foreign true

/-- A blank page is the first page of a database with a log and without tables. -/
theorem firstPage_blank :
    (plain FirstPage.blank).startsLog = true ∧
      (plain FirstPage.blank).firstPage.toOption = some {} := by
  decide +kernel

/-- A database that can be read keeps its changes in a log after it was given one. -/
theorem startsLog_withLog {c : FileContent} {p : FirstPage} (h : c.firstPage = .ok p) :
    c.withLog.startsLog = true := by
  cases c with
  | database | foreign => rfl
  | plain bytes =>
    by_cases hp : (plain bytes).hasPages = true
    · simp only [firstPage, hp, if_true, FirstPage.ofBytes] at h
      split at h
      · cases h
      · next hm =>
        simp only [Bool.or_eq_true, Bool.not_eq_true', not_or, Bool.not_eq_false] at hm
        obtain ⟨hm, hl⟩ := hm
        simp only [FirstPage.isMarked, Bool.and_eq_true, beq_iff_eq] at hm
        simp only [FirstPage.isLaidOut, Bool.and_eq_true, beq_iff_eq] at hl
        have hlen : 21 < bytes.length := by
          have := congrArg List.length hl.1
          simp only [List.length_take, List.length_drop, List.length_cons, List.length_nil] at this
          omega
        have ht : ((bytes.set 18 2).set 19 2).take 16 = FirstPage.mark := by
          rw [List.take_set_of_le (by omega), List.take_set_of_le (by omega), hm.1]
        have hb : FirstPage.byte ((bytes.set 18 2).set 19 2) 19 = 2 := by
          have : 19 < bytes.length := by omega
          simp [FirstPage.byte, List.getD_eq_getElem?_getD, this]
        simp [withLog, hp, startsLog, FirstPage.isMarked, ht, hb]
    · simp only [withLog, hp]
      exact firstPage_blank.1

end FileContent

end LabLease
