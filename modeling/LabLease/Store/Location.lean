import LabLease.Failure.Fault
import LabLease.Store.FileName
import LabLease.Text.Utf8

/-!
# Where a database is

A database is named by the path of its file, or by an address: `file:`, perhaps two slashes and a
host, a path, and perhaps a question mark and parameters. In the parts of an address a percent sign
with two hexadecimal digits stands for a byte, and the byte zero ends the part that it is in. From
the character `#` on, nothing counts.

`Location.ofText` reads either. Of the parameters, `mode` says how the database may be used
(`Access`), `vfs` names the layer that reaches the file (`Layer`), and `cache`, which changes
nothing for one user, is only checked. What is wrong with an address is an `AddressFlaw`. The others
are looked up when the database is opened: `immutable`, `nolock` and `readonly_shm` say yes or no
(`Location.saysYes`), and `modeof` names a file that a new file gets its rights from.
-/

namespace LabLease

/-- How a database may be used. -/
inductive Access
  /-- Read and written, and made if it is not there. -/
  | create
  /-- Read and written. -/
  | write
  /-- Read. -/
  | read
  /-- Kept in process memory and not in a file. -/
  | memory
deriving DecidableEq, Repr

namespace Access

/-- The kinds of access by their names. -/
def named : List (String × Access) :=
  [("ro", .read), ("rw", .write), ("rwc", .create), ("memory", .memory)]

/-- How much a kind of access asks for. -/
def demand : Access → Nat
  | .memory => 0
  | .read => 1
  | .write => 2
  | .create => 3

/-- How much may be asked for after a kind of access was given. -/
def limit : Access → Nat
  | .memory => 3
  | a => a.demand

end Access

/-- How a file is reached. -/
inductive Layer
  /-- With locks, and with a file for what all users have to know of the log of changes. -/
  | shared
  /-- As `shared`, but with one user at a time, who may do without that file. -/
  | exclusive
  /-- Without locks. -/
  | unlocked
  /-- Locked by a file that stands beside it. -/
  | lockFile
  /-- Not at all: process memory stands for the file. -/
  | memory
deriving DecidableEq, Repr

/-- The layers by their names. -/
def Layer.named : List (String × Layer) :=
  [("unix", .shared), ("unix-excl", .exclusive), ("unix-none", .unlocked),
    ("unix-dotfile", .lockFile), ("memdb", .memory)]

/-- Where a database is and how it may be used. -/
structure Location where
  /-- The path of its file. -/
  path : FileName
  /-- How it may be used. -/
  access : Access := .create
  /-- How the file is reached. -/
  layer : Layer := .shared
  /-- The parameters of the address, with their values as bytes. -/
  parameters : List (String × List UInt8) := []
deriving DecidableEq, Repr

namespace Location

/-- The value of a hexadecimal digit. -/
def hexDigit? (c : Char) : Option Nat :=
  if '0' ≤ c ∧ c ≤ '9' then some (c.toNat - '0'.toNat)
  else if 'a' ≤ c ∧ c ≤ 'f' then some (c.toNat - 'a'.toNat + 10)
  else if 'A' ≤ c ∧ c ≤ 'F' then some (c.toNat - 'A'.toNat + 10)
  else none

/-- The byte that two hexadecimal digits stand for. -/
def hexByte? (a b : Char) : Option UInt8 := do
  let high ← hexDigit? a
  let low ← hexDigit? b
  some (UInt8.ofNat (16 * high + low))

/-- The bytes that a part of an address stands for. -/
def decode : List Char → List UInt8
  | [] => []
  | '%' :: a :: b :: cs =>
    match hexByte? a b with
    | some byte => if byte = 0 then [] else byte :: decode cs
    | none => Text.bytes ['%'] ++ decode (a :: b :: cs)
  | c :: cs => String.utf8EncodeChar c ++ decode cs

/-- Divides a text at the first of a character. -/
def divide (separator : Char) (cs : List Char) : List Char × List Char :=
  (cs.takeWhile (· != separator), (cs.dropWhile (· != separator)).drop 1)

/-- The parameters of an address. One without a name does not count. -/
def readParameters (cs : List Char) : List (String × List UInt8) :=
  ((cs.splitOn '&').map fun piece =>
    (Text.shown (decode (divide '=' piece).1), decode (divide '=' piece).2)).filter
      fun (name, _) => name != ""

/-- What a parameter changes. -/
def apply (l : Location) : String × List UInt8 → Except AddressFlaw Location
  | ("mode", value) =>
    let value := Text.shown value
    match Access.named.lookup value with
    | none => .error (.unknownMode "access" value)
    | some a =>
      if a.demand ≤ l.access.limit then .ok { l with access := a }
      else .error (.forbiddenMode value)
  | ("cache", value) =>
    let value := Text.shown value
    if value = "shared" ∨ value = "private" then .ok l else .error (.unknownMode "cache" value)
  | _ => .ok l

/-- Sets the layer that the last parameter for it names. -/
def setLayer (l : Location) : Except AddressFlaw Location :=
  match l.parameters.reverse.lookup "vfs" with
  | none => .ok l
  | some name =>
    let name := Text.shown name
    match Layer.named.lookup name with
    | none => .error (.unknownLayer name)
    | some layer => .ok { l with layer := layer }

/-- The host of an address, which stands behind two slashes, and what follows it. -/
def readHost : List Char → List Char × List Char
  | '/' :: '/' :: cs => (cs.takeWhile (· != '/'), cs.dropWhile (· != '/'))
  | cs => ([], cs)

/-- Reads what follows the word in front of an address. -/
def ofAddress (cs : List Char) : Except AddressFlaw Location :=
  let (host, cs) := readHost cs
  if host ≠ [] ∧ host ≠ "localhost".toList then .error (.foreignHost (String.ofList host))
  else do
    let (path, query) := divide '?' (divide '#' cs).1
    let parameters := readParameters query
    let l ← parameters.foldlM apply { path := decode path, parameters := parameters }
    l.setLayer

/-- Reads the name of a database. -/
def ofText (text : String) : Except BackendFault Location :=
  match text.toList with
  | 'f' :: 'i' :: 'l' :: 'e' :: ':' :: cs => (ofAddress cs).mapError .address
  | cs => .ok { path := Text.bytes cs }

/-- The number in the hexadecimal digits that a text begins with. -/
def hexNumber (cs : List Char) : Nat :=
  ((cs.map hexDigit?).takeWhile Option.isSome).foldl (fun n d => 16 * n + d.getD 0) 0

/-- The number that a text begins with: in hexadecimal digits behind `0x`, or else in decimal ones.
It is taken for 0 if it needs more than 31 binary digits. -/
def leadingNumber (cs : List Char) : Nat :=
  let n := match cs with
    | '0' :: 'x' :: cs | '0' :: 'X' :: cs => hexNumber cs
    | cs => Nat.ofDigitChars 10 (cs.takeWhile Char.isDigit) 0
  if n < 0x80000000 then n else 0

/-- Whether the value of a parameter says yes: with a number of which the last eight binary digits
are not all zero, or with a word for it. -/
def saysYes (value : String) : Bool :=
  match value.toList with
  | [] => false
  | c :: cs =>
    if c.isDigit then leadingNumber (c :: cs) % 256 != 0
    else value.toLower ∈ ["on", "yes", "true"]

/-- Whether the first parameter of a name says yes. -/
def asksFor (l : Location) (name : String) : Bool :=
  (l.parameters.lookup name).any (saysYes ∘ Text.shown)

/-- The database is in no file, and in no memory that has a name. -/
def isPrivate (l : Location) : Bool :=
  l.path == [] || l.path == Text.bytes ":memory:".toList || l.access == .memory

/-- The database is in no file and forgotten when it is closed. -/
def isTransient (l : Location) : Bool := l.isPrivate || l.layer == .memory

/-- The file is taken to be one that nobody writes to. -/
def isFrozen (l : Location) : Bool := l.asksFor "immutable"

/-- The database cannot be written to. -/
def isReadOnly (l : Location) : Bool := l.access == .read || l.isFrozen

/-- No locks are used, though the layer may have them. -/
def ignoresLocks (l : Location) : Bool := l.asksFor "nolock"

/-- The database can keep its changes in a log that all its users share. -/
def sharesLog (l : Location) : Bool :=
  (l.layer == .shared || l.layer == .exclusive) && !l.ignoresLocks && !l.isFrozen

/-- What there is to know of the log is in memory alone. -/
def hasOwnIndex (l : Location) : Bool := l.layer == .exclusive && l.access != .read

/-- The file that says what there is to know of the log must not be written to. -/
def keepsIndex (l : Location) : Bool := l.asksFor "readonly_shm" && !l.hasOwnIndex

/-- The path of the file that a new file gets its rights from, if one is named. -/
def model? (l : Location) : Option FileName := l.parameters.lookup "modeof"

end Location

end LabLease
