import LabLease.Binary.Decimal
import LabLease.Failure.Fault

/-!
# Cells of a database table

A cell holds nothing, a signed integer, a real number, a text or bytes. A text is stored by its
bytes, and nobody sees to it that they are UTF-8 (`MalformedText`). Each column of a table turns
what is put into it towards its own type (`Cell.asText`, `Cell.asInteger`), and where that fails,
leaves it as it is. So a reader cannot rely on the column and has to look at what it finds
(`Cell.readText`, `Cell.readTextOrNull`, `Cell.readNumber`); it is told by position and column
which cell is at fault.
-/

namespace LabLease

/-- A text that is stored with bytes that are not UTF-8. -/
structure MalformedText where
  /-- The bytes. -/
  bytes : List UInt8
  /-- What is wrong with them. -/
  flaw : Text.Flaw
  /-- That is wrong with them. -/
  found : Text.flaw? bytes = some flaw
deriving DecidableEq, Repr

/-- What one cell of a table holds. -/
inductive Cell
  /-- Nothing. -/
  | null
  /-- A signed integer of 64 bits. -/
  | integer (value : Int64)
  /-- A real number. -/
  | real (value : Binary)
  /-- A text. -/
  | text (value : String)
  /-- A text whose bytes are not UTF-8. -/
  | malformed (value : MalformedText)
  /-- Bytes that stand for nothing else. -/
  | blob (bytes : List UInt8)
deriving DecidableEq, Repr, Inhabited

namespace Cell

/-- The kind of a cell's value. -/
def kind : Cell → CellKind
  | .null => .null
  | .integer _ => .integer
  | .real _ => .real
  | .text _ | .malformed _ => .text
  | .blob _ => .blob

/-- The cell that holds a text with the given bytes. -/
def ofTextBytes (bytes : List UInt8) : Cell :=
  match h : Text.flaw? bytes with
  | none => .text (Text.shown bytes)
  | some flaw => .malformed ⟨bytes, flaw, h⟩

/-- The bytes of a text are that text. -/
theorem ofTextBytes_bytes (cs : List Char) :
    ofTextBytes (Text.bytes cs) = .text (String.ofList cs) := by
  rw [ofTextBytes]
  split
  · rw [Text.shown_bytes]
  · next heq => simp [Text.flaw?_eq_none_iff.2 ⟨cs, rfl⟩] at heq

/-- What a column of texts makes of a cell: a number becomes its written form. -/
def asText : Cell → Cell
  | .integer i => .text (toString i.toInt)
  | .real x => .text x.toDecimal.text
  | c => c

/-- A real number that stands strictly between the extreme integers becomes one if it is whole. -/
def ofReal (x : Binary) : Cell :=
  match x.whole? with
  | none => .real x
  | some i =>
    if Int64.minValue.toInt < i ∧ i < Int64.maxValue.toInt then .integer (Int64.ofInt i)
    else .real x

/-- The number that a numeral stands for: an integer if it is written as one and fits. -/
def ofNumeral (d : Decimal) (writtenAsInteger : Bool) : Cell :=
  if writtenAsInteger ∧ Int64.minValue.toInt ≤ d.coefficient ∧
      d.coefficient ≤ Int64.maxValue.toInt then
    .integer (Int64.ofInt d.coefficient)
  else ofReal d.toBinary

/-- What a column of integers makes of a cell: a whole number becomes an integer, and a text that is
a numeral becomes its number; anything else stays what it is. -/
def asInteger : Cell → Cell
  | .real x => ofReal x
  | .text s =>
    match Decimal.parse? s with
    | none => .text s
    | some (d, writtenAsInteger) => ofNumeral d writtenAsInteger
  | c => c

/-- Reads a text. -/
def readText (c : Cell) (position : Nat) (column : String) : Except StoreFault String :=
  match c with
  | .text s => .ok s
  | .malformed t => .error (.backend (.columnText t.flaw position))
  | c => .error (.backend (.columnKind c.kind position column))

/-- Reads a text that may be missing. -/
def readTextOrNull (c : Cell) (position : Nat) (column : String) :
    Except StoreFault (Option String) :=
  match c with
  | .null => .ok none
  | .text s => .ok (some s)
  | .malformed t => .error (.backend (.columnText t.flaw position))
  | c => .error (.backend (.columnKind c.kind position column))

/-- Reads a number that is not negative. -/
def readNumber (c : Cell) (position : Nat) (column : String) : Except StoreFault UInt64 :=
  match c with
  | .integer i =>
    if i < 0 then .error (.backend (.columnRange i.toInt position)) else .ok i.toUInt64
  | c => .error (.backend (.columnKind c.kind position column))

/-- An integer that is not negative is read as itself. -/
theorem readNumber_toInt64 {n : UInt64} (h : n.toNat ≤ 0x7fffffffffffffff) (position : Nat)
    (column : String) : (Cell.integer n.toInt64).readNumber position column = .ok n := by
  have hn : n.toInt64.toInt = n.toNat := by
    change n.toBitVec.toInt = n.toBitVec.toNat
    refine BitVec.toInt_eq_toNat_of_lt ?_
    change 2 * n.toNat < UInt64.size
    rw [UInt64.size]
    omega
  have hneg : ¬ n.toInt64 < 0 := by
    rw [Int64.lt_iff_toInt_lt, hn]
    change ¬ (n.toNat : Int) < 0
    omega
  simp [readNumber, hneg]

end Cell

end LabLease
