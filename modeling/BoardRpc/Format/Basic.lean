import BoardRpc.Size

/-! Formats: the byte order of a payload and the fields that make it up. -/

namespace BoardRpc

/-- The byte order of every number in a payload. -/
inductive ByteOrder
  | little
  | big
  | native
  deriving DecidableEq, Repr, Inhabited

/-- The byte order that a mark at the head of a format names. -/
def ByteOrder.ofMark? : Char → Option ByteOrder
  | '<' => some .little
  | '>' | '!' => some .big
  | '=' | '@' => some .native
  | _ => none

/-- Whether the least significant byte comes first. The native order is the host's, which is
little. -/
def ByteOrder.isLittle : ByteOrder → Bool
  | .little | .native => true
  | .big => false

/-- Values of fixed width. -/
inductive Primitive
  | pad
  | char
  | int8
  | uint8
  | bool
  | int16
  | uint16
  | int32
  | uint32
  | int64
  | uint64
  | float
  | double
  deriving DecidableEq, Repr, Inhabited

namespace Primitive

/-- The primitive that a type letter stands for. -/
def ofLetter? : Char → Option Primitive
  | 'x' => some .pad
  | 'c' => some .char
  | 'b' => some .int8
  | 'B' => some .uint8
  | '?' => some .bool
  | 'h' => some .int16
  | 'H' => some .uint16
  | 'i' | 'l' => some .int32
  | 'I' | 'L' => some .uint32
  | 'q' => some .int64
  | 'Q' => some .uint64
  | 'f' => some .float
  | 'd' => some .double
  | _ => none

/-- Bytes that one value takes. -/
def width : Primitive → Nat
  | .pad | .char | .int8 | .uint8 | .bool => 1
  | .int16 | .uint16 => 2
  | .int32 | .uint32 | .float => 4
  | .int64 | .uint64 | .double => 8

/-- Whether values are integers that may be negative. -/
def isSigned : Primitive → Bool
  | .int8 | .int16 | .int32 | .int64 => true
  | _ => false

/-- Whether values are binary floating-point numbers. -/
def isFloat : Primitive → Bool
  | .float | .double => true
  | _ => false

/-- The type's name in signatures and messages. -/
def name : Primitive → String
  | .pad => "padding"
  | .char => "char"
  | .int8 => "int8"
  | .uint8 => "uint8"
  | .bool => "bool"
  | .int16 => "int16"
  | .uint16 => "uint16"
  | .int32 => "int32"
  | .uint32 => "uint32"
  | .int64 => "int64"
  | .uint64 => "uint64"
  | .float => "float"
  | .double => "double"

/-- Every value takes at least one byte. -/
theorem width_pos (kind : Primitive) : 0 < kind.width := by
  cases kind <;> decide

end Primitive

/-- How often a field repeats: not said, a count, or as often as there is room. -/
inductive Repeat
  | once
  | count (n : Nat)
  | wildcard
  deriving DecidableEq, Repr, Inhabited

namespace Repeat

/-- Whether the field takes all that remains. -/
def isWildcard : Repeat → Bool
  | .wildcard => true
  | _ => false

/-- The number of repetitions, where it is known from the format alone. -/
def count? : Repeat → Option Nat
  | .once => some 1
  | .count n => some n
  | .wildcard => none

end Repeat

/-- One unit of a format. -/
inductive Field
  | primitive (kind : Primitive) (times : Repeat)
  /-- Strings that each end with a zero byte. -/
  | text (times : Repeat)
  /-- One run of bytes, of the length that the repeat gives. -/
  | raw (length : Repeat)
  | group (body : List Field) (times : Repeat)
  deriving BEq, Repr, Inhabited

namespace Field

/-- How often the field repeats. -/
def times : Field → Repeat
  | .primitive _ times | .text times | .raw times | .group _ times => times

/-- Whether the field only fills space. -/
def isPadding : Field → Bool
  | .primitive .pad _ => true
  | _ => false

/-- Whether the field is one value however long it is. -/
def conglomerates : Field → Bool
  | .raw _ => true
  | _ => false

mutual

/-- The fewest bytes that a field can take, provided that size can be kept. -/
def minSize : Field → Option Nat
  | .primitive kind times => checkedSize (kind.width * times.count?.getD 0)
  | .text times | .raw times => some (times.count?.getD 0)
  | .group body times =>
    match totalMinSize body with
    | some size => checkedSize (size * times.count?.getD 0)
    | none => none

/-- The fewest bytes that fields in a row can take, provided that size can be kept. -/
def totalMinSize : List Field → Option Nat
  | [] => some 0
  | field :: rest =>
    match field.minSize, totalMinSize rest with
    | some first, some others => checkedSize (first + others)
    | _, _ => none

end

end Field

/-- A format as it was read, with the text that it was read from. -/
structure Format where
  source : String
  order : ByteOrder
  fields : List Field
  deriving BEq, Repr, Inhabited

namespace Format

/-- The format of nothing: it takes no arguments and no bytes. -/
def empty : Format := ⟨"", .little, []⟩

/-- Whether the format has no fields. -/
def isEmpty (format : Format) : Bool := format.fields.isEmpty

/-- Whether the last field takes all that remains. -/
def hasWildcard (format : Format) : Bool :=
  match format.fields.getLast? with
  | some field => field.times.isWildcard
  | none => false

end Format

end BoardRpc
