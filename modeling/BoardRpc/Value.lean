import BoardRpc.Binary.Double
import BoardRpc.Size

/-! Values: the arguments and results of commands. -/

namespace BoardRpc

/-- An argument or a result. Decoding yields `int` for signed slots and `uint` for unsigned ones;
encoding takes either where the number fits, and tuples and lists alike. -/
inductive Value
  | int (value : Int64)
  | uint (value : UInt64)
  | float (value : Double)
  | bool (value : Bool)
  | char (byte : UInt8)
  | str (text : String)
  | bytes (data : Bytes)
  | tuple (items : List Value)
  | list (items : List Value)
  deriving BEq, Repr, Inhabited

namespace Value

/-- The kind of value as messages name it. -/
def kind : Value → String
  | .int _ => "int"
  | .uint _ => "uint"
  | .float _ => "float"
  | .bool _ => "bool"
  | .char _ => "char"
  | .str _ => "string"
  | .bytes _ => "bytes"
  | .tuple _ => "tuple"
  | .list _ => "list"

/-- The number that an integer value holds. -/
def number? : Value → Option Int
  | .int value => some value.toInt
  | .uint value => some value.toNat
  | _ => none

/-- The number that an integer, a truth value or a character holds. -/
def ordinal? : Value → Option Int
  | .bool value => some (if value then 1 else 0)
  | .char byte => some byte.toNat
  | value => value.number?

/-- The number held, if it is a natural number below a power of two. -/
def unsigned? (width : Nat) (value : Value) : Option Nat :=
  match value.number? with
  | some (.ofNat n) => if n < Nat.pow 2 width then some n else none
  | _ => none

/-- The number held, as an unsigned word. -/
def toUInt64? (value : Value) : Option UInt64 := (value.unsigned? 64).map UInt64.ofNat

/-- The number held, as an unsigned word of half the width. -/
def toUInt32? (value : Value) : Option UInt32 := (value.unsigned? 32).map UInt32.ofNat

/-- The number held, as a signed word. -/
def toInt64? (value : Value) : Option Int64 :=
  match value.number? with
  -- Signed words reach down as far as they need, so only the upper end is tested.
  | some n => if n < 0x8000000000000000 then some (Int64.ofInt n) else none
  | none => none

/-- The number held, rounded to double precision. -/
def toDouble? : Value → Option Double
  | .float value => some value
  | value => value.number?.map Double.ofInt

/-- The text held. -/
def text? : Value → Option String
  | .str text => some text
  | _ => none

/-- The run of bytes held. -/
def bytes? : Value → Option Bytes
  | .bytes data => some data
  | _ => none

/-- The elements of a tuple or a list. -/
def items? : Value → Option (List Value)
  | .tuple items | .list items => some items
  | _ => none

mutual

/-- Equality of values, numbers being compared as numbers. -/
def equals : Value → Value → Bool
  -- Bit patterns of numbers may differ where the numbers do not.
  | .float x, .float y => x.equals y
  | .tuple xs, .tuple ys | .list xs, .list ys => allEqual xs ys
  | .int x, .int y => x == y
  | .uint x, .uint y => x == y
  | .bool x, .bool y => x == y
  | .char x, .char y => x == y
  | .str x, .str y => x == y
  | .bytes x, .bytes y => x == y
  | _, _ => false

/-- Equality of rows of values. -/
def allEqual : List Value → List Value → Bool
  | [], [] => true
  | x :: xs, y :: ys => equals x y && allEqual xs ys
  | _, _ => false

end

/-- A signed word as a value. -/
def ofInt (n : Int) : Value := .int (Int64.ofInt n)

/-- An unsigned word as a value. -/
def ofNat (n : Nat) : Value := .uint (UInt64.ofNat n)

/-- A number of single precision as a value. -/
def ofSingle (x : Single) : Value := .float x.widen

end Value

end BoardRpc
