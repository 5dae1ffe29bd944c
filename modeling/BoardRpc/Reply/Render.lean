import BoardRpc.Decimal.Style
import BoardRpc.Json.Reader
import BoardRpc.Reply

/-! Values and replies as JSON, as plain text, and as arguments read from JSON. -/

namespace BoardRpc

/-- Why a text holds no arguments. -/
inductive ArgumentFault
  | notJson
  | null
  | object
  deriving DecidableEq, Repr, Inhabited

/-- The fault as messages name it. -/
def ArgumentFault.message : ArgumentFault → String
  | .notJson => "--args is not valid JSON: unexpected text"
  | .null => "null is not a valid argument"
  | .object => "objects are not valid arguments"

/-- The character with the code point of a byte. -/
def byteChar (byte : UInt8) : Char := Char.ofNat byte.toNat

namespace Value

mutual

/-- The argument that a JSON value stands for; arrays become lists. -/
def ofJson : Json → Except ArgumentFault Value
  | .null => .error .null
  | .bool value => .ok (.bool value)
  -- An integer is signed only if it has to be.
  | .int value => .ok (if value < 0 then .ofInt value else .ofNat value.toNat)
  | .float value => .ok (.float value)
  | .str text => .ok (.str text)
  | .arr items =>
    match ofJsonAll items with
    | .error fault => .error fault
    | .ok values => .ok (.list values)
  | .obj _ => .error .object

/-- The arguments that JSON values in a row stand for. -/
def ofJsonAll : List Json → Except ArgumentFault (List Value)
  | [] => .ok []
  | item :: rest =>
    match ofJson item with
    | .error fault => .error fault
    | .ok value =>
      match ofJsonAll rest with
      | .error fault => .error fault
      | .ok values => .ok (value :: values)

end

mutual

/-- A value as JSON; a number that JSON cannot write is null. -/
def toJson : Value → Json
  | .int value => .int value.toInt
  | .uint value => .int value.toNat
  | .float value => if value.isFinite then .float value else .null
  | .bool value => .bool value
  | .char byte => .str (String.singleton (byteChar byte))
  | .str text => .str text
  | .bytes data => .arr (data.map fun byte => .int byte.toNat)
  -- JSON knows no tuples.
  | .tuple items | .list items => .arr (toJsonAll items)

/-- Values in a row as JSON. -/
def toJsonAll : List Value → List Json
  | [] => []
  | item :: rest => toJson item :: toJsonAll rest

end

mutual

/-- A value as plain text. -/
def display : Value → String
  | .int value => toString value.toInt
  | .uint value => toString value.toNat
  | .float value => Decimal.display value
  | .bool value => if value then "true" else "false"
  | .char byte => String.singleton (byteChar byte)
  | .str text => text
  | .bytes data => Text.hexBytes data
  | .tuple items => "(" ++ ", ".intercalate (displayAll items) ++ ")"
  | .list items => "[" ++ ", ".intercalate (displayAll items) ++ "]"

/-- Values in a row as plain text. -/
def displayAll : List Value → List String
  | [] => []
  | item :: rest => display item :: displayAll rest

end

end Value

/-- Reads arguments from a text: the elements of an array, or any other value alone. No text at
all stands for no arguments. -/
def readArguments : Option String → Except ArgumentFault (List Value)
  | none => .ok []
  | some text =>
    match Json.parse? text with
    | none => .error .notJson
    -- Only the outermost array is opened; those inside it are lists.
    | some (.arr items) => Value.ofJsonAll items
    | some json =>
      match Value.ofJson json with
      | .error fault => .error fault
      | .ok value => .ok [value]

/-- The name of the result at an index: the one given, or one made from its position. -/
def resultName (names : Option (List String)) (index : Nat) : String :=
  match names.bind (·[index]?) with
  -- An empty name is as good as none.
  | some name => if name.isEmpty then s!"result{index + 1}" else name
  | none => s!"result{index + 1}"

namespace Reply

/-- A reply as JSON. -/
def toJson : Reply → Json
  | .single value => value.toJson
  | .multiple values => .arr (Value.toJsonAll values)

/-- The results with their names. -/
def namedValues (reply : Reply) (names : Option (List String)) : List (String × Value) :=
  reply.values.mapIdx fun index value => (resultName names index, value)

/-- A reply as an object of its results by name; of two results of one name the later is kept. -/
def toNamedJson (reply : Reply) (names : Option (List String)) : Json :=
  .obj ((reply.namedValues names).foldl
    (fun members (name, value) => Json.insertMember name value.toJson members) [])

end Reply

end BoardRpc
