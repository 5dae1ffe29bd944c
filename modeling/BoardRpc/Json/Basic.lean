import BoardRpc.Binary.Double

/-! Data in JSON. -/

namespace BoardRpc

/-- A JSON value; the members of an object are in the order in which they are written. -/
inductive Json
  | null
  | bool (value : Bool)
  | int (value : Int)
  /-- A finite number with a fraction or an exponent. -/
  | float (value : Double)
  | str (text : String)
  | arr (items : List Json)
  | obj (members : List (String × Json))
  deriving Repr, Inhabited

namespace Json

/-- Sets a member of an object whose members are sorted by name, in place of one of that name. -/
def insertMember (name : String) (value : Json) : List (String × Json) → List (String × Json)
  | [] => [(name, value)]
  | (other, kept) :: rest =>
    if name = other then (name, value) :: rest
    else if name < other then (name, value) :: (other, kept) :: rest
    else (other, kept) :: insertMember name value rest

/-- An optional value, or null. -/
def ofOption (toJson : α → Json) : Option α → Json
  | some value => toJson value
  | none => .null

/-- A natural number. -/
def nat (n : Nat) : Json := .int n

end Json

end BoardRpc
