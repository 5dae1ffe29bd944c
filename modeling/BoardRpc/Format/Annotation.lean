import BoardRpc.Format.Basic

/-! Annotations: a type name for each argument that a format takes, provided that so many names can
be listed. -/

namespace BoardRpc

/-- The annotations of a slot that repeats: a wildcard has one for all its arguments. -/
def annotateRepeat (name : String) : Repeat → List String
  | .once => [name]
  | .count n => List.replicate n name
  | .wildcard => [name ++ "[]"]

/-- The mark behind a group, which is one argument however often it repeats. -/
def groupMark : Repeat → String
  | .once => ""
  | .count n => s!"[{n}]"
  | .wildcard => "[]"

mutual

/-- The annotations of one field. -/
def Field.annotations : Field → List String
  | .primitive .pad _ => []
  | .primitive kind times => annotateRepeat kind.name times
  | .text times => annotateRepeat "string" times
  -- A run of bytes is one argument, of whatever length.
  | .raw _ => ["bytes"]
  | .group body times => ["(" ++ ", ".intercalate (annotateRow body) ++ ")" ++ groupMark times]

/-- The annotations of fields in a row. -/
def annotateRow : List Field → List String
  | [] => []
  | field :: others => field.annotations ++ annotateRow others

end

/-- The annotations of a format, one for each argument it takes, in a list that is taken to hold as
many. -/
def Format.annotations (format : Format) : List String := annotateRow format.fields

/-- The most names that a list can hold, as each takes 24 bytes of its buffer. -/
def listLimit : Nat := bufferLimit / 24

/-- How many names there are in a list, and how many bytes they have together. -/
structure Tally where
  names : Nat
  bytes : Nat
  deriving DecidableEq, Repr, Inhabited

/-- The tally of a slot that repeats. -/
def tallyRepeat (name : String) : Repeat → Tally
  | .once => ⟨1, name.utf8ByteSize⟩
  | .count n => ⟨n, n * name.utf8ByteSize⟩
  | .wildcard => ⟨1, name.utf8ByteSize + 2⟩

/-- The bytes of a group's name, which is made of names: any two are joined by two bytes, and all
are put between brackets. -/
def Tally.joined (inner : Tally) (times : Repeat) : Nat :=
  -- Without any names there is nothing to join.
  inner.bytes + 2 * (inner.names - 1) + 2 + (groupMark times).utf8ByteSize

mutual

/-- The tally of one field, unless names inside it cannot be listed or joined. Names are counted and
not written, as there can be more of them than a list holds. -/
def Field.tally? : Field → Option Tally
  | .primitive .pad _ => some ⟨0, 0⟩
  | .primitive kind times => some (tallyRepeat kind.name times)
  | .text times => some (tallyRepeat "string" times)
  | .raw _ => some ⟨1, 5⟩
  | .group body times => do
    let inner ← tallyRow? body
    -- However long it is, this is one name.
    if inner.joined times ≤ bufferLimit then some ⟨1, inner.joined times⟩ else none

/-- The tally of fields in a row, unless their names or names inside them cannot be listed. -/
def tallyRow? : List Field → Option Tally
  | [] => some ⟨0, 0⟩
  | field :: others => do
    let first ← field.tally?
    let rest ← tallyRow? others
    if first.names + rest.names ≤ listLimit then
      some ⟨first.names + rest.names, first.bytes + rest.bytes⟩
    else none

end

/-- The annotations of a format, provided that they can be listed, and those of its groups in them.
Where they cannot, the program ends there. -/
def Format.annotations? (format : Format) : Option (List String) :=
  (tallyRow? format.fields).map fun _ => format.annotations

/-- Whether an annotation is that of any number of arguments. -/
def isVariadic (text : String) : Bool := text.endsWith "[]"

end BoardRpc
