import BoardRpc.Codec.Encode

/-! The buffer that a payload is gathered in, and how far it grows. -/

namespace BoardRpc

/-- How far encoding has come: the bytes in the buffer at its end, or at its first fault. -/
structure Progress where
  size : Nat
  completed : Bool
  deriving DecidableEq, Repr, Inhabited

namespace Progress

/-- Nothing is left to write. -/
def done : Progress := ⟨0, true⟩

/-- Nothing is written because of a fault. -/
def fault : Progress := ⟨0, false⟩

/-- What is written at once or not at all. -/
def ofResult : Except ε Bytes → Progress
  | .ok bytes => ⟨bytes.length, true⟩
  | .error _ => fault

/-- One part and another behind it, which a fault in the first keeps from being written. -/
def followedBy (first rest : Progress) : Progress :=
  if first.completed then ⟨first.size + rest.size, rest.completed⟩ else first

end Progress

namespace Codec

/-- How far values are written one behind the other. -/
def progressEach (progress : Value → Progress) : List Value → Progress
  | [] => .done
  | value :: others => (progress value).followedBy (progressEach progress others)

/-- How far the elements of a tuple are written. -/
def progressTuple (body : List Field) (progress : List Value → Progress) (value : Value) :
    Progress :=
  -- The elements are counted before the first of them is written.
  match value.items? with
  | none => .fault
  | some items => if (arityOf body).accepts items.length then progress items else .fault

/-- How far the entries of a repeated group are written. -/
def progressEntries (times : Repeat) (progress : Value → Progress) (value : Value) : Progress :=
  match value.items? with
  | none => .fault
  | some entries =>
    match times.count? with
    | some expected =>
      -- The entries are counted before the first of them is written.
      if entries.length = expected then progressEach progress entries else .fault
    | none => progressEach progress entries

mutual

/-- How far a field is written. Padding is counted and not laid out, as there can be more of it
than a buffer holds. -/
def progressField (order : ByteOrder) : Field → List Value → Progress
  | .primitive .pad times, _ => ⟨times.count?.getD 0, true⟩
  -- A value of fixed width is written as a whole or not at all.
  | .primitive kind _, args =>
    progressEach (fun arg => .ofResult (encodePrimitive order kind arg)) args
  | .text _, args => progressEach (fun arg => .ofResult (encodeText arg)) args
  | .raw length, args =>
    match args with
    | arg :: _ => .ofResult (encodeRaw length arg)
    | [] => .fault
  | .group body times, args =>
    match args with
    | arg :: _ =>
      let tuple := progressTuple body fun items => progressRow order body items
      if times = .once then tuple arg else progressEntries times tuple arg
    | [] => .fault

/-- How far fields in a row are written. -/
def progressRow (order : ByteOrder) : List Field → List Value → Progress
  | [], _ => .done
  | field :: others, args =>
    let share := field.arity.claim args.length
    -- What stands in the buffer at a fault is what the fields in front have written.
    if args.length < share then .fault
    else (progressField order field (args.take share)).followedBy
      (progressRow order others (args.drop share))

end

end Codec

namespace Format

/-- The bytes that are gathered before encoding ends, or comes to its first fault. -/
def gathered (format : Format) (args : List Value) : Nat :=
  (Codec.progressRow format.order format.fields args).size

/-- Encodes arguments into a payload, provided the buffer can be grown as far as that takes. Where
it cannot, the program ends there, even if a fault lies ahead. -/
def encodeBuffered? (format : Format) (args : List Value) : Option (Except FormatError Bytes) :=
  -- Bytes that were written in front of a fault count as well.
  if format.gathered args ≤ bufferLimit then some (format.encode args) else none

end Format

end BoardRpc
