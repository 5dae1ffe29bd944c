import BoardRpc.Codec.Scalar
import BoardRpc.Format.Arity

/-! Encoding: arguments into a payload. Each field takes its share of the arguments in turn. -/

namespace BoardRpc

namespace Codec

/-- Writes values one behind the other. -/
def encodeEach (encode : Value → Except FieldFault Bytes) :
    List Value → Except FieldFault Bytes
  | [] => .ok []
  | value :: others =>
    match encode value with
    | .error fault => .error fault
    | .ok first =>
      match encodeEach encode others with
      | .error fault => .error fault
      | .ok rest => .ok (first ++ rest)

/-- Writes the elements of a tuple, once their number is known to be right. -/
def encodeTuple (body : List Field) (encode : List Value → Except FieldFault Bytes)
    (value : Value) : Except FieldFault Bytes :=
  match value.items? with
  | none => .error (mismatch "a tuple or list" value)
  | some items =>
    -- The number of elements is told before any fault inside them.
    if (arityOf body).accepts items.length then encode items
    else .error (.argumentCount (arityOf body).describe items.length)

/-- Writes the entries of a repeated group, once their number is known to be right. -/
def encodeEntries (times : Repeat) (encode : Value → Except FieldFault Bytes)
    (value : Value) : Except FieldFault Bytes :=
  match value.items? with
  | none => .error (mismatch "a tuple or list" value)
  | some entries =>
    match times.count? with
    | some expected =>
      -- The number of entries is told before any fault inside them.
      if entries.length = expected then encodeEach encode entries
      else .error (.groupCount expected entries.length)
    | none => encodeEach encode entries

mutual

/-- Writes a field from its own share of the arguments. -/
def encodeField (order : ByteOrder) : Field → List Value → Except FieldFault Bytes
  -- Padding takes no argument, and is written as zeros.
  | .primitive .pad times, _ => .ok (List.replicate (times.count?.getD 0) 0)
  | .primitive kind _, args => encodeEach (encodePrimitive order kind) args
  | .text _, args => encodeEach encodeText args
  | .raw length, args =>
    -- Runs and groups claim one argument each, so there is one.
    match args with
    | arg :: _ => encodeRaw length arg
    | [] => .error .outOfBounds
  | .group body times, args =>
    match args with
    | arg :: _ =>
      let tuple := encodeTuple body fun items => encodeRow order body items
      -- A group with a count is a list of tuples, even where the count is one.
      if times = .once then tuple arg else encodeEntries times tuple arg
    | [] => .error .outOfBounds

/-- Writes fields in a row, each from its share of the arguments. -/
def encodeRow (order : ByteOrder) : List Field → List Value → Except FieldFault Bytes
  | [], _ => .ok []
  | field :: others, args =>
    let share := field.arity.claim args.length
    -- The number of elements was tested for the whole tuple, so this is only a guard.
    if args.length < share then .error .outOfBounds
    else match encodeField order field (args.take share) with
      | .error fault => .error fault
      | .ok first =>
        match encodeRow order others (args.drop share) with
        | .error fault => .error fault
        | .ok rest => .ok (first ++ rest)

end

/-- Writes the fields from one index on; `whole` is what the complaint about a wrong number of
arguments describes, and `given` is that number. -/
def encodeFrom (order : ByteOrder) (whole : List Field) (given index : Nat) :
    List Field → List Value → Except FormatFault Bytes
  | [], [] => .ok []
  -- Too many arguments are charged to the place behind the last field.
  | [], _ :: _ => .error (.inField index (.argumentCount (arityOf whole).describe given))
  | field :: others, args =>
    let share := field.arity.claim args.length
    -- Too few arguments are charged to the first field that they are missing for.
    if args.length < share then
      .error (.inField index (.argumentCount (arityOf whole).describe given))
    else match encodeField order field (args.take share) with
      | .error fault => .error (.inField index fault)
      | .ok first =>
        match encodeFrom order whole given (index + 1) others (args.drop share) with
        | .error fault => .error fault
        | .ok rest => .ok (first ++ rest)

end Codec

/-- Encodes arguments into a payload, whose buffer is taken to grow as far as that needs. -/
def Format.encode (format : Format) (args : List Value) : Except FormatError Bytes :=
  (Codec.encodeFrom format.order format.fields args.length 0 format.fields args).mapError
    (⟨format.source, ·⟩)

end BoardRpc
