import BoardRpc.Codec.Decode
import BoardRpc.Codec.Encode

/-! The codec by positions: payloads and arguments are walked over by offsets, and nothing is taken
for granted. Where a position lies behind the end, an offset cannot be kept, a field is not handed
the one argument that it takes, or a loop would not move on, there is no result at all. -/

namespace BoardRpc

namespace Positions

/-- What stands in front of a position, which must not lie behind the end. -/
def front? {α : Type} (position : Nat) (items : List α) : Option (List α) :=
  -- A slice behind the end would stop the program.
  if position ≤ items.length then some (items.take position) else none

/-- What stands from a position on, which must not lie behind the end. -/
def rest? {α : Type} (position : Nat) (items : List α) :
    Option { rest : List α // position + rest.length = items.length } :=
  if within : position ≤ items.length then
    some ⟨items.drop position, by rw [List.length_drop, Nat.add_sub_cancel' within]⟩
  else none

/-- The one item that there must be. -/
def only? {α : Type} : List α → Option α
  | [item] => some item
  | _ => none

/-- A shortfall counted from the start of the data, of which so many bytes lie in front of it. -/
def Shortfall.offset (shortfall : Shortfall) (position available : Nat) : Shortfall :=
  -- What is there is counted anew, as the whole of the data is known here.
  ⟨clampedSize (shortfall.needed + position), available⟩

/-- Where strings end, given how many there are and where they begin. -/
def textsEnd (data : Bytes) : Nat → Nat → Option (Except Shortfall Nat)
  | 0, position => some (.ok position)
  | count + 1, position => do
    let ⟨rest, _⟩ ← rest? position data
    match rest.idxOf? 0 with
    | some index =>
      -- The next string begins behind the zero byte.
      let next ← checkedSize (position + (index + 1))
      textsEnd data count next
    | none =>
      -- A zero byte is missing, so one byte more would be needed at least.
      let needed ← checkedSize (data.length + 1)
      return .error ⟨needed, data.length⟩

/-- Where entries end, given how many there are and where they begin. -/
def entriesEnd (entry : Bytes → Option (Except Shortfall Nat)) (data : Bytes) :
    Nat → Nat → Option (Except Shortfall Nat)
  | 0, position => some (.ok position)
  | count + 1, position => do
    let ⟨rest, _⟩ ← rest? position data
    -- An entry is looked for in what stands from its position on.
    match ← entry rest with
    | .error shortfall => return .error (Shortfall.offset shortfall position data.length)
    | .ok size =>
      -- Every further entry is empty too.
      if size = 0 then return .ok position
      else
        let next ← checkedSize (position + size)
        entriesEnd entry data count next

mutual

/-- The bytes that a field takes at the front of a payload. -/
def extent : Field → Bytes → Option (Except Shortfall Nat)
  | .primitive kind times, data =>
    match times.count? with
    | some count => some (fixedExtent (kind.width * count) data)
    | none => some (.ok data.length)
  | .raw length, data =>
    match length.count? with
    | some count => some (fixedExtent count data)
    | none => some (.ok data.length)
  | .text times, data =>
    match times.count? with
    | some count => textsEnd data count 0
    | none => some (.ok data.length)
  | .group body times, data =>
    match times.count? with
    | some count => entriesEnd (fun rest => rowEnd body rest 0) data count 0
    | none => some (.ok data.length)

/-- Where fields in a row end, given where they begin. -/
def rowEnd : List Field → Bytes → Nat → Option (Except Shortfall Nat)
  | [], _, position => some (.ok position)
  | field :: others, data, position => do
    -- A field is looked for in what stands from its position on.
    let ⟨rest, _⟩ ← rest? position data
    match ← extent field rest with
    | .error shortfall => return .error (Shortfall.offset shortfall position data.length)
    | .ok size =>
      let next ← checkedSize (position + size)
      rowEnd others data next

end

/-- Where the fields of a format end from one index on, a shortfall being charged to its field. -/
def fieldsEnd (data : Bytes) : Nat → List Field → Nat → Option (Except FormatFault Nat)
  | _, [], position => some (.ok position)
  | index, field :: others, position => do
    let ⟨rest, _⟩ ← rest? position data
    match ← extent field rest with
    | .error shortfall => return .error (.inField index shortfall.fault)
    | .ok size =>
      let next ← checkedSize (position + size)
      fieldsEnd data (index + 1) others next

/-- Reads elements of a fixed-width slot as long as there is one. -/
def decodeElements (order : ByteOrder) (kind : Primitive) (data : Bytes) : Option (List Value) :=
  if data.length < kind.width then some []
  else do
    -- One element is cut off, and what is behind it is read on.
    let bytes ← front? kind.width data
    let ⟨rest, _⟩ ← rest? kind.width data
    let others ← decodeElements order kind rest
    return Codec.decodePrimitive order kind bytes :: others
termination_by data.length
decreasing_by
  -- A slot takes at least one byte, and there is one.
  have positive := kind.width_pos
  omega

/-- Reads strings, each up to its zero byte, until nothing is left. -/
def decodeTexts (data : Bytes) : Option (Except FieldFault (List Value)) :=
  if data.isEmpty then some (.ok [])
  else match data.idxOf? 0 with
    | none => do
      let needed ← checkedSize (data.length + 1)
      return .error (.payloadTruncated needed data.length)
    | some index => do
      -- The zero byte itself is not part of the text.
      let bytes ← front? index data
      match Text.ofUtf8 bytes with
      | .error fault => return .error (.invalidString fault.message)
      | .ok text =>
        let ⟨rest, _⟩ ← rest? (index + 1) data
        match ← decodeTexts rest with
        | .error fault => return .error fault
        | .ok others => return .ok (.str text :: others)
termination_by data.length

/-- Reads a known number of entries of a group from a position on. -/
def decodeEntries (entry : Bytes → Option (Except FieldFault (List Value × Nat))) (data : Bytes) :
    Nat → Nat → Option (Except FieldFault (List Value))
  | 0, _ => some (.ok [])
  | count + 1, position => do
    let ⟨rest, _⟩ ← rest? position data
    match ← entry rest with
    | .error fault => return .error fault
    | .ok (items, size) =>
      -- An entry tells its length, and the next one begins there.
      let next ← checkedSize (position + size)
      match ← decodeEntries entry data count next with
      | .error fault => return .error fault
      | .ok others => return .ok (.tuple items :: others)

/-- Reads entries of a group from a position on, until nothing is left. -/
def decodeAllEntries (entry : Bytes → Option (Except FieldFault (List Value × Nat))) (data : Bytes)
    (position : Nat) : Option (Except FieldFault (List Value)) :=
  if data.length ≤ position then some (.ok [])
  else do
    let ⟨rest, _⟩ ← rest? position data
    match ← entry rest with
    | .error fault => return .error fault
    | .ok (items, size) =>
      -- The loop must move on, and to a position that can be kept.
      if 0 < size ∧ position + size ≤ maxSize then
        match ← decodeAllEntries entry data (position + size) with
        | .error fault => return .error fault
        | .ok others => return .ok (.tuple items :: others)
      else none
termination_by data.length - position

mutual

/-- Reads a field from its own extent. -/
def decodeField (order : ByteOrder) : Field → Bytes → Option (Except FieldFault (List Value))
  | .primitive .pad _, _ => some (.ok [])
  | .primitive kind times, data =>
    if times.isWildcard ∧ data.length % kind.width ≠ 0 then
      some (.error (.unalignedWildcard data.length kind.width))
    else do
      let values ← decodeElements order kind data
      return .ok values
  | .text _, data => decodeTexts data
  | .raw _, data => some (.ok [.bytes data])
  | .group body times, data =>
    match times with
    | .once => do
      match ← decodeRow order body data 0 with
      | .error fault => return .error fault
      | .ok (items, _) => return .ok [.tuple items]
    | .count n => do
      match ← decodeEntries (fun rest => decodeRow order body rest 0) data n 0 with
      | .error fault => return .error fault
      | .ok entries => return .ok [.list entries]
    | .wildcard => do
      match ← decodeAllEntries (fun rest => decodeRow order body rest 0) data 0 with
      | .error fault => return .error fault
      | .ok entries => return .ok [.list entries]

/-- Reads fields in a row from a position on, and tells where they end. -/
def decodeRow (order : ByteOrder) :
    List Field → Bytes → Nat → Option (Except FieldFault (List Value × Nat))
  | [], _, position => some (.ok ([], position))
  | field :: others, data, position => do
    let ⟨rest, _⟩ ← rest? position data
    match ← extent field rest with
    | .error shortfall => return .error shortfall.fault
    | .ok size =>
      -- A field reads its own extent and sees nothing of what is behind it.
      let chunk ← front? size rest
      match ← decodeField order field chunk with
      | .error fault => return .error fault
      | .ok values =>
        let next ← checkedSize (position + size)
        match ← decodeRow order others data next with
        | .error fault => return .error fault
        | .ok (more, last) => return .ok (values ++ more, last)

end

/-- Reads the fields of a format from one index and one position on, and tells where they end. -/
def decodeFields (order : ByteOrder) (data : Bytes) :
    Nat → List Field → Nat → Option (Except FormatFault (List Value × Nat))
  | _, [], position => some (.ok ([], position))
  | index, field :: others, position => do
    let ⟨rest, _⟩ ← rest? position data
    match ← extent field rest with
    | .error shortfall => return .error (.inField index shortfall.fault)
    | .ok size =>
      -- As in a row, a field reads its own extent.
      let chunk ← front? size rest
      match ← decodeField order field chunk with
      | .error fault => return .error (.inField index fault)
      | .ok values =>
        let next ← checkedSize (position + size)
        match ← decodeFields order data (index + 1) others next with
        | .error fault => return .error fault
        | .ok (more, last) => return .ok (values ++ more, last)

/-- The values of a format, provided that its fields end where the payload does. -/
def allUsed (data : Bytes) :
    Except FormatFault (List Value × Nat) → Except FormatFault (List Value)
  | .error fault => .error fault
  | .ok (values, last) =>
    if last < data.length then .error (.trailingBytes (data.length - last)) else .ok values

/-- The byte of bytes that are as long as a character, which is their first. -/
def soleByte (bytes : Bytes) : Option (Option UInt8) :=
  -- The byte is looked up by its index, once there is known to be one.
  if bytes.length = 1 then do
    let byte ← bytes[0]?
    return some byte
  else some none

/-- The byte of a character slot, if the value is a character, or a string or run of one byte. -/
def characterByte : Value → Option (Option UInt8)
  -- Only a text or a run of bytes has to be looked at byte by byte.
  | .char byte => some (some byte)
  | .str text => soleByte (Text.utf8 text)
  | .bytes bytes => soleByte bytes
  | _ => some none

/-- Writes a value into a slot of fixed width; a character alone is looked up. -/
def encodePrimitive (order : ByteOrder) (kind : Primitive) (value : Value) :
    Option (Except FieldFault Bytes) :=
  match kind with
  | .char => do
    match ← characterByte value with
    | some byte => return .ok [byte]
    | none => return .error (Codec.mismatch "a single character" value)
  | _ => some (Codec.encodePrimitive order kind value)

/-- Writes values one behind the other. -/
def encodeEach (encode : Value → Option (Except FieldFault Bytes)) :
    List Value → Option (Except FieldFault Bytes)
  | [] => some (.ok [])
  | value :: others => do
    match ← encode value with
    | .error fault => return .error fault
    | .ok first =>
      match ← encodeEach encode others with
      | .error fault => return .error fault
      | .ok rest => return .ok (first ++ rest)

/-- Writes the elements of a tuple, once their number is known to be right. -/
def encodeTuple (body : List Field) (encode : List Value → Option (Except FieldFault Bytes))
    (value : Value) : Option (Except FieldFault Bytes) :=
  match value.items? with
  | none => some (.error (Codec.mismatch "a tuple or list" value))
  | some items =>
    if (arityOf body).accepts items.length then encode items
    else some (.error (.argumentCount (arityOf body).describe items.length))

/-- Writes the entries of a repeated group, once their number is known to be right. -/
def encodeEntries (times : Repeat) (encode : Value → Option (Except FieldFault Bytes))
    (value : Value) : Option (Except FieldFault Bytes) :=
  match value.items? with
  | none => some (.error (Codec.mismatch "a tuple or list" value))
  | some entries =>
    match times.count? with
    | some expected =>
      if entries.length = expected then encodeEach encode entries
      else some (.error (.groupCount expected entries.length))
    | none => encodeEach encode entries

mutual

/-- Writes a field from its own share of the arguments; a run of bytes and a group must have just
one. -/
def encodeField (order : ByteOrder) : Field → List Value → Option (Except FieldFault Bytes)
  | .primitive .pad times, _ => some (.ok (List.replicate (times.count?.getD 0) 0))
  | .primitive kind _, args => encodeEach (encodePrimitive order kind) args
  | .text _, args => some (Codec.encodeEach Codec.encodeText args)
  | .raw length, args => do
    -- There must be just one argument, neither more nor none.
    let arg ← only? args
    return Codec.encodeRaw length arg
  | .group body times, args => do
    let arg ← only? args
    let tuple := encodeTuple body fun items => encodeRow order body items
    if times = .once then tuple arg else encodeEntries times tuple arg

/-- Writes fields in a row, each from its share of the arguments, which must be among those left. -/
def encodeRow (order : ByteOrder) : List Field → List Value → Option (Except FieldFault Bytes)
  | [], _ => some (.ok [])
  | field :: others, args => do
    -- The row was counted as a whole, so that the share is there.
    let share := field.arity.claim args.length
    let mine ← front? share args
    let ⟨rest, _⟩ ← rest? share args
    match ← encodeField order field mine with
    | .error fault => return .error fault
    | .ok first =>
      match ← encodeRow order others rest with
      | .error fault => return .error fault
      | .ok more => return .ok (first ++ more)

end

/-- Writes the fields of a format from one index on. -/
def encodeFields (order : ByteOrder) (whole : List Field) (given : Nat) :
    Nat → List Field → List Value → Option (Except FormatFault Bytes)
  | _, [], [] => some (.ok [])
  | index, [], _ :: _ =>
    some (.error (.inField index (.argumentCount (arityOf whole).describe given)))
  | index, field :: others, args => do
    let share := field.arity.claim args.length
    -- Cutting off the share of a field is right only because this is asked first.
    if args.length < share then
      return .error (.inField index (.argumentCount (arityOf whole).describe given))
    else
      let mine ← front? share args
      let ⟨rest, _⟩ ← rest? share args
      match ← encodeField order field mine with
      | .error fault => return .error (.inField index fault)
      | .ok first =>
        match ← encodeFields order whole given (index + 1) others rest with
        | .error fault => return .error fault
        | .ok more => return .ok (first ++ more)

end Positions

namespace Format

/-- Encodes arguments by positions. -/
def encodeByPositions (format : Format) (args : List Value) : Option (Except FormatError Bytes) :=
  (Positions.encodeFields format.order format.fields args.length 0 format.fields args).map
    (·.mapError (⟨format.source, ·⟩))

/-- The bytes of a payload that decoding it would take, found by positions. -/
def extentByPositions (format : Format) (data : Bytes) : Option (Except FormatError Nat) :=
  (Positions.fieldsEnd data 0 format.fields 0).map (·.mapError (⟨format.source, ·⟩))

/-- Decodes a payload by positions; every byte of it must be used. -/
def decodeByPositions (format : Format) (data : Bytes) : Option (Except FormatError (List Value)) :=
  (Positions.decodeFields format.order data 0 format.fields 0).map fun read =>
    (Positions.allUsed data read).mapError (⟨format.source, ·⟩)

end Format

end BoardRpc
