import BoardRpc.Codec.Scalar
import BoardRpc.Format.Extent

/-! Decoding: a payload into values. Each field is read from its own extent of the payload. -/

namespace BoardRpc

namespace Codec

/-- Reads elements of a fixed-width slot one behind the other, as many as asked for. -/
def decodeElements (order : ByteOrder) (kind : Primitive) : Nat → Bytes → List Value
  | 0, _ => []
  | count + 1, data =>
    decodePrimitive order kind (data.take kind.width)
      :: decodeElements order kind count (data.drop kind.width)

/-- Reads strings, each up to its zero byte, until nothing is left. -/
def decodeTexts : Bytes → Except FieldFault (List Value)
  | [] => .ok []
  | byte :: rest =>
    let data := byte :: rest
    match data.idxOf? 0 with
    -- The one byte that is missing is the zero at the end.
    | none => .error (.payloadTruncated (data.length + 1) data.length)
    | some index =>
      match Text.ofUtf8 (data.take index) with
      | .error fault => .error (.invalidString fault.message)
      | .ok text =>
        -- The zero byte is passed with the string.
        match decodeTexts (rest.drop index) with
        | .error fault => .error fault
        | .ok others => .ok (.str text :: others)
termination_by data => data.length

/-- Reads a known number of entries of a group. -/
def decodeEntries (entry : Bytes → Except FieldFault (List Value × Nat)) :
    Nat → Bytes → Except FieldFault (List Value)
  | 0, _ => .ok []
  | count + 1, data =>
    -- An entry tells where the next one begins.
    match entry data with
    | .error fault => .error fault
    | .ok (items, size) =>
      match decodeEntries entry count (data.drop size) with
      | .error fault => .error fault
      | .ok others => .ok (.tuple items :: others)

/-- Reads entries of a group until nothing is left. -/
def decodeAllEntries (entry : Bytes → Except FieldFault (List Value × Nat)) (data : Bytes) :
    Except FieldFault (List Value) :=
  if data.isEmpty then .ok []
  else match entry data with
    | .error fault => .error fault
    | .ok (items, size) =>
      -- Entries that take nothing would never come to an end.
      if _h : size = 0 then .error .noProgress
      else match decodeAllEntries entry (data.drop size) with
        | .error fault => .error fault
        | .ok others => .ok (.tuple items :: others)
termination_by data.length
decreasing_by
  -- An entry takes at least one byte, and there is one.
  simp_all only [List.isEmpty_iff, List.length_drop]
  have := List.length_pos_iff.mpr (by assumption : data ≠ [])
  omega

mutual

/-- Reads a field from its own extent. -/
def decodeField (order : ByteOrder) : Field → Bytes → Except FieldFault (List Value)
  | .primitive .pad _, _ => .ok []
  | .primitive kind times, data =>
    -- A wildcard has all bytes that are left, which may be no whole number of elements.
    if times.isWildcard ∧ data.length % kind.width ≠ 0 then
      .error (.unalignedWildcard data.length kind.width)
    else .ok (decodeElements order kind (data.length / kind.width) data)
  | .text _, data => decodeTexts data
  | .raw _, data => .ok [.bytes data]
  | .group body times, data =>
    match times with
    | .once =>
      -- A tuple takes what its body takes; its extent is just that.
      match decodeRow order body data with
      | .error fault => .error fault
      | .ok (items, _) => .ok [.tuple items]
    | .count n =>
      match decodeEntries (fun rest => decodeRow order body rest) n data with
      | .error fault => .error fault
      | .ok entries => .ok [.list entries]
    | .wildcard =>
      match decodeAllEntries (fun rest => decodeRow order body rest) data with
      | .error fault => .error fault
      | .ok entries => .ok [.list entries]

/-- Reads fields in a row from the front of a payload, and tells the bytes they take. -/
def decodeRow (order : ByteOrder) : List Field → Bytes → Except FieldFault (List Value × Nat)
  | [], _ => .ok ([], 0)
  | field :: others, data =>
    -- The extent is looked for in all that is left, and the field sees its own extent only.
    match field.extent data with
    | .error shortfall => .error shortfall.fault
    | .ok size =>
      -- What was found is there, so this is only a guard.
      if !hasAtLeast size data then .error .outOfBounds
      else match decodeField order field (data.take size) with
        | .error fault => .error fault
        | .ok values =>
          match decodeRow order others (data.drop size) with
          | .error fault => .error fault
          | .ok (more, rest) => .ok (values ++ more, size + rest)

end

/-- Reads the fields from one index on, up to the end of the payload. -/
def decodeFrom (order : ByteOrder) (index : Nat) :
    List Field → Bytes → Except FormatFault (List Value)
  -- Whatever is left behind the last field belongs to none.
  | [], data => if data.isEmpty then .ok [] else .error (.trailingBytes data.length)
  | field :: others, data =>
    -- Outside of groups a fault is told with the index of its field.
    match field.extent data with
    | .error shortfall => .error (.inField index shortfall.fault)
    | .ok size =>
      if !hasAtLeast size data then .error (.inField index .outOfBounds)
      else match decodeField order field (data.take size) with
        | .error fault => .error (.inField index fault)
        | .ok values =>
          match decodeFrom order (index + 1) others (data.drop size) with
          | .error fault => .error fault
          | .ok more => .ok (values ++ more)

end Codec

/-- Decodes a payload into values; every byte of it must be used. -/
def Format.decode (format : Format) (data : Bytes) : Except FormatError (List Value) :=
  (Codec.decodeFrom format.order 0 format.fields data).mapError (⟨format.source, ·⟩)

end BoardRpc
