import BoardRpc.Format.Basic
import BoardRpc.Format.Error

/-! Extents: how many bytes of a payload a field takes. Strings end where their zero byte is and
wildcards take what is left, so an extent belongs to one payload only. -/

namespace BoardRpc

/-- A payload too short for a field: the bytes it needs and those there are. -/
structure Shortfall where
  needed : Nat
  available : Nat
  deriving DecidableEq, Repr, Inhabited

namespace Shortfall

/-- The same shortfall seen from further ahead in the payload: as many bytes more are needed, and
as many more are there. -/
def before (shortfall : Shortfall) (offset : Nat) : Shortfall :=
  ⟨clampedSize (shortfall.needed + offset), shortfall.available + offset⟩

/-- The shortfall as a fault of a field. -/
def fault (shortfall : Shortfall) : FieldFault :=
  .payloadTruncated shortfall.needed shortfall.available

end Shortfall

/-- The extent of a run of known length. -/
def fixedExtent (length : Nat) (data : Bytes) : Except Shortfall Nat :=
  -- A length beyond all sizes is never there.
  if hasAtLeast (clampedSize length) data then .ok (clampedSize length)
  else .error ⟨clampedSize length, data.length⟩

/-- The extent of one string with its zero byte. -/
def stringExtent (data : Bytes) : Except Shortfall Nat :=
  match data.idxOf? 0 with
  | some index => .ok (index + 1)
  -- At least the zero byte is missing.
  | none => .error ⟨data.length + 1, data.length⟩

/-- The extent of entries in a row; once an entry takes nothing, all further ones do too. -/
def repeatExtent (entry : Bytes → Except Shortfall Nat) : Nat → Bytes → Except Shortfall Nat
  | 0, _ => .ok 0
  | count + 1, data =>
    match entry data with
    | .error shortfall => .error shortfall
    -- However many entries remain, none of them finds anything else.
    | .ok 0 => .ok 0
    | .ok size =>
      -- What is missing behind the entry is counted from its front.
      match repeatExtent entry count (data.drop size) with
      | .error shortfall => .error (shortfall.before size)
      | .ok others => .ok (size + others)

mutual

/-- The bytes that a field takes at the front of a payload. -/
def Field.extent : Field → Bytes → Except Shortfall Nat
  -- A wildcard of any kind takes what is left; whether it comes out even is seen when it is read.
  | .primitive kind times, data =>
    match times.count? with
    | some count => fixedExtent (kind.width * count) data
    | none => .ok data.length
  | .raw length, data =>
    match length.count? with
    | some count => fixedExtent count data
    | none => .ok data.length
  | .text times, data =>
    match times.count? with
    | some count => repeatExtent stringExtent count data
    | none => .ok data.length
  | .group body times, data =>
    match times.count? with
    | some count => repeatExtent (fun rest => rowExtent body rest) count data
    | none => .ok data.length

/-- The bytes that fields in a row take at the front of a payload. -/
def rowExtent : List Field → Bytes → Except Shortfall Nat
  | [], _ => .ok 0
  | field :: others, data =>
    match field.extent data with
    | .error shortfall => .error shortfall
    | .ok size =>
      -- What is missing further ahead is counted from the front of the row.
      match rowExtent others (data.drop size) with
      | .error shortfall => .error (shortfall.before size)
      | .ok rest => .ok (size + rest)

end

/-- The bytes that fields take from one index on, a shortfall being charged to its field. -/
def extentFrom (index : Nat) : List Field → Bytes → Except FormatFault Nat
  | [], _ => .ok 0
  | field :: others, data =>
    match field.extent data with
    -- Here the shortfall is that of what is left for the field.
    | .error shortfall => .error (.inField index shortfall.fault)
    | .ok size =>
      match extentFrom (index + 1) others (data.drop size) with
      | .error fault => .error fault
      | .ok rest => .ok (size + rest)

/-- The bytes of a payload that decoding it in a format would take. -/
def Format.extent (format : Format) (data : Bytes) : Except FormatError Nat :=
  (extentFrom 0 format.fields data).mapError (⟨format.source, ·⟩)

end BoardRpc
