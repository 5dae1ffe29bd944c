import BoardRpc.Format.Basic
import BoardRpc.Value

/-! Replies: decoded results in the shape that callers see. -/

namespace BoardRpc

/-- The results of a command: one value on its own, or a sequence. -/
inductive Reply
  | single (value : Value)
  | multiple (values : List Value)
  deriving BEq, Repr, Inhabited

namespace Reply

/-- The results in order. -/
def values : Reply → List Value
  | .single value => [value]
  | .multiple values => values

/-- The one result, if it stands on its own. -/
def single? : Reply → Option Value
  | .single value => some value
  | .multiple _ => none

/-- Whether there are no results. -/
def isEmpty : Reply → Bool
  | .single _ => false
  | .multiple values => values.isEmpty

end Reply

/-- Whether replies in a format are one value on its own: padding aside, the format is one field
that is a run of bytes, or that does not repeat or has a count of one. -/
def Format.collapses (format : Format) : Bool :=
  match format.fields.filter (!·.isPadding) with
  | [field] => field.conglomerates || field.times == .once || field.times == .count 1
  | _ => false

/-- Decoded values in the shape that the format gives to replies. -/
def Format.collapse (format : Format) (values : List Value) : Reply :=
  -- A field that may be one value on its own can still have come out as more, or as none.
  match values with
  | [value] => if format.collapses then .single value else .multiple values
  | _ => .multiple values

/-- A reply has just the values that were decoded. -/
theorem Format.collapse_values (format : Format) (values : List Value) :
    (format.collapse values).values = values := by
  unfold Format.collapse
  split
  · split <;> rfl
  · rfl

end BoardRpc
