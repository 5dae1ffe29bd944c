import BoardRpc.Format.Basic

/-! Argument counts, which a format fixes without looking at any payload. -/

namespace BoardRpc

/-- How many arguments a field or a format takes. -/
inductive Arity
  | exact (n : Nat)
  /-- This many, or any number more. -/
  | atLeast (n : Nat)
  deriving DecidableEq, Repr, Inhabited

namespace Arity

/-- How many of the arguments still available belong here. -/
def claim : Arity → Nat → Nat
  | .exact n, _ => n
  -- Only a wildcard leaves its number open, and nothing stands behind it.
  | .atLeast _, available => available

/-- Whether a number of arguments is right. -/
def accepts : Arity → Nat → Bool
  | .exact n, count => count == n
  | .atLeast n, count => n ≤ count

/-- The arguments of two neighbours together, provided their number can be kept. -/
def checkedAdd : Arity → Arity → Option Arity
  | .exact a, .exact b => (checkedSize (a + b)).map .exact
  | .exact a, .atLeast b | .atLeast a, .exact b | .atLeast a, .atLeast b =>
    (checkedSize (a + b)).map .atLeast

/-- The count as messages show it. -/
def describe : Arity → String
  | .exact n => s!"{n}"
  | .atLeast n => s!"at least {n}"

end Arity

/-- Arguments of one field: a run of bytes and a group are one argument whatever they span. -/
def Field.arity : Field → Arity
  | .primitive .pad _ => .exact 0
  | .primitive _ times | .text times =>
    match times.count? with
    | some n => .exact n
    | none => .atLeast 0
  | .raw _ | .group _ _ => .exact 1

/-- Arguments of fields in a row, provided their number can be kept. -/
def checkedArity (fields : List Field) : Option Arity :=
  fields.foldlM (fun total field => total.checkedAdd field.arity) (.exact 0)

/-- Arguments of fields in a row; a number too large to keep is taken for the largest. -/
def arityOf (fields : List Field) : Arity :=
  (checkedArity fields).getD (.atLeast maxSize)

/-- Arguments of a whole format. -/
def Format.arity (format : Format) : Arity := arityOf format.fields

end BoardRpc
