import BoardRpc.Format.Arity
import BoardRpc.Format.Error
import BoardRpc.Text.Blank

/-! Reading a format from its text: an optional byte order, then fields, each behind its repeat. -/

namespace BoardRpc.Format

/-- Why a text is no format. -/
inductive Defect
  | unmatchedClose
  | unmatchedOpen
  | emptyGroup
  | wildcardNotLast
  | wildcardInGroup
  | wildcardWithCount
  | wildcardAlone
  | wildcardPadding
  | countAlone
  | countTooLarge
  | unknownLetter (letter : Char)
  | fieldTooLarge
  | repeatedNothing
  | formatTooLarge
  | tooManyArguments
  deriving DecidableEq, Repr, Inhabited

/-- The defect as messages name it. -/
def Defect.message : Defect → String
  | .unmatchedClose => "unmatched ')'"
  | .unmatchedOpen => "unmatched '('"
  | .emptyGroup => "empty group"
  | .wildcardNotLast => "wildcard must be the last field"
  | .wildcardInGroup => "wildcards not allowed inside groups"
  | .wildcardWithCount => "wildcard combined with a count"
  | .wildcardAlone => "wildcard without a type"
  | .wildcardPadding => "padding cannot be wildcard-repeated"
  | .countAlone => "repeat count without a type"
  | .countTooLarge => "repeat count overflows"
  | .unknownLetter letter => "unknown type letter " ++ Text.quotedChar letter
  | .fieldTooLarge => "field size overflows"
  | .repeatedNothing => "repeated group has a zero-size body"
  | .formatTooLarge => "format size overflows"
  | .tooManyArguments => "argument count overflows"

/-- A defect and the rest of the text from where it was found. -/
structure Blemish where
  defect : Defect
  rest : List Char
  deriving DecidableEq, Repr, Inhabited

/-- Bytes that a text takes in UTF-8. -/
def byteLength : List Char → Nat
  | [] => 0
  | c :: rest => c.utf8Size + byteLength rest

/-- Characters of the rest that a message shows. -/
def snippetLength : Nat := 8

/-- A blemish as an error of the text that has it. -/
def Blemish.report (source : String) (blemish : Blemish) : FormatError :=
  -- What is left tells how much of the text lies in front of it.
  let snippet := blemish.rest.take snippetLength
  let reason := blemish.defect.message
  { format := source
    fault := .malformed (byteLength source.toList - byteLength blemish.rest)
      (if snippet.isEmpty then reason
        else s!"{reason} (near {Text.quoted (String.ofList snippet)})") }

/-- A decimal count and what follows it, or the field's single occurrence where none is written. -/
def readRepeat (text : List Char) : Except Blemish (Repeat × List Char) :=
  match text with
  | '*' :: rest =>
    -- The count would contradict the star.
    if rest.head?.any Char.isDigit then .error ⟨.wildcardWithCount, text⟩
    else .ok (.wildcard, rest)
  | _ =>
    let digits := text.takeWhile Char.isDigit
    let value := digits.foldl (fun value digit => value * 10 + (digit.toNat - '0'.toNat)) 0
    -- A count of one is kept apart from no count at all: a group becomes a list by it.
    if digits.isEmpty then .ok (.once, text)
    else if value ≤ maxSize then .ok (.count value, text.dropWhile Char.isDigit)
    else .error ⟨.countTooLarge, text⟩

/-- A repeat leaves a text no longer than it was read from. -/
theorem length_readRepeat_le {text rest : List Char} {times : Repeat}
    (read : readRepeat text = .ok (times, rest)) : rest.length ≤ text.length := by
  -- What is left is the text without its star, without its digits, or the text itself.
  unfold readRepeat at read
  split at read
  · split at read
    · cases read
    · cases read; simp
  · dsimp only at read
    split at read
    · cases read; exact Nat.le_refl _
    · split at read
      · cases read; exact (List.dropWhile_sublist _).length_le
      · cases read

/-- A field whose size can be kept; `start` is the text from its repeat on. -/
def sized (start : List Char) (field : Field) : Except Blemish Field :=
  if field.minSize.isNone then .error ⟨.fieldTooLarge, start⟩ else .ok field

/-- The field that a letter other than an opening parenthesis stands for.
The two texts are those from the repeat on and from the letter on. -/
def readLeaf (start fromLetter : List Char) (times : Repeat) (letter : Char) :
    Except Blemish Field :=
  match letter with
  | 'S' => sized start (.text times)
  | 'X' => sized start (.raw times)
  | _ =>
    match Primitive.ofLetter? letter with
    | some kind =>
      if kind = .pad ∧ times.isWildcard then .error ⟨.wildcardPadding, start⟩
      else sized start (.primitive kind times)
    -- The letter is out of place, not the repeat in front of it.
    | none => .error ⟨.unknownLetter letter, fromLetter⟩

/-- The group around a body; the two texts are those from the repeat on and from the opening
parenthesis on. -/
def readGroup (start fromOpen : List Char) (times : Repeat) (body : List Field) :
    Except Blemish Field :=
  if body.isEmpty then .error ⟨.emptyGroup, fromOpen⟩
  else match sized start (.group body times) with
    | .error blemish => .error blemish
    | .ok field =>
      -- Repetitions of nothing could go on for ever.
      if times ≠ .once ∧ Field.totalMinSize body = some 0 then .error ⟨.repeatedNothing, start⟩
      else .ok field

/-- What comes next in a text: the end of the row of fields, one field, or the start of a group. -/
inductive Opening (text : List Char)
  | stop (rest : List Char) (shorter : rest.length ≤ text.length)
  | leaf (start : List Char) (field : Field) (rest : List Char)
      (shorter : rest.length < text.length)
  | group (start fromOpen : List Char) (times : Repeat) (inner : List Char)
      (shorter : inner.length < text.length)

/-- Reads up to the end of a field that is no group, or up to the inside of a group. -/
def readOpening (inGroup : Bool) (text : List Char) : Except Blemish (Opening text) :=
  let start := Text.skipBlank text
  have skipped : start.length ≤ text.length := Text.length_skipBlank_le text
  if start.isEmpty ∨ start.head? = some ')' then .ok (.stop start skipped)
  else match read : readRepeat start with
    | .error blemish => .error blemish
    | .ok (times, fromLetter) =>
      have repeated := length_readRepeat_le read
      -- What a wildcard takes ends with the payload, so that no group can hold one.
      if times.isWildcard ∧ inGroup then .error ⟨.wildcardInGroup, start⟩
      else match fromLetter with
        | [] => .error ⟨if times.isWildcard then .wildcardAlone else .countAlone, start⟩
        | letter :: rest =>
          have shorter : rest.length < text.length := by
            simp only [List.length_cons] at repeated; omega
          -- The body of a group is a row of its own, so only its beginning is told here.
          if letter = '(' then .ok (.group start fromLetter times rest shorter)
          else match readLeaf start fromLetter times letter with
            | .error blemish => .error blemish
            | .ok field => .ok (.leaf start field rest shorter)

/-- Fields in a row, and the text behind them, which is empty or begins with a closing
parenthesis. -/
structure Row (text : List Char) where
  fields : List Field
  rest : List Char
  shorter : rest.length ≤ text.length

/-- Reads fields in a row, inside a group or not, and behind a wildcard or not. -/
def readRow (inGroup afterWildcard : Bool) (text : List Char) : Except Blemish (Row text) :=
  match readOpening inGroup text with
  | .error blemish => .error blemish
  | .ok (.stop rest shorter) => .ok ⟨[], rest, shorter⟩
  | .ok (.leaf start field rest shorter) =>
    -- A field behind a wildcard is told as such only if it has no defect of its own.
    if afterWildcard then .error ⟨.wildcardNotLast, start⟩
    else match readRow inGroup field.times.isWildcard rest with
      | .error blemish => .error blemish
      | .ok row => .ok ⟨field :: row.fields, row.rest, by have := row.shorter; omega⟩
  | .ok (.group start fromOpen times inner shorter) =>
    match readRow true false inner with
    | .error blemish => .error blemish
    | .ok body =>
      match closed : body.rest with
      | [] => .error ⟨.unmatchedOpen, fromOpen⟩
      | _ :: rest =>
        have behind : rest.length < inner.length := by
          have := body.shorter; simp only [closed, List.length_cons] at this; omega
        -- The body ends at a closing parenthesis, which is passed here.
        match readGroup start fromOpen times body.fields with
        | .error blemish => .error blemish
        | .ok field =>
          if afterWildcard then .error ⟨.wildcardNotLast, start⟩
          else match readRow inGroup times.isWildcard rest with
            | .error blemish => .error blemish
            | .ok row => .ok ⟨field :: row.fields, row.rest, by have := row.shorter; omega⟩
termination_by text.length

/-- Reads the byte order and the fields of a whole text. -/
def readText (text : List Char) : Except Blemish (ByteOrder × List Field) :=
  let start := Text.skipBlank text
  let (order, rest) := match start with
    | mark :: rest =>
      match ByteOrder.ofMark? mark with
      | some order => (order, rest)
      | none => (.little, start)
    | [] => (.little, start)
  -- A text without a mark is little-endian.
  match readRow false false rest with
  | .error blemish => .error blemish
  | .ok row =>
    -- Outside of groups a row ends only at the end of the text.
    if !row.rest.isEmpty then .error ⟨.unmatchedClose, row.rest⟩
    else if (Field.totalMinSize row.fields).isNone then .error ⟨.formatTooLarge, text⟩
    else if (checkedArity row.fields).isNone then .error ⟨.tooManyArguments, text⟩
    else .ok (order, row.fields)

/-- Reads a format. -/
def parse (source : String) : Except FormatError Format :=
  match readText source.toList with
  | .error blemish => .error (blemish.report source)
  | .ok (order, fields) => .ok ⟨source, order, fields⟩

end BoardRpc.Format
