import BoardRpc.Json.Number

/-! Reading JSON texts. Arrays and objects may be nested up to a fixed depth. -/

namespace BoardRpc.Json

/-- Whether a character may stand between the parts of a text. -/
def isSpace (c : Char) : Bool := c == ' ' || c == '\t' || c == '\n' || c == '\r'

/-- The text without the spaces it begins with. -/
def skipSpace (text : List Char) : List Char := text.dropWhile isSpace

/-- The number of four hexadecimal digits, and the text behind them. -/
def readFourHex? (text : List Char) : Option (Nat × List Char) :=
  match text with
  | a :: b :: c :: d :: rest => (Text.digitsValue? 16 [a, b, c, d] 0).map (·, rest)
  | _ => none

/-- The character of an escape by number; a leading surrogate must be followed by an escape of a
trailing one, and a trailing one cannot stand first. -/
def readNumbered? (text : List Char) : Option (Char × List Char) :=
  match readFourHex? text with
  | none => none
  | some (unit, rest) =>
    -- A surrogate is half of a character, and the leading half comes first.
    if 0xdc00 ≤ unit ∧ unit ≤ 0xdfff then none
    else if 0xd800 ≤ unit ∧ unit ≤ 0xdbff then
      match rest with
      | '\\' :: 'u' :: more =>
        match readFourHex? more with
        | some (trailing, after) =>
          -- Each of the two surrogates holds ten bits of a character beyond four digits.
          if 0xdc00 ≤ trailing ∧ trailing ≤ 0xdfff then
            some (Char.ofNat (0x10000 + (unit - 0xd800) * 0x400 + (trailing - 0xdc00)), after)
          else none
        | none => none
      | _ => none
    else some (Char.ofNat unit, rest)

/-- The character of an escape, behind its backslash. -/
def readEscape? (text : List Char) : Option (Char × List Char) :=
  match text with
  | '"' :: rest => some ('"', rest)
  | '\\' :: rest => some ('\\', rest)
  | '/' :: rest => some ('/', rest)
  | 'b' :: rest => some ('\x08', rest)
  | 'f' :: rest => some ('\x0c', rest)
  | 'n' :: rest => some ('\n', rest)
  | 'r' :: rest => some ('\r', rest)
  | 't' :: rest => some ('\t', rest)
  | 'u' :: rest => readNumbered? rest
  | _ => none

/-- The characters of a string up to its closing quote. Each step takes at least one character, so
as many steps as there are characters suffice. -/
def readChars? : Nat → List Char → Option (List Char × List Char)
  | 0, _ => none
  | steps + 1, text =>
    match text with
    -- A string must be closed.
    | [] => none
    | '"' :: rest => some ([], rest)
    | '\\' :: rest =>
      match readEscape? rest with
      | some (c, after) => (readChars? steps after).map fun (cs, later) => (c :: cs, later)
      | none => none
    | c :: rest =>
      -- Control characters must be escaped.
      if c.toNat < 0x20 then none
      else (readChars? steps rest).map fun (cs, after) => (c :: cs, after)

/-- A string, behind its opening quote. -/
def readString? (text : List Char) : Option (String × List Char) :=
  (readChars? text.length text).map fun (cs, rest) => (String.ofList cs, rest)

/-- The text behind a word that the text begins with. -/
def skipWord? (word : List Char) (text : List Char) : Option (List Char) :=
  if word.isPrefixOf text then some (text.drop word.length) else none

/-- Elements up to the closing bracket, each followed by a comma or by that bracket. -/
def readItems? (item : List Char → Option (Json × List Char)) :
    Nat → List Char → Option (List Json × List Char)
  | 0, _ => none
  | steps + 1, text =>
    match item text with
    | none => none
    | some (value, rest) =>
      match skipSpace rest with
      | ']' :: after => some ([value], after)
      | ',' :: more =>
        (readItems? item steps more).map fun (others, after) => (value :: others, after)
      | _ => none

/-- Members up to the closing brace, each followed by a comma or by that brace. -/
def readMembers? (item : List Char → Option (Json × List Char)) :
    Nat → List Char → Option (List (String × Json) × List Char)
  | 0, _ => none
  | steps + 1, text =>
    -- Only strings can be names.
    match skipSpace text with
    | '"' :: name =>
      match readString? name with
      | none => none
      | some (name, rest) =>
        match skipSpace rest with
        | ':' :: rest =>
          match item rest with
          | none => none
          | some (value, rest) =>
            match skipSpace rest with
            | '\x7d' :: after => some ([(name, value)], after)
            | ',' :: more =>
              (readMembers? item steps more).map fun (others, after) =>
                ((name, value) :: others, after)
            | _ => none
        | _ => none
    | _ => none

/-- A value in which arrays and objects are nested at most so deep. -/
def readValue? (depth : Nat) (text : List Char) : Option (Json × List Char) :=
  match skipSpace text with
  | [] => none
  | '"' :: rest => (readString? rest).map fun (text, after) => (.str text, after)
  | '[' :: rest =>
    match depth with
    -- Even an empty array takes up one level.
    | 0 => none
    | inner + 1 =>
      match skipSpace rest with
      | ']' :: after => some (.arr [], after)
      | _ =>
        (readItems? (readValue? inner) rest.length rest).map fun (items, after) =>
          (.arr items, after)
  | '\x7b' :: rest =>
    match depth with
    | 0 => none
    | inner + 1 =>
      match skipSpace rest with
      | '\x7d' :: after => some (.obj [], after)
      | _ =>
        -- Of two members with one name the later counts.
        (readMembers? (readValue? inner) rest.length rest).map fun (members, after) =>
          (.obj (members.foldl (fun sorted (name, value) => insertMember name value sorted) []),
            after)
  -- What begins in no other way is a word or a number.
  | text =>
    ((skipWord? "null".toList text).map (Json.null, ·))
      <|> ((skipWord? "true".toList text).map (Json.bool true, ·))
      <|> ((skipWord? "false".toList text).map (Json.bool false, ·))
      <|> readNumber? text

/-- The deepest nesting of arrays and objects that is read. -/
def maxDepth : Nat := 127

/-- Reads a whole text as one value. -/
def parse? (text : String) : Option Json :=
  match readValue? maxDepth text.toList with
  -- Nothing but spaces may stand behind the value.
  | some (value, rest) => if (skipSpace rest).isEmpty then some value else none
  | none => none

end BoardRpc.Json
