import BoardRpc.Size

/-! Text as bytes in UTF-8, with the exact place where bytes stop being text. -/

namespace BoardRpc.Text

/-- The bytes of a text. -/
def utf8 (text : String) : Bytes := text.toList.flatMap String.utf8EncodeChar

/-- Why bytes are no text: where the faulty character begins, and how many of its bytes could
not go on as they did, or none if the bytes end inside it. -/
structure Utf8Fault where
  index : Nat
  length : Option Nat
  deriving DecidableEq, Repr, Inhabited

/-- The fault as messages name it. -/
def Utf8Fault.message (fault : Utf8Fault) : String :=
  match fault.length with
  | some length => s!"invalid utf-8 sequence of {length} bytes from index {fault.index}"
  | none => s!"incomplete utf-8 byte sequence from index {fault.index}"

/-- A character that has begun: its first index, its bytes and value so far, the bounds on the
next byte, and how many bytes follow that one. -/
structure Begun where
  index : Nat
  bytes : Nat
  value : Nat
  low : Nat
  high : Nat
  more : Nat

/-- A character of several bytes, begun by its first byte. The bounds on the second byte keep out
longer forms of what fits fewer bytes, surrogates, and points beyond the last one. -/
def beginChar? (index byte : Nat) : Option Begun :=
  -- The first byte tells the number of bytes, and holds the highest bits of the value.
  if 0xc2 ≤ byte ∧ byte ≤ 0xdf then some ⟨index, 1, byte % 32, 0x80, 0xbf, 0⟩
  else if byte = 0xe0 then some ⟨index, 1, byte % 16, 0xa0, 0xbf, 1⟩
  else if byte = 0xed then some ⟨index, 1, byte % 16, 0x80, 0x9f, 1⟩
  else if 0xe1 ≤ byte ∧ byte ≤ 0xef then some ⟨index, 1, byte % 16, 0x80, 0xbf, 1⟩
  else if byte = 0xf0 then some ⟨index, 1, byte % 8, 0x90, 0xbf, 2⟩
  else if 0xf1 ≤ byte ∧ byte ≤ 0xf3 then some ⟨index, 1, byte % 8, 0x80, 0xbf, 2⟩
  else if byte = 0xf4 then some ⟨index, 1, byte % 8, 0x80, 0x8f, 2⟩
  else none

/-- The characters of bytes from an index on, where one character may have begun already. -/
def readChars (index : Nat) : Option Begun → Bytes → Except Utf8Fault (List Char)
  | none, [] => .ok []
  -- More bytes could complete the character.
  | some begun, [] => .error ⟨begun.index, none⟩
  | none, byte :: rest =>
    -- A byte below that is a character on its own.
    if byte.toNat < 0x80 then
      (readChars (index + 1) none rest).map (Char.ofNat byte.toNat :: ·)
    else match beginChar? index byte.toNat with
      | none => .error ⟨index, some 1⟩
      | some begun => readChars (index + 1) (some begun) rest
  | some begun, byte :: rest =>
    -- Every further byte holds six bits of the value.
    if begun.low ≤ byte.toNat ∧ byte.toNat ≤ begun.high then
      let value := begun.value * 64 + byte.toNat % 64
      match begun.more with
      | 0 => (readChars (index + 1) none rest).map (Char.ofNat value :: ·)
      | more + 1 =>
        readChars (index + 1) (some ⟨begun.index, begun.bytes + 1, value, 0x80, 0xbf, more⟩) rest
    else .error ⟨begun.index, some begun.bytes⟩

/-- The text that bytes stand for. -/
def ofUtf8 (bytes : Bytes) : Except Utf8Fault String :=
  (readChars 0 none bytes).map String.ofList

end BoardRpc.Text
