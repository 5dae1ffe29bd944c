import BoardRpc.Proofs.Codec.Layout
import BoardRpc.Proofs.Codec.Restore

/-! Plain payloads: one text, or words in a row. -/

namespace BoardRpc

/-- The text that a payload stands for: its bytes in UTF-8 with a zero byte behind them, which is
the only one. -/
def textOf? (data : Bytes) : Option String :=
  if data.idxOf? 0 = some (data.length - 1) then (Text.ofUtf8 data.dropLast).toOption else none

/-- The words that a payload stands for: four bytes each, the lowest first. -/
def wordsOf? : Bytes → Option (List UInt32)
  | [] => some []
  | a :: b :: c :: d :: rest =>
    (wordsOf? rest).map (UInt32.ofNat
      (a.toNat + 256 * b.toNat + 65536 * c.toNat + 16777216 * d.toNat) :: ·)
  | _ => none

/-- A payload stands for a text exactly if it is the text with a zero byte. -/
theorem textOf?_eq_some {data : Bytes} {text : String} :
    textOf? data = some text ↔ data = Text.utf8 text ++ [0] ∧ '\x00' ∉ text.toList := by
  constructor
  · intro stands
    unfold textOf? at stands
    split at stands
    · rename_i last
      -- The first zero byte is the last byte, so the bytes in front of it are the text.
      obtain ⟨bytes, tail, rfl, nonzero, place⟩ := idxOf?_zero_ok last
      have ends : tail = [] := by
        simp only [List.length_append, List.length_cons] at place
        exact List.length_eq_zero_iff.mp (by omega)
      subst ends
      rw [List.dropLast_concat] at stands
      cases read : Text.ofUtf8 bytes with
      | error fault =>
        rw [read] at stands
        cases stands
      | ok found =>
        rw [read] at stands
        cases stands
        obtain rfl := Text.utf8_of_ofUtf8 read
        exact ⟨rfl, fun zero => nonzero (Text.zero_mem_utf8.mpr zero)⟩
    · cases stands
  · rintro ⟨rfl, zero⟩
    -- A text without the null character has no zero byte of its own.
    have nonzero : 0 ∉ Text.utf8 text := fun here => zero (Text.zero_mem_utf8.mp here)
    have last : (Text.utf8 text ++ [0]).idxOf? 0 = some ((Text.utf8 text ++ [0]).length - 1) := by
      rw [idxOf?_zero nonzero, List.length_append]
      rfl
    rw [textOf?, if_pos last, List.dropLast_concat, Text.ofUtf8_utf8]
    rfl

namespace Format

/-- In a format of one string, a payload is decoded exactly if it stands for a text. -/
theorem decode_text {source : String} {order : ByteOrder} {data : Bytes} {values : List Value} :
    (⟨source, order, [.text .once]⟩ : Format).decode data = .ok values ↔
      ∃ text, textOf? data = some text ∧ values = [.str text] := by
  -- A decoded payload is one that is read as a row, with nothing left behind it.
  rw [decode_eq_ok]
  constructor
  · intro decoded
    -- The row has one field, which is read from the front.
    obtain ⟨first, rest, here, more, found, enough, read, behind, rfl, all⟩ :=
      Codec.decodeRow_cons.mp decoded
    cases behind
    -- The one string that is found takes the whole payload, and is written as that payload.
    obtain rfl : first = data.length := by simpa using all.symm
    have found : repeatExtent stringExtent 1 data = .ok data.length := found
    have single := Codec.length_decodeTexts found read
    rw [List.take_length] at read
    have written := Codec.encodeEach_decodeTexts read
    obtain ⟨value, rfl⟩ := List.length_eq_one_iff.mp single
    obtain ⟨bytes, none, encoded, nothing, rfl⟩ := Codec.encodeEach_cons written
    cases nothing
    obtain ⟨isText, rfl⟩ := Codec.encodeText_eq_ok.mp encoded
    cases value with
    | str text =>
      refine ⟨text, textOf?_eq_some.mpr ⟨List.append_nil _, isText⟩, rfl⟩
    | _ => exact isText.elim
  · -- Conversely the text with its zero byte is found as one string.
    rintro ⟨text, stands, rfl⟩
    obtain ⟨rfl, zero⟩ := textOf?_eq_some.mp stands
    have nonzero : 0 ∉ Text.utf8 text := fun here => zero (Text.zero_mem_utf8.mp here)
    have extent : (Field.text .once).extent (Text.utf8 text ++ [0])
        = .ok (Text.utf8 text ++ [0]).length := by
      have first := stringExtent_append nonzero []
      simp [Field.extent, Repeat.count?, repeatExtent, first]
    refine Codec.decodeRow_cons.mpr ⟨_, 0, [.str text], [], extent, le_rfl, ?_, rfl, rfl, rfl⟩
    rw [List.take_length]
    exact (Codec.decodeTexts_append nonzero).mpr ⟨text, [], Text.ofUtf8_utf8 text, by
      simp [Codec.decodeTexts], rfl⟩

/-- Words are read four bytes at a time, and only if no byte is left behind them. -/
theorem wordsOf?_eq (data : Bytes) :
    (wordsOf? data).map (·.map fun word => Value.ofNat word.toNat) =
      if data.length % 4 = 0 then
        some (Codec.decodeElements .little .uint32 (data.length / 4) data)
      else none := by
  -- By induction on the payload, four bytes at a time.
  induction data using wordsOf?.induct with
  | case1 => rfl
  | case2 a b c d rest ih =>
    -- Four bytes more are one word more.
    have count : (a :: b :: c :: d :: rest).length / 4 = rest.length / 4 + 1 := by
      simp only [List.length_cons]
      omega
    have left : (a :: b :: c :: d :: rest).length % 4 = rest.length % 4 := by
      simp only [List.length_cons]
      omega
    -- Four bytes are put together to a number that is below 2^32.
    have word : Codec.decodePrimitive .little .uint32 [a, b, c, d] = .ofNat (UInt32.ofNat
        (a.toNat + 256 * b.toNat + 65536 * c.toNat + 16777216 * d.toNat)).toNat := by
      have joined : Word.join [a, b, c, d]
          = a.toNat + 256 * b.toNat + 65536 * c.toNat + 16777216 * d.toNat := by
        simp only [Word.join]
        omega
      have small : Word.join [a, b, c, d] < UInt32.size := by
        have first := a.toNat_lt
        have second := b.toNat_lt
        have third := c.toNat_lt
        have last := d.toNat_lt
        simp only [joined, UInt32.size]
        omega
      rw [← joined, UInt32.toNat_ofNat_of_lt' small]
      rfl
    have first : Codec.decodeElements .little .uint32 (rest.length / 4 + 1)
        (a :: b :: c :: d :: rest)
        = Codec.decodePrimitive .little .uint32 [a, b, c, d]
          :: Codec.decodeElements .little .uint32 (rest.length / 4) rest := rfl
    rw [count, left, first, word, wordsOf?]
    -- Whether bytes are left over is decided behind the first word.
    by_cases even : rest.length % 4 = 0
    · rw [if_pos even] at ih ⊢
      obtain ⟨words, stands, read⟩ := Option.map_eq_some_iff.mp ih
      rw [stands, ← read]
      rfl
    · rw [if_neg even] at ih ⊢
      rw [Option.map_eq_none_iff.mp ih]
      rfl
  | case3 data nonempty long =>
    -- One to three bytes are no word.
    have few : data.length % 4 ≠ 0 := by
      rcases data with _ | ⟨a, _ | ⟨b, _ | ⟨c, _ | ⟨d, rest⟩⟩⟩⟩
      · exact absurd rfl nonempty
      · simp
      · simp
      · simp
      · exact absurd rfl (long a b c d rest)
    rw [if_neg few, wordsOf?]
    · rfl
    · exact nonempty
    · exact long

/-- In a format of words, a payload is decoded exactly if it stands for words. -/
theorem decode_words {source : String} {data : Bytes} {values : List Value} :
    (⟨source, .little, [.primitive .uint32 .wildcard]⟩ : Format).decode data = .ok values ↔
      ∃ words, wordsOf? data = some words ∧
        values = words.map fun word => .ofNat word.toNat := by
  -- The wildcard takes the whole payload.
  have field : Codec.decodeField .little (.primitive .uint32 .wildcard) data = .ok values ↔
      (wordsOf? data).map (·.map fun word => Value.ofNat word.toNat) = some values := by
    rw [wordsOf?_eq]
    simp only [Codec.decodeField, Repeat.isWildcard, Primitive.width, true_and]
    split <;> simp_all
  rw [Option.map_eq_some_iff] at field
  rw [decode_eq_ok]
  constructor
  · -- What is read is the whole payload, which is therefore words.
    intro decoded
    obtain ⟨first, rest, here, more, found, enough, read, behind, rfl, all⟩ :=
      Codec.decodeRow_cons.mp decoded
    cases behind
    cases found
    rw [List.take_length] at read
    rw [List.append_nil] at field ⊢
    obtain ⟨words, stands, same⟩ := field.mp read
    exact ⟨words, stands, same.symm⟩
  · -- Conversely the wildcard finds the whole payload, and its slots are read as the words.
    rintro ⟨words, stands, rfl⟩
    have read := field.mpr ⟨words, stands, rfl⟩
    refine Codec.decodeRow_cons.mpr ⟨data.length, 0, _, [], rfl, le_rfl, ?_, rfl,
      (List.append_nil _).symm, rfl⟩
    rw [List.take_length]
    exact read

end Format

end BoardRpc
