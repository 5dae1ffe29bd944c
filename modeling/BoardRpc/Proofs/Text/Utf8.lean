import BoardRpc.Proofs.Except
import BoardRpc.Text.Utf8

/-! Reading the bytes of a text gives the text back, and only its bytes are read as it. -/

namespace BoardRpc.Text

/-- Two bytes make a character that is not ASCII and fits eleven bits. -/
theorem beginChar?_two {index byte : Nat} (low : 0xc2 ≤ byte) (high : byte ≤ 0xdf) :
    beginChar? index byte = some ⟨index, 1, byte % 32, 0x80, 0xbf, 0⟩ := by
  -- The first rule is the one for two bytes.
  simp [beginChar?, low, high]

/-- Three bytes make a character, the second byte keeping out short values and surrogates. -/
theorem beginChar?_three {index byte : Nat} (low : 0xe0 ≤ byte) (high : byte ≤ 0xef) :
    beginChar? index byte = some ⟨index, 1, byte % 16, if byte = 0xe0 then 0xa0 else 0x80,
      if byte = 0xed then 0x9f else 0xbf, 1⟩ := by
  -- Three rules share this range, two of them for a single byte.
  unfold beginChar?
  split_ifs <;> simp_all <;> omega

/-- Four bytes make a character, the second byte keeping out short values and those too large. -/
theorem beginChar?_four {index byte : Nat} (low : 0xf0 ≤ byte) (high : byte ≤ 0xf4) :
    beginChar? index byte = some ⟨index, 1, byte % 8, if byte = 0xf0 then 0x90 else 0x80,
      if byte = 0xf4 then 0x8f else 0xbf, 2⟩ := by
  -- Three rules share this range, two of them for a single byte.
  unfold beginChar?
  split_ifs <;> simp_all <;> omega

/-- A first byte of several is one of three kinds. -/
theorem beginChar?_range {index byte : Nat} {begun : Begun}
    (started : beginChar? index byte = some begun) : 0xc2 ≤ byte ∧ byte ≤ 0xf4 := by
  -- Every rule lies within these bounds.
  unfold beginChar? at started
  split_ifs at started <;> simp_all <;> omega

/-- A byte behind the first holds six bits. -/
theorem toNat_tail (v : Nat) : (UInt8.ofNat (v % 0x40 + 0x80)).toNat = v % 0x40 + 0x80 := by
  simp
  omega

/-- The encoding of a character is read as that character, whatever follows. -/
theorem readChars_encodeChar (index : Nat) (c : Char) (rest : Bytes) :
    readChars index none (String.utf8EncodeChar c ++ rest)
      = (readChars (index + c.utf8Size) none rest).map (c :: ·) := by
  have valid := c.valid
  have whole : Char.ofNat c.val.toNat = c := Char.ofNat_toNat c
  rw [← String.length_utf8EncodeChar]
  simp only [UInt32.isValidChar, Nat.isValidChar] at valid
  unfold String.utf8EncodeChar
  generalize c.val.toNat = v at valid whole
  dsimp only
  -- The encoding has one to four bytes, and the reader collects their bits again.
  split
  · have low : (UInt8.ofNat v).toNat = v := by simp; omega
    simp [readChars, low, show v < 0x80 by omega, whole]
  · split
    · -- Two bytes: the first has five bits of the number, the second six.
      have first : (UInt8.ofNat (v / 64 % 0x20 + 0xc0)).toNat = v / 64 + 0xc0 := by simp; omega
      have value : (v / 64 + 0xc0) % 32 * 64 + (v % 0x40 + 0x80) % 64 = v := by omega
      simp only [List.cons_append, List.nil_append, readChars, first, toNat_tail]
      rw [if_neg (by omega), beginChar?_two (by omega) (by omega)]
      simp only [value, whole]
      rw [if_pos (by omega)]
      rfl
    · split
      · -- Three bytes: numbers that two bytes could hold, and surrogates, are refused.
        have first : (UInt8.ofNat (v / 4096 % 0x10 + 0xe0)).toNat = v / 4096 + 0xe0 := by
          simp; omega
        have value : ((v / 4096 + 0xe0) % 16 * 64 + (v / 64 % 0x40 + 0x80) % 64) * 64
            + (v % 0x40 + 0x80) % 64 = v := by omega
        simp only [List.cons_append, List.nil_append, readChars, first, toNat_tail]
        rw [if_neg (by omega), beginChar?_three (by omega) (by omega)]
        simp only [value, whole]
        rw [if_pos (by split_ifs <;> omega), if_pos (by omega)]
        rfl
      · -- Four bytes: the first may not begin a number beyond the last character.
        have first : (UInt8.ofNat (v / 262144 % 0x08 + 0xf0)).toNat = v / 262144 + 0xf0 := by
          simp; omega
        have value : (((v / 262144 + 0xf0) % 8 * 64 + (v / 4096 % 0x40 + 0x80) % 64) * 64
            + (v / 64 % 0x40 + 0x80) % 64) * 64 + (v % 0x40 + 0x80) % 64 = v := by omega
        simp only [List.cons_append, List.nil_append, readChars, first, toNat_tail]
        rw [if_neg (by omega), beginChar?_four (by omega) (by omega)]
        simp only [value, whole]
        rw [if_pos (by split_ifs <;> omega), if_pos (by omega), if_pos (by omega)]
        rfl

/-- A text's bytes stand for that text. -/
theorem ofUtf8_utf8 (text : String) : ofUtf8 (utf8 text) = .ok text := by
  -- Errors count indices, so the index stays open in the induction over the characters.
  have general : ∀ (chars : List Char) (index : Nat),
      readChars index none (chars.flatMap String.utf8EncodeChar) = .ok chars := by
    intro chars
    induction chars with
    | nil => intro index; rfl
    | cons c rest ih =>
      intro index
      rw [List.flatMap_cons, readChars_encodeChar, ih]
      rfl
  simp only [ofUtf8, utf8, general, Except.map, String.ofList_toList]

/-- Bytes may complete a character that has begun: each such completion, behind what was read,
is the encoding of the character it makes. -/
def Completes (done : Bytes) (value low high : Nat) : Nat → Prop
  | 0 => ∀ byte : UInt8, low ≤ byte.toNat → byte.toNat ≤ high →
      String.utf8EncodeChar (Char.ofNat (value * 64 + byte.toNat % 64)) = done ++ [byte]
  | more + 1 => ∀ byte : UInt8, low ≤ byte.toNat → byte.toNat ≤ high →
      Completes (done ++ [byte]) (value * 64 + byte.toNat % 64) 0x80 0xbf more

/-- The bytes read of a character that may have begun. -/
def Pending : Option Begun → Bytes → Prop
  | none, done => done = []
  | some begun, done => Completes done begun.value begun.low begun.high begun.more

/-- A valid number is that of the character it makes. -/
theorem toNat_ofNat_of_valid {v : Nat} (valid : v.isValidChar) : (Char.ofNat v).val.toNat = v := by
  simp [Char.ofNat, valid, Char.ofNatAux]

/-- The number of a byte makes that byte. -/
theorem ofNat_eq_byte {n : Nat} (byte : UInt8) (same : n = byte.toNat) : UInt8.ofNat n = byte := by
  simp [same]

/-- Two bytes within the bounds are the encoding of the character they make. -/
theorem encodeChar_two {first second : UInt8}
    (lead : 0xc2 ≤ first.toNat ∧ first.toNat ≤ 0xdf)
    (tail : 0x80 ≤ second.toNat ∧ second.toNat ≤ 0xbf) :
    String.utf8EncodeChar (Char.ofNat (first.toNat % 32 * 64 + second.toNat % 64))
      = [first, second] := by
  -- Eleven bits are below the surrogates, and the lead keeps out what fits one byte.
  have valid : (first.toNat % 32 * 64 + second.toNat % 64).isValidChar := by left; omega
  simp only [String.utf8EncodeChar, toNat_ofNat_of_valid valid]
  rw [if_neg (by omega), if_pos (by omega), ofNat_eq_byte first (by omega),
    ofNat_eq_byte second (by omega)]

/-- Three bytes within the bounds are the encoding of the character they make. -/
theorem encodeChar_three {first second third : UInt8}
    (lead : 0xe0 ≤ first.toNat ∧ first.toNat ≤ 0xef)
    (above : (if first.toNat = 0xe0 then 0xa0 else 0x80) ≤ second.toNat)
    (below : second.toNat ≤ if first.toNat = 0xed then 0x9f else 0xbf)
    (tail : 0x80 ≤ third.toNat ∧ third.toNat ≤ 0xbf) :
    String.utf8EncodeChar (Char.ofNat
        ((first.toNat % 16 * 64 + second.toNat % 64) * 64 + third.toNat % 64))
      = [first, second, third] := by
  have inside : 0x80 ≤ second.toNat ∧ second.toNat ≤ 0xbf := by
    split_ifs at above below <;> omega
  -- The lower bound keeps out what fits two bytes, and the upper one keeps out surrogates.
  have long : 0x7ff < (first.toNat % 16 * 64 + second.toNat % 64) * 64 + third.toNat % 64 := by
    split_ifs at above <;> omega
  have valid :
      ((first.toNat % 16 * 64 + second.toNat % 64) * 64 + third.toNat % 64).isValidChar := by
    unfold Nat.isValidChar
    split_ifs at below <;> omega
  simp only [String.utf8EncodeChar, toNat_ofNat_of_valid valid]
  rw [if_neg (by omega), if_neg (by omega), if_pos (by omega),
    ofNat_eq_byte first (by omega), ofNat_eq_byte second (by omega),
    ofNat_eq_byte third (by omega)]

/-- Four bytes within the bounds are the encoding of the character they make. -/
theorem encodeChar_four {first second third fourth : UInt8}
    (lead : 0xf0 ≤ first.toNat ∧ first.toNat ≤ 0xf4)
    (above : (if first.toNat = 0xf0 then 0x90 else 0x80) ≤ second.toNat)
    (below : second.toNat ≤ if first.toNat = 0xf4 then 0x8f else 0xbf)
    (tail : 0x80 ≤ third.toNat ∧ third.toNat ≤ 0xbf)
    (last : 0x80 ≤ fourth.toNat ∧ fourth.toNat ≤ 0xbf) :
    String.utf8EncodeChar (Char.ofNat
        (((first.toNat % 8 * 64 + second.toNat % 64) * 64 + third.toNat % 64) * 64
          + fourth.toNat % 64))
      = [first, second, third, fourth] := by
  have inside : 0x80 ≤ second.toNat ∧ second.toNat ≤ 0xbf := by
    split_ifs at above below <;> omega
  -- The lower bound keeps out what fits three bytes, and the upper one what no character is.
  have long : 0xffff < ((first.toNat % 8 * 64 + second.toNat % 64) * 64 + third.toNat % 64) * 64
      + fourth.toNat % 64 := by
    split_ifs at above <;> omega
  have valid : (((first.toNat % 8 * 64 + second.toNat % 64) * 64 + third.toNat % 64) * 64
      + fourth.toNat % 64).isValidChar := by
    unfold Nat.isValidChar
    split_ifs at below <;> omega
  simp only [String.utf8EncodeChar, toNat_ofNat_of_valid valid]
  rw [if_neg (by omega), if_neg (by omega), if_neg (by omega),
    ofNat_eq_byte first (by omega), ofNat_eq_byte second (by omega),
    ofNat_eq_byte third (by omega), ofNat_eq_byte fourth (by omega)]

/-- A first byte of several leaves open only completions that are characters. -/
theorem beginChar?_completes {index : Nat} {first : UInt8} {begun : Begun}
    (started : beginChar? index first.toNat = some begun) : Pending (some begun) [first] := by
  -- The lead tells how many bytes follow, and each completion is one of the three kinds.
  obtain ⟨low, high⟩ := beginChar?_range started
  by_cases two : first.toNat ≤ 0xdf
  · rw [beginChar?_two low two] at started
    cases started
    intro second above below
    exact encodeChar_two ⟨low, two⟩ ⟨above, below⟩
  · by_cases three : first.toNat ≤ 0xef
    · rw [beginChar?_three (by omega) three] at started
      cases started
      intro second above below third above' below'
      exact encodeChar_three ⟨by omega, three⟩ above below ⟨above', below'⟩
    · rw [beginChar?_four (by omega) high] at started
      cases started
      intro second above below third above' below' fourth above'' below''
      exact encodeChar_four ⟨by omega, high⟩ above below ⟨above', below'⟩ ⟨above'', below''⟩

/-- What is read is encoded as the bytes it was read from. -/
theorem flatMap_readChars {index : Nat} {begun : Option Begun} {bytes done : Bytes}
    {chars : List Char} (pending : Pending begun done)
    (read : readChars index begun bytes = .ok chars) :
    chars.flatMap String.utf8EncodeChar = done ++ bytes := by
  -- The induction follows the reader; what it has read of a character waits in `done`.
  fun_induction readChars index begun bytes generalizing done chars with
  | case1 => cases read; cases pending; rfl
  | case2 | case4 | case8 => cases read
  | case3 index byte rest ascii ih =>
    -- A byte of its own is a character of its own.
    obtain ⟨others, readRest, rfl⟩ := map_eq_ok read
    cases pending
    have valid : byte.toNat.isValidChar := by left; omega
    have single : String.utf8EncodeChar (Char.ofNat byte.toNat) = [byte] := by
      simp only [String.utf8EncodeChar, toNat_ofNat_of_valid valid]
      rw [if_pos (by omega), ofNat_eq_byte byte rfl]
    rw [List.flatMap_cons, single, ih rfl readRest]
    rfl
  | case5 index byte rest _ begun started ih =>
    cases pending
    exact ih (beginChar?_completes started) read
  | case6 =>
    rename_i index begun byte rest within value ends ih
    obtain ⟨others, readRest, rfl⟩ := map_eq_ok read
    -- The last byte completes the character that was pending.
    simp only [Pending, ends, Completes] at pending
    rw [List.flatMap_cons, pending byte within.1 within.2, ih rfl readRest, List.append_assoc]
    rfl
  | case7 =>
    rename_i index begun byte rest within value more goesOn ih
    -- The byte joins those that are pending.
    simp only [Pending, goesOn, Completes] at pending
    rw [ih (pending byte within.1 within.2) read, List.append_assoc]
    rfl

/-- Bytes that stand for a text are the bytes of that text. -/
theorem utf8_of_ofUtf8 {bytes : Bytes} {text : String} (read : ofUtf8 bytes = .ok text) :
    utf8 text = bytes := by
  -- Nothing is pending at the start.
  obtain ⟨chars, readAll, rfl⟩ := map_eq_ok read
  have nothing : Pending none [] := rfl
  rw [utf8, String.toList_ofList, flatMap_readChars nothing readAll, List.nil_append]

/-- A character has a zero byte only where it is the zero character. -/
theorem zero_mem_encodeChar {c : Char} : 0 ∈ String.utf8EncodeChar c ↔ c = '\x00' := by
  constructor
  · intro member
    -- A byte is zero exactly if its number is, up to 256.
    have byte_zero : ∀ {n : Nat}, 0 = UInt8.ofNat n → n % 256 = 0 := by
      intro n same
      simpa using (congrArg UInt8.toNat same).symm
    -- Every byte of a character beyond ASCII has its highest bit set.
    have zero : c.val.toNat = 0 := by
      unfold String.utf8EncodeChar at member
      generalize c.val.toNat = v at member ⊢
      dsimp only at member
      split_ifs at member with one two three
      · rw [List.mem_singleton] at member
        have := byte_zero member
        omega
      · simp only [List.mem_cons, List.not_mem_nil, or_false] at member
        rcases member with first | second
        · have := byte_zero first; omega
        · have := byte_zero second; omega
      · simp only [List.mem_cons, List.not_mem_nil, or_false] at member
        rcases member with first | second | third
        · have := byte_zero first; omega
        · have := byte_zero second; omega
        · have := byte_zero third; omega
      · simp only [List.mem_cons, List.not_mem_nil, or_false] at member
        rcases member with first | second | third | fourth
        · have := byte_zero first; omega
        · have := byte_zero second; omega
        · have := byte_zero third; omega
        · have := byte_zero fourth; omega
    rw [← Char.ofNat_toNat c, Char.toNat, zero]
  · rintro rfl
    decide

/-- A text has a zero byte only where it has the zero character. -/
theorem zero_mem_utf8 {text : String} : 0 ∈ utf8 text ↔ '\x00' ∈ text.toList := by
  -- The bytes of a text are those of its characters.
  simp only [utf8, List.mem_flatMap, zero_mem_encodeChar, exists_eq_right]

end BoardRpc.Text
