import BoardRpc.Proofs.Codec.Rows

/-! Decoding gives back what was encoded, in canonical form. -/

namespace BoardRpc

namespace Codec

/-- Values that are written begin with the first, and the others follow. -/
theorem encodeEach_cons {encode : Value → Except FieldFault Bytes} {value : Value}
    {others : List Value} {bytes : Bytes}
    (encoded : encodeEach encode (value :: others) = .ok bytes) :
    ∃ first rest, encode value = .ok first ∧ encodeEach encode others = .ok rest ∧
      bytes = first ++ rest := by
  -- The first failure would be an error of the whole.
  simp only [encodeEach] at encoded
  split at encoded
  · cases encoded
  · rename_i first here
    split at encoded
    · cases encoded
    · rename_i rest there
      cases encoded
      exact ⟨first, rest, here, there, rfl⟩

/-- Slots of fixed width that are written one behind the other are read as canonical values. -/
theorem decodeElements_encodeEach {order : ByteOrder} {kind : Primitive} (slot : kind ≠ .pad)
    {args : List Value} {bytes : Bytes}
    (encoded : encodeEach (encodePrimitive order kind) args = .ok bytes) :
    bytes.length = kind.width * args.length ∧
      decodeElements order kind args.length bytes = args.map (canonicalSlot kind) := by
  -- Each slot is as wide as its kind, so the next one starts where it ends.
  induction args generalizing bytes with
  | nil => cases encoded; exact ⟨rfl, rfl⟩
  | cons value others ih =>
    obtain ⟨first, rest, here, there, rfl⟩ := encodeEach_cons encoded
    obtain ⟨width, canonical⟩ := decodePrimitive_encodePrimitive slot here
    obtain ⟨length, read⟩ := ih there
    refine ⟨by rw [List.length_append, width, length, List.length_cons]; ring, ?_⟩
    simp only [List.length_cons, decodeElements, List.map_cons]
    rw [List.take_left' width, List.drop_left' width, canonical, read]

/-- A string ends with the first zero byte, and the others are read behind it. -/
theorem decodeTexts_zero {bytes : Bytes} (nonzero : 0 ∉ bytes) (tail : Bytes) :
    decodeTexts (bytes ++ 0 :: tail) =
      match Text.ofUtf8 bytes with
      | .error fault => .error (.invalidString fault.message)
      | .ok text =>
        match decodeTexts tail with
        | .error fault => .error fault
        | .ok others => .ok (.str text :: others) := by
  have ends := idxOf?_zero nonzero tail
  -- The reader looks at one byte to see that there is a string, which may be its zero byte.
  obtain ⟨byte, rest, split, behind⟩ : ∃ byte rest,
      bytes ++ 0 :: tail = byte :: rest ∧ rest.drop bytes.length = tail := by
    cases bytes with
    | nil => exact ⟨0, tail, rfl, rfl⟩
    | cons byte bytes => exact ⟨byte, bytes ++ 0 :: tail, rfl, by simp⟩
  have front : (byte :: rest).take bytes.length = bytes := by simp [← split]
  rw [split] at ends ⊢
  cases read : Text.ofUtf8 bytes with
  | error => simp only [decodeTexts, ends, front, read]
  | ok =>
    cases others : decodeTexts tail <;>
      simp only [decodeTexts, ends, front, behind, read, others]

/-- Strings are read when the first is text and the others are read. -/
theorem decodeTexts_append {bytes tail : Bytes} (nonzero : 0 ∉ bytes) {values : List Value} :
    decodeTexts (bytes ++ 0 :: tail) = .ok values ↔
      ∃ text others, Text.ofUtf8 bytes = .ok text ∧ decodeTexts tail = .ok others ∧
        values = .str text :: others := by
  rw [decodeTexts_zero nonzero]
  cases Text.ofUtf8 bytes with
  | error => simp
  | ok text =>
    cases decodeTexts tail with
    | error => simp
    | ok others => simp [eq_comm]

/-- Strings that are written one behind the other are read as they were, whatever follows them. -/
theorem decodeTexts_encodeEach {args : List Value} {bytes : Bytes}
    (encoded : encodeEach encodeText args = .ok bytes) :
    decodeTexts bytes = .ok args ∧
      ∀ tail, repeatExtent stringExtent args.length (bytes ++ tail) = .ok bytes.length := by
  -- Each string ends with its own zero byte, so the others are read and found behind it.
  induction args generalizing bytes with
  | nil => cases encoded; exact ⟨by simp [decodeTexts], fun _ => rfl⟩
  | cons value others ih =>
    obtain ⟨first, rest, here, there, rfl⟩ := encodeEach_cons encoded
    obtain ⟨text, rfl, nonzero, rfl⟩ := encodeText_ok here
    obtain ⟨read, extent⟩ := ih there
    refine ⟨?_, fun tail => ?_⟩
    · rw [List.append_assoc]
      exact (decodeTexts_append nonzero).mpr ⟨text, others, Text.ofUtf8_utf8 text, read, rfl⟩
    · rw [List.length_append]
      refine repeatExtent_succ ?_ (by simp) ?_
      · simpa using stringExtent_append nonzero (rest ++ tail)
      · rw [List.append_assoc, List.drop_left]
        exact extent tail

section Entries

/-! A group's entries, given how one entry is written and read. -/

variable {encode : Value → Except FieldFault Bytes} {read : Value → List Value}
  {decode : Bytes → Except FieldFault (List Value × Nat)}
  {values : List Value} {bytes : Bytes}
  (reads : ∀ {value bytes}, encode value = .ok bytes → ∀ tail,
    decode (bytes ++ tail) = .ok (read value, bytes.length))

include reads

/-- A known number of entries is read as written. -/
theorem decodeEntries_encodeEach (encoded : encodeEach encode values = .ok bytes) :
    decodeEntries decode values.length bytes
      = .ok (values.map fun value => .tuple (read value)) := by
  -- The first entry tells its size, and the others are read behind it.
  induction values generalizing bytes with
  | nil => rfl
  | cons value others ih =>
    obtain ⟨first, rest, here, there, rfl⟩ := encodeEach_cons encoded
    simp only [List.length_cons, decodeEntries, reads here, List.drop_left, ih there, List.map_cons]

/-- Entries that each take something are read up to the end. -/
theorem decodeAllEntries_encodeEach
    (growing : ∀ {value bytes}, encode value = .ok bytes → 0 < bytes.length)
    (encoded : encodeEach encode values = .ok bytes) :
    decodeAllEntries decode bytes = .ok (values.map fun value => .tuple (read value)) := by
  -- An entry that takes something is no end, and the reader goes on behind it.
  induction values generalizing bytes with
  | nil =>
    cases encoded
    rw [decodeAllEntries]
    rfl
  | cons value others ih =>
    obtain ⟨first, rest, here, there, rfl⟩ := encodeEach_cons encoded
    have positive := growing here
    have nonempty : (first ++ rest).isEmpty = false := by
      cases first with
      | nil => cases positive
      | cons => rfl
    rw [decodeAllEntries]
    simp only [nonempty, reads here, List.drop_left, ih there, List.map_cons,
      Nat.ne_of_gt positive, Bool.false_eq_true, if_false, dite_false]

end Entries

/-- Entries that each take something take together what was written. -/
theorem repeatExtent_encodeEach {encode : Value → Except FieldFault Bytes}
    {extent : Bytes → Except Shortfall Nat} {values : List Value} {bytes : Bytes}
    (extents : ∀ {value bytes}, encode value = .ok bytes → ∀ tail,
      extent (bytes ++ tail) = .ok bytes.length)
    (growing : ∀ {value bytes}, encode value = .ok bytes → 0 < bytes.length)
    (encoded : encodeEach encode values = .ok bytes) (tail : Bytes) :
    repeatExtent extent values.length (bytes ++ tail) = .ok bytes.length := by
  -- No entry is empty, so the walk goes over all of them.
  induction values generalizing bytes with
  | nil => cases encoded; rfl
  | cons value others ih =>
    obtain ⟨first, rest, here, there, rfl⟩ := encodeEach_cons encoded
    rw [List.length_append, List.append_assoc]
    refine repeatExtent_succ (extents here _) (growing here) ?_
    rw [List.drop_left]
    exact ih there

/-- A tuple that is written is a sequence whose elements are written. -/
theorem encodeTuple_ok {body : List Field} {encode : List Value → Except FieldFault Bytes}
    {value : Value} {bytes : Bytes} (encoded : encodeTuple body encode value = .ok bytes) :
    ∃ items, value.items? = some items ∧ encode items = .ok bytes := by
  -- Any other value, and any wrong number of elements, is an error.
  unfold encodeTuple at encoded
  split at encoded
  · cases encoded
  · rename_i items held
    split at encoded
    · exact ⟨items, held, encoded⟩
    · cases encoded

/-- The entries that are written are a sequence, of the declared number if there is one. -/
theorem encodeEntries_ok {times : Repeat} {encode : Value → Except FieldFault Bytes}
    {value : Value} {bytes : Bytes} (encoded : encodeEntries times encode value = .ok bytes) :
    ∃ entries, value.items? = some entries ∧ encodeEach encode entries = .ok bytes ∧
      ∀ count, times.count? = some count → entries.length = count := by
  -- Without a count any number of entries is written.
  unfold encodeEntries at encoded
  split at encoded
  · cases encoded
  · rename_i entries held
    split at encoded
    · rename_i expected counted
      split at encoded
      · rename_i fits
        refine ⟨entries, held, encoded, fun count same => ?_⟩
        cases counted.symm.trans same
        exact fits
      · cases encoded
    · rename_i wild
      exact ⟨entries, held, encoded, fun count same => by cases wild.symm.trans same⟩

section Slots

/-! Fields of slots that are no padding: how they are written, read and counted. -/

variable {order : ByteOrder} {kind : Primitive} {times : Repeat} (slot : kind ≠ .pad)

include slot

/-- Elements are written one behind the other. -/
theorem encodeField_primitive (args : List Value) :
    encodeField order (.primitive kind times) args
      = encodeEach (encodePrimitive order kind) args := by
  cases kind <;> first | rfl | exact absurd rfl slot

/-- As many elements are read as fit, and a wildcard must fit exactly. -/
theorem decodeField_primitive (data : Bytes) :
    decodeField order (.primitive kind times) data =
      if times.isWildcard ∧ data.length % kind.width ≠ 0 then
        .error (.unalignedWildcard data.length kind.width)
      else .ok (decodeElements order kind (data.length / kind.width) data) := by
  cases kind <;> first | rfl | exact absurd rfl slot

/-- Every element is canonical by itself. -/
theorem canonicalField_primitive (args : List Value) :
    canonicalField (.primitive kind times) args = args.map (canonicalSlot kind) := by
  cases kind <;> first | rfl | exact absurd rfl slot

/-- Every element is an argument. -/
theorem arity_primitive : (Field.primitive kind times).arity =
    match times.count? with
    | some n => .exact n
    | none => .atLeast 0 := by
  cases kind <;> first | rfl | exact absurd rfl slot

end Slots

/-- A share of the arguments is one argument where one is what the field takes. -/
theorem share_one {args : List Value} (share : (Arity.exact 1).claim args.length = args.length) :
    ∃ arg, args = [arg] :=
  List.length_eq_one_iff.mp share.symm

/-- A field written from its share of the arguments is read back from those bytes, and it takes
them from any payload that begins with them; a wildcard takes no less than the whole payload. -/
def FieldReturns (order : ByteOrder) (field : Field) : Prop :=
  ∀ {args bytes}, field.Sound → field.Sized → field.arity.claim args.length = args.length →
    encodeField order field args = .ok bytes →
    decodeField order field bytes = .ok (canonicalField field args) ∧
      ∀ tail, (field.times = .wildcard → tail = []) →
        field.extent (bytes ++ tail) = .ok bytes.length

/-- A row that is written is read back from a payload that begins with it, and that ends with it
unless the row stands in a group. -/
def RowReturns (order : ByteOrder) (fields : List Field) : Prop :=
  ∀ {inGroup args bytes}, RowSound inGroup fields → (Field.totalMinSize fields).isSome →
    encodeRow order fields args = .ok bytes → ∀ tail, (inGroup = false → tail = []) →
    decodeRow order fields (bytes ++ tail) = .ok (canonicalRow fields args, bytes.length)

/-- Elements and padding are read back. -/
theorem primitive_returns (order : ByteOrder) (kind : Primitive) (times : Repeat) :
    FieldReturns order (.primitive kind times) := by
  intro args bytes _ sized share encoded
  obtain ⟨size, total, fits⟩ := sized
  obtain ⟨rfl, _⟩ := checkedSize_some total
  by_cases padding : kind = .pad
  · -- Padding is as long as its count, and nothing is read from it.
    subst padding
    cases encoded
    refine ⟨rfl, fun tail last => ?_⟩
    simp only [Field.extent]
    cases counted : times.count? with
    | none => simp [last (Repeat.eq_wildcard counted)]
    | some count =>
      rw [counted] at fits
      simp only [Option.getD_some, Primitive.width, Nat.one_mul] at fits ⊢
      have taken := @fixedExtent_append (List.replicate count 0) (by simpa using fits) tail
      simpa using taken
  · rw [encodeField_primitive padding] at encoded
    obtain ⟨length, read⟩ := decodeElements_encodeEach padding encoded
    rw [decodeField_primitive padding, canonicalField_primitive padding, length,
      Nat.mul_mod_right, Nat.mul_div_cancel_left _ kind.width_pos, read]
    refine ⟨by simp, fun tail last => ?_⟩
    simp only [Field.extent]
    rw [arity_primitive padding] at share
    cases counted : times.count? with
    | none => simp [last (Repeat.eq_wildcard counted), length]
    | some count =>
      -- Without a wildcard there are as many arguments as the count says.
      simp only [counted, Arity.claim, Option.getD_some] at share fits ⊢
      rw [share, ← length] at fits ⊢
      exact fixedExtent_append fits tail

/-- Strings are read back. -/
theorem text_returns (order : ByteOrder) (times : Repeat) : FieldReturns order (.text times) := by
  intro args bytes _ _ share encoded
  -- There are as many strings as arguments, and a count says how many those are.
  obtain ⟨read, extent⟩ := decodeTexts_encodeEach encoded
  refine ⟨read, fun tail last => ?_⟩
  simp only [Field.extent, Field.arity] at share ⊢
  cases counted : times.count? with
  | none => simp [last (Repeat.eq_wildcard counted)]
  | some count =>
    simp only [counted, Arity.claim] at share ⊢
    rw [share]
    exact extent tail

/-- A run of bytes is read back. -/
theorem raw_returns (order : ByteOrder) (length : Repeat) : FieldReturns order (.raw length) := by
  intro args bytes _ sized share encoded
  -- The run is one argument, of the declared length if there is one.
  obtain ⟨arg, rfl⟩ := share_one share
  obtain ⟨canonical, declared⟩ := encodeRaw_ok encoded
  refine ⟨by simp [decodeField, canonicalField, canonical], fun tail last => ?_⟩
  obtain ⟨size, total, fits⟩ := sized
  cases total
  simp only [Field.extent]
  cases counted : length.count? with
  | none => simp [last (Repeat.eq_wildcard counted)]
  | some count =>
    simp only [counted, Option.getD_some] at fits ⊢
    have same := declared count counted
    rw [← same] at fits ⊢
    exact fixedExtent_append fits tail

/-- A tuple is read back by the row of its elements, whatever follows it. -/
theorem tuple_returns {order : ByteOrder} {body : List Field} (row : RowReturns order body)
    (sound : RowSound true body) (sized : (Field.totalMinSize body).isSome) {value : Value}
    {bytes : Bytes} (encoded : encodeTuple body (encodeRow order body) value = .ok bytes)
    (tail : Bytes) : decodeRow order body (bytes ++ tail)
      = .ok (canonicalRow body (value.items?.getD []), bytes.length) := by
  -- Inside a group there are no wildcards, so anything may follow.
  obtain ⟨items, held, written⟩ := encodeTuple_ok encoded
  simpa [held] using row sound sized written tail (by simp)

/-- A group is read back if its body is. -/
theorem group_returns {order : ByteOrder} {body : List Field} (row : RowReturns order body)
    (times : Repeat) : FieldReturns order (.group body times) := by
  intro args bytes sound sized share encoded
  obtain ⟨arg, rfl⟩ := share_one share
  obtain ⟨bodySound, bodySized, growing⟩ := group_body sound sized
  -- Whatever stands behind an entry, the body reads that entry and takes no more than its bytes.
  have reads : ∀ {value bytes}, encodeTuple body (encodeRow order body) value = .ok bytes →
      ∀ tail, decodeRow order body (bytes ++ tail)
        = .ok (canonicalRow body (value.items?.getD []), bytes.length) :=
    fun encoded tail => tuple_returns row bodySound bodySized encoded tail
  have extents : ∀ {value bytes}, encodeTuple body (encodeRow order body) value = .ok bytes →
      ∀ tail, rowExtent body (bytes ++ tail) = .ok bytes.length :=
    fun encoded tail => rowExtent_of_decodeRow (reads encoded tail)
  by_cases once : times = .once
  · -- A group that is not repeated is one entry.
    subst once
    simp only [encodeField, if_true] at encoded
    refine ⟨?_, fun tail _ => ?_⟩
    · have read := reads encoded []
      rw [List.append_nil] at read
      simp [decodeField, read, canonicalField]
    · have taken := extents encoded tail
      simp only [Field.extent, Repeat.count?, repeatExtent, taken]
      split <;> simp_all
  · -- An entry that may be repeated takes something, so the entries can be told apart.
    simp only [encodeField, once, if_false] at encoded
    obtain ⟨entries, held, written, declared⟩ := encodeEntries_ok encoded
    have positive : ∀ {value bytes}, encodeTuple body (encodeRow order body) value = .ok bytes →
        0 < bytes.length :=
      fun encoded => growing once (extents encoded [])
    have canonical : canonicalField (.group body times) [arg]
        = [.list (entries.map fun value => .tuple (canonicalRow body (value.items?.getD [])))] := by
      simp [canonicalField, once, held]
    rw [canonical]
    cases times with
    | once => exact absurd rfl once
    | count n =>
      -- As many entries are found and read as the count says, which are all that were written.
      obtain rfl := declared n rfl
      refine ⟨?_, fun tail _ => ?_⟩
      · simp [decodeField, decodeEntries_encodeEach reads written]
      · simp only [Field.extent, Repeat.count?]
        exact repeatExtent_encodeEach extents positive written tail
    | wildcard =>
      -- Entries are read until nothing is left, and nothing stands behind them.
      refine ⟨?_, fun tail last => ?_⟩
      · simp [decodeField, decodeAllEntries_encodeEach reads positive written]
      · simp [last rfl, Field.extent, Repeat.count?]

/-- Every share is claimed whole. -/
theorem claim_share (arity : Arity) {args : List Value}
    (enough : arity.claim args.length ≤ args.length) :
    arity.claim (args.take (arity.claim args.length)).length
      = (args.take (arity.claim args.length)).length := by
  -- What is left open is claimed whole anyway.
  cases arity with
  | exact n => exact (List.length_take_of_le enough).symm
  | atLeast n => rfl

/-- Every row is read back: leaves by themselves, groups by bodies, and rows field by field. -/
theorem row_returns (order : ByteOrder) : ∀ fields, RowReturns order fields := by
  refine (Field.row_induction (primitive_returns order) (text_returns order) (raw_returns order)
    (fun _ times row => group_returns row times) ?_ ?_).2
  · intro inGroup args bytes _ _ encoded tail _
    cases encoded
    rfl
  · intro field others fieldReturns othersReturn inGroup args bytes sound sized encoded tail end_
    obtain ⟨enough, first, rest, here, there, rfl⟩ := encodeRow_cons.mp encoded
    obtain ⟨fieldSound, wildcardLast, othersSound⟩ := sound
    obtain ⟨size, total⟩ := Option.isSome_iff_exists.mp sized
    obtain ⟨least, leastRest, firstTotal, restTotal, rfl, fits⟩ := totalMinSize_cons total
    obtain ⟨read, extent⟩ := fieldReturns fieldSound ⟨least, firstTotal, by omega⟩
      (claim_share field.arity enough) here
    -- The others are read back from what they were written to, with the same tail behind it.
    have behind := othersReturn othersSound (by simp [restTotal]) there tail end_
    -- A wildcard is the last field of the format, so nothing stands behind its bytes.
    have found : field.extent (first ++ (rest ++ tail)) = .ok first.length := by
      refine extent _ fun wildcard => ?_
      obtain ⟨outside, _, rfl⟩ := wildcardLast wildcard
      cases there
      exact end_ outside
    rw [List.append_assoc, List.length_append]
    exact decodeRow_cons.mpr
      ⟨_, _, _, _, found, by simp, by simpa using read, by simpa using behind, rfl, rfl⟩

end Codec

namespace Format

/-- Arguments that are written in a row are read back in canonical form from the bytes of it. -/
theorem decode_row {format : Format} (sound : format.Sound) {args : List Value} {payload : Bytes}
    (encoded : Codec.encodeRow format.order format.fields args = .ok payload) :
    format.decode payload = .ok (format.canonical args) := by
  -- Nothing stands behind the bytes of the row.
  have read := Codec.row_returns format.order format.fields sound.fields sound.size encoded []
    (fun _ => rfl)
  rw [List.append_nil] at read
  exact decode_eq_ok.mpr read

end Format

end BoardRpc
