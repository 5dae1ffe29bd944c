import BoardRpc.Proofs.Codec.RoundTrip
import BoardRpc.Proofs.Codec.Slots
import BoardRpc.Proofs.Format.Locality

/-! Encoding gives back what was decoded, except for padding and the bytes of truth values. -/

namespace BoardRpc

namespace Codec

variable {order : ByteOrder}

/-- No slot of single precision holds a NaN. -/
def Numbers (order : ByteOrder) (slots : List Slot) : Prop :=
  ∀ slot ∈ slots, slot.isNaN order = false

/-- Slots hold numbers when both parts do. -/
theorem numbers_append {slots others : List Slot} :
    Numbers order (slots ++ others) ↔ Numbers order slots ∧ Numbers order others :=
  List.forall_mem_append

/-- The bytes of both parts follow one another. -/
@[simp] theorem spread_append (slots others : List Slot) :
    spread (slots ++ others) = spread slots ++ spread others :=
  List.flatMap_append

/-- The rewritten bytes of both parts follow one another. -/
@[simp] theorem rewrite_append (slots others : List Slot) :
    rewrite (slots ++ others) = rewrite slots ++ rewrite others :=
  List.flatMap_append

/-- Slots are rewritten in place. -/
@[simp] theorem length_rewrite (slots : List Slot) :
    (rewrite slots).length = (spread slots).length := by
  -- Each slot keeps its length.
  induction slots with
  | nil => rfl
  | cons slot others ih =>
    simp only [rewrite, spread, List.flatMap_cons, List.length_append] at ih ⊢
    rw [Slot.length_rewritten, ih]

/-- As many values are read as were asked for. -/
@[simp] theorem length_decodeElements (kind : Primitive) (count : Nat) (data : Bytes) :
    (decodeElements order kind count data).length = count := by
  -- Whatever the data is, one value is read for each that is asked for.
  induction count generalizing data with
  | zero => rfl
  | succ count ih => simp [decodeElements, ih]

/-- What was read from slots one behind the other is written as their rewritten bytes. -/
theorem encodeEach_decodeElements {kind : Primitive} (slot : kind ≠ .pad) {count : Nat}
    {data : Bytes} (length : data.length = kind.width * count)
    (numbers : Numbers order (elementSlots kind count data)) :
    encodeEach (encodePrimitive order kind) (decodeElements order kind count data)
        = .ok (rewrite (elementSlots kind count data)) ∧
      (decodeElements order kind count data).map (canonicalSlot kind)
        = decodeElements order kind count data := by
  -- The first slot is as wide as its kind, and the others are cut behind it.
  induction count generalizing data with
  | zero => exact ⟨rfl, rfl⟩
  | succ count ih =>
    rw [Nat.mul_succ] at length
    have width : (data.take kind.width).length = kind.width :=
      List.length_take_of_le (by omega)
    obtain ⟨number, others⟩ := List.forall_mem_cons.mp numbers
    obtain ⟨written, canonical⟩ := ih (by rw [List.length_drop]; omega) others
    simp only [decodeElements, encodeEach, elementSlots, List.map_cons]
    rw [encodePrimitive_decodePrimitive slot width number, written, canonical,
      canonicalSlot_decodePrimitive slot width number]
    exact ⟨rfl, rfl⟩

/-- Slots that fit a run are the whole of it. -/
theorem spread_elementSlots (kind : Primitive) {count : Nat} {data : Bytes}
    (length : data.length = kind.width * count) : spread (elementSlots kind count data) = data := by
  -- Each slot is cut off the front, and what is left is one slot shorter.
  induction count generalizing data with
  | zero =>
    obtain rfl := List.length_eq_zero_iff.mp length
    rfl
  | succ count ih =>
    rw [Nat.mul_succ] at length
    have shorter : (data.drop kind.width).length = kind.width * count := by
      rw [List.length_drop]
      omega
    have rest := ih shorter
    simp only [elementSlots, spread, List.flatMap_cons, Slot.bytes] at rest ⊢
    rw [rest, List.take_append_drop]

/-- Rewritten padding is zero. -/
theorem rewrite_padding {count : Nat} {data : Bytes} (length : data.length = count) :
    rewrite (elementSlots .pad count data) = List.replicate count 0 := by
  -- A slot of padding is one byte wide and is rewritten as one zero.
  induction count generalizing data with
  | zero => rfl
  | succ count ih =>
    cases data with
    | nil => cases length
    | cons byte rest =>
      have behind := ih (Nat.succ.inj length)
      simp only [rewrite, elementSlots, Primitive.width, List.flatMap_cons] at behind ⊢
      rw [List.drop_one, List.tail_cons, behind]
      rfl

/-- Bytes that strings are read from end the first of them. -/
theorem decodeTexts_splits {data : Bytes} (nonempty : data ≠ []) {values : List Value}
    (read : decodeTexts data = .ok values) :
    ∃ bytes tail, data = bytes ++ 0 :: tail ∧ 0 ∉ bytes := by
  -- Without a zero byte reading fails, so there is a first one.
  cases data with
  | nil => exact absurd rfl nonempty
  | cons byte rest =>
    simp only [decodeTexts] at read
    split at read
    · cases read
    · rename_i index zero
      obtain ⟨bytes, tail, split, nonzero, _⟩ := idxOf?_zero_ok zero
      exact ⟨bytes, tail, split, nonzero⟩

/-- A text without a zero byte is written with one behind it. -/
theorem encodeText_str {bytes : Bytes} {text : String} (nonzero : 0 ∉ bytes)
    (read : Text.ofUtf8 bytes = .ok text) : encodeText (.str text) = .ok (bytes ++ [0]) := by
  obtain rfl := Text.utf8_of_ofUtf8 read
  rw [Text.zero_mem_utf8] at nonzero
  simp [encodeText, Value.text?, nonzero]

/-- Strings that were read are written as they were. -/
theorem encodeEach_decodeTexts {data : Bytes} {values : List Value}
    (read : decodeTexts data = .ok values) : encodeEach encodeText values = .ok data := by
  -- Each string that was read ends the bytes in front of a zero byte, and is written as them.
  induction values generalizing data with
  | nil =>
    by_cases empty : data = []
    · rw [empty]
      rfl
    · obtain ⟨bytes, tail, rfl, nonzero⟩ := decodeTexts_splits empty read
      obtain ⟨_, _, _, _, same⟩ := (decodeTexts_append nonzero).mp read
      cases same
  | cons value others ih =>
    have nonempty : data ≠ [] := by
      rintro rfl
      simp [decodeTexts] at read
    obtain ⟨bytes, tail, rfl, nonzero⟩ := decodeTexts_splits nonempty read
    obtain ⟨text, more, readText, readMore, same⟩ := (decodeTexts_append nonzero).mp read
    cases same
    simp [encodeEach, encodeText_str nonzero readText, ih readMore]

/-- As many strings are read as were found. -/
theorem length_decodeTexts {count size : Nat} {data : Bytes} {values : List Value}
    (found : repeatExtent stringExtent count data = .ok size)
    (read : decodeTexts (data.take size) = .ok values) : values.length = count := by
  -- A string that was found ends at the same zero byte as the string that is read there.
  induction count generalizing data size values with
  | zero =>
    cases found
    simp only [List.take_zero, decodeTexts] at read
    cases read
    rfl
  | succ count ih =>
    rcases repeatExtent_ok found with
      ⟨none, _⟩ | ⟨_, empty, _⟩ | ⟨less, first, others, same, here, _, rest, rfl⟩
    · cases none
    · cases stringExtent_pos empty
    · cases same
      obtain ⟨bytes, tail, rfl, nonzero, rfl⟩ := stringExtent_ok here
      -- What is read is cut to the strings that were found: the first of them, then the others.
      have front : (bytes ++ 0 :: tail).take (bytes.length + 1 + others)
          = bytes ++ 0 :: tail.take others := by
        rw [Nat.add_assoc, List.take_length_add_append, Nat.add_comm 1, List.take_succ_cons]
      have behind : (bytes ++ 0 :: tail).drop (bytes.length + 1) = tail := by simp
      rw [front] at read
      rw [behind] at rest
      obtain ⟨text, more, _, readMore, rfl⟩ := (decodeTexts_append nonzero).mp read
      rw [List.length_cons, ih rest readMore]

/-- Entries that are read up to the end begin with one that takes something. -/
theorem decodeAllEntries_ok {decode : Bytes → Except FieldFault (List Value × Nat)} {data : Bytes}
    (nonempty : data.isEmpty = false) {entries : List Value} :
    decodeAllEntries decode data = .ok entries ↔
      ∃ items size others, decode data = .ok (items, size) ∧ 0 < size ∧
        decodeAllEntries decode (data.drop size) = .ok others ∧
        entries = .tuple items :: others := by
  rw [decodeAllEntries]
  simp only [nonempty, Bool.false_eq_true, if_false]
  constructor
  · -- An entry that fails, or one that takes nothing, is an error of the whole.
    intro read
    split at read
    · cases read
    · rename_i items size here
      split at read
      · cases read
      · rename_i positive
        split at read
        · cases read
        · rename_i others there
          cases read
          exact ⟨items, size, others, here, Nat.pos_of_ne_zero positive, there, rfl⟩
  · rintro ⟨items, size, others, here, positive, there, rfl⟩
    simp [here, there, Nat.ne_of_gt positive]

section Entries

/-! A group's entries, given how one entry is read and written. -/

variable {decode : Bytes → Except FieldFault (List Value × Nat)}
  {encode : Value → Except FieldFault Bytes} (read : Value → List Value)
  {extent : Bytes → Except Shortfall Nat} {slots : Bytes → List Slot}

/-- What is read from slots is written as their rewritten bytes, and is canonical. -/
def Rewrites (order : ByteOrder) (slots : List Slot) (encoded : Except FieldFault Bytes)
    (canonical values : List Value) : Prop :=
  Numbers order slots → encoded = .ok (rewrite slots) ∧ canonical = values

/-- As many entries are read as were found, and nothing is left behind them. -/
theorem decodeAllEntries_of_found (found : Local extent)
    (takes : ∀ {data items size}, decode data = .ok (items, size) → extent data = .ok size)
    (positive : ∀ {data size}, extent data = .ok size → 0 < size)
    {count size : Nat} {data : Bytes} {entries : List Value}
    (all : repeatExtent extent count data = .ok size)
    (read : decodeEntries decode count (data.take size) = .ok entries) :
    decodeAllEntries decode (data.take size) = .ok entries ∧ entries.length = count := by
  -- The entry that is read at the front is the one that was found there, and so on behind it.
  induction count generalizing data size entries with
  | zero =>
    cases all
    cases read
    rw [List.take_zero, decodeAllEntries]
    exact ⟨rfl, rfl⟩
  | succ count ih =>
    rcases repeatExtent_ok all with
      ⟨none, _⟩ | ⟨_, empty, _⟩ | ⟨less, first, others, same, here, growing, rest, rfl⟩
    · cases none
    · cases positive empty
    · cases same
      obtain ⟨within, again⟩ := found here
      simp only [decodeEntries] at read
      split at read
      · cases read
      · rename_i items size readHere
        split at read
        · cases read
        · rename_i more readMore
          cases read
          -- The first entry is the one that was found, as nothing behind it matters.
          obtain rfl : size = first := by
            have taken := takes readHere
            rw [List.take_add, again] at taken
            cases taken
            rfl
          have behind : (data.take (size + others)).drop size = (data.drop size).take others := by
            rw [List.take_add, List.drop_left' (List.length_take_of_le within)]
          -- It takes something, so reading up to the end does not stop in front of it.
          have nonempty : (data.take (size + others)).isEmpty = false := by
            cases data with
            | nil =>
              simp at within
              omega
            | cons byte data =>
              obtain ⟨less, rfl⟩ := Nat.exists_eq_add_of_le' growing
              simp [Nat.add_right_comm]
          -- The others are read from what was found for them.
          obtain ⟨readRest, length⟩ := ih rest (behind ▸ readMore)
          refine ⟨(decodeAllEntries_ok nonempty).mpr
            ⟨items, size, more, readHere, growing, ?_, rfl⟩, ?_⟩
          · rw [behind]
            exact readRest
          · rw [List.length_cons, length]

/-- Entries are written as their rewritten slots, if each of them is. -/
theorem encodeEach_decodeAllEntries
    (entry : ∀ {data items size}, decode data = .ok (items, size) → size ≤ data.length ∧
      spread (slots data) = data.take size ∧
      Rewrites order (slots data) (encode (.tuple items)) (read (.tuple items)) items)
    {fuel : Nat} {data : Bytes} (enough : data.length ≤ fuel) {entries : List Value}
    (all : decodeAllEntries decode data = .ok entries) :
    spread (entrySlots slots fuel data) = data ∧
      Rewrites order (entrySlots slots fuel data) (encodeEach encode entries)
        (entries.map fun value => .tuple (read value)) entries := by
  -- Every entry takes at least one byte, so the fuel lasts as long as the bytes.
  induction fuel generalizing data entries with
  | zero =>
    -- Without fuel there were no bytes to begin with.
    obtain rfl := List.length_eq_zero_iff.mp (Nat.le_zero.mp enough)
    rw [decodeAllEntries] at all
    cases all
    exact ⟨rfl, fun _ => ⟨rfl, rfl⟩⟩
  | succ fuel ih =>
    cases empty : data.isEmpty with
    | true =>
      obtain rfl := List.isEmpty_iff.mp empty
      rw [decodeAllEntries] at all
      cases all
      exact ⟨rfl, fun _ => ⟨rfl, rfl⟩⟩
    | false =>
      obtain ⟨items, size, others, here, positive, there, rfl⟩ := (decodeAllEntries_ok empty).mp all
      obtain ⟨within, partition, rewrites⟩ := entry here
      -- The slots of the entry say how many bytes it took, so both walks go on at one place.
      have next : (spread (slots data)).length = size := by
        rw [partition, List.length_take_of_le within]
      obtain ⟨restPartition, restRewrites⟩ := ih (by rw [List.length_drop]; omega) there
      simp only [entrySlots, empty, Bool.false_eq_true, if_false, next]
      rw [spread_append, partition, restPartition]
      refine ⟨List.take_append_drop .., fun numbers => ?_⟩
      obtain ⟨first, rest⟩ := numbers_append.mp numbers
      obtain ⟨written, canonical⟩ := rewrites first
      obtain ⟨restWritten, restCanonical⟩ := restRewrites rest
      simp only [encodeEach, written, restWritten, rewrite_append, List.map_cons, canonical,
        restCanonical, and_self]

end Entries

/-- The bytes that a row is read from lie in the payload. -/
theorem decodeRow_within {fields : List Field} {data : Bytes} {values : List Value} {size : Nat}
    (read : decodeRow order fields data = .ok (values, size)) : size ≤ data.length := by
  -- Every field was read from an extent that is there.
  induction fields generalizing data values size with
  | nil => cases read; exact Nat.zero_le _
  | cons field others ih =>
    obtain ⟨first, rest, _, _, _, within, _, readMore, _, rfl⟩ := decodeRow_cons.mp read
    have behind := ih readMore
    rw [List.length_drop] at behind
    omega

/-- So many arguments are some that the first field accepts, and those for the others. -/
def Counted : List Field → Nat → Prop
  | [], total => total = 0
  | field :: others, total =>
    ∃ here more, field.arity.accepts here ∧ Counted others more ∧ total = here + more

/-- What is read from a field's own extent is what the field accepts, and its slots are the whole
extent; without a NaN it is canonical and is written as the rewritten slots. -/
def FieldRestores (order : ByteOrder) (field : Field) : Prop :=
  ∀ {data size values}, field.Sound → field.Sized →
    (field.times = .wildcard → field.isPadding = false) → field.extent data = .ok size →
    size ≤ data.length → decodeField order field (data.take size) = .ok values →
    field.arity.accepts values.length ∧
      spread (fieldSlots field (data.take size)) = data.take size ∧
      Rewrites order (fieldSlots field (data.take size)) (encodeField order field values)
        (canonicalField field values) values

/-- What is read from the front of a payload by a row is what the row accepts, and its slots are
the bytes it was read from; without a NaN it is canonical and is written as the rewritten slots. -/
def RowRestores (order : ByteOrder) (fields : List Field) : Prop :=
  ∀ {inGroup data size values}, RowSound inGroup fields → (Field.totalMinSize fields).isSome →
    decodeRow order fields data = .ok (values, size) →
    Counted fields values.length ∧ spread (rowSlots fields data) = data.take size ∧
      (Numbers order (rowSlots fields data) →
        (∀ whole given index, encodeFrom order whole given index fields values
          = .ok (rewrite (rowSlots fields data))) ∧ canonicalRow fields values = values)

/-- Padding is as long as its count. -/
theorem padding_restores (order : ByteOrder) (times : Repeat) :
    FieldRestores order (.primitive .pad times) := by
  intro data size values _ sized counted found within read
  obtain ⟨least, total, fits⟩ := sized
  obtain ⟨rfl, _⟩ := checkedSize_some total
  -- Nothing is read, and as many zeros are written as there were bytes.
  cases read
  have length : (data.take size).length = size := List.length_take_of_le within
  refine ⟨rfl, ?_, fun _ => ⟨?_, rfl⟩⟩
  · exact spread_elementSlots .pad (by simp [Primitive.width])
  · simp only [Field.extent] at found
    cases here : times.count? with
    | none => cases counted (Repeat.eq_wildcard here)
    | some count =>
      simp only [here, Option.getD_some, Primitive.width, Nat.one_mul] at found fits
      obtain rfl : size = count := (fixedExtent_ok found).trans (Nat.min_eq_left fits)
      simp only [encodeField, here, Option.getD_some, fieldSlots, Primitive.width, Nat.div_one]
      rw [rewrite_padding rfl, length]

/-- An extent that comes out even holds whole slots, as many as the count says. -/
theorem elements_whole {kind : Primitive} {times : Repeat} {data : Bytes} {size : Nat}
    (sized : (Field.primitive kind times).Sized)
    (found : (Field.primitive kind times).extent data = .ok size) (within : size ≤ data.length)
    (aligned : ¬ (times.isWildcard = true ∧ size % kind.width ≠ 0)) :
    (data.take size).length = kind.width * (size / kind.width) ∧
      ∀ count, times.count? = some count → size / kind.width = count := by
  obtain ⟨least, total, fits⟩ := sized
  obtain ⟨rfl, _⟩ := checkedSize_some total
  -- A count gives the extent its length; a wildcard takes all bytes, which must come out even.
  have counted : ∀ count, times.count? = some count → size = kind.width * count := by
    intro count here
    simp only [Field.extent, here, Option.getD_some] at found fits
    exact (fixedExtent_ok found).trans (Nat.min_eq_left fits)
  have multiple : size % kind.width = 0 := by
    cases here : times.count? with
    | none =>
      obtain rfl := Repeat.eq_wildcard here
      simpa [Repeat.isWildcard] using aligned
    | some count => rw [counted count here, Nat.mul_mod_right]
  refine ⟨?_, fun count here => ?_⟩
  · rw [List.length_take_of_le within, Nat.mul_div_cancel' (Nat.dvd_of_mod_eq_zero multiple)]
  · rw [counted count here, Nat.mul_div_cancel_left _ kind.width_pos]

/-- Values of fixed width fill their extent, and are as many as the count says. -/
theorem elements_restore {kind : Primitive} (slot : kind ≠ .pad) (times : Repeat) :
    FieldRestores order (.primitive kind times) := by
  intro data size values _ sized _ found within read
  have length : (data.take size).length = size := List.length_take_of_le within
  rw [decodeField_primitive slot, length] at read
  split at read
  · cases read
  · rename_i aligned
    cases read
    -- The extent holds whole slots, one behind the other.
    obtain ⟨whole, counted⟩ := elements_whole sized found within aligned
    refine ⟨?_, ?_, ?_⟩
    · -- The field accepts as many values as its count says, and a wildcard any number.
      rw [arity_primitive slot, length_decodeElements]
      cases here : times.count? with
      | none => simp [Arity.accepts]
      | some count => simp [Arity.accepts, counted count here]
    · rw [fieldSlots, length]
      exact spread_elementSlots kind whole
    · rw [fieldSlots, length, encodeField_primitive slot, canonicalField_primitive slot]
      exact encodeEach_decodeElements slot whole

/-- Elements and padding are restored. -/
theorem primitive_restores (order : ByteOrder) (kind : Primitive) (times : Repeat) :
    FieldRestores order (.primitive kind times) := by
  by_cases padding : kind = .pad
  · subst padding
    exact padding_restores order times
  · exact elements_restore padding times

/-- Strings are restored. -/
theorem text_restores (order : ByteOrder) (times : Repeat) : FieldRestores order (.text times) := by
  intro data size values _ _ _ found _ read
  -- The extent of a count ends behind as many zero bytes as there are strings.
  have written := encodeEach_decodeTexts read
  refine ⟨?_, by simp [fieldSlots, spread, Slot.bytes], fun _ => ⟨?_, rfl⟩⟩
  · simp only [Field.arity, Field.extent] at found ⊢
    cases counted : times.count? with
    | none => simp [Arity.accepts]
    | some count =>
      rw [counted] at found
      simp [Arity.accepts, length_decodeTexts found read]
  · simpa [encodeField, fieldSlots, rewrite, Slot.rewritten, Slot.bytes] using written

/-- A run of bytes is restored. -/
theorem raw_restores (order : ByteOrder) (length : Repeat) : FieldRestores order (.raw length) := by
  intro data size values _ sized _ found within read
  obtain ⟨least, total, fits⟩ := sized
  cases total
  cases read
  -- The run is as long as its extent, which is the declared length if there is one.
  refine ⟨rfl, by simp [fieldSlots, spread, Slot.bytes], fun _ => ⟨?_, rfl⟩⟩
  simp only [Field.extent] at found
  simp only [encodeField, encodeRaw, rawBytes, fieldSlots, rewrite, List.flatMap_cons,
    List.flatMap_nil, List.append_nil, Slot.rewritten, Slot.bytes]
  cases counted : length.count? with
  | none => rfl
  | some count =>
    simp only [counted, Option.getD_some] at found fits
    have clamped : clampedSize count = count := Nat.min_eq_left fits
    have same := fixedExtent_ok found
    have declared : (data.take size).length = count := by
      rw [List.length_take_of_le within]
      omega
    exact if_pos declared

/-- Neighbours accept together what each of them accepts; where their arguments cannot be counted,
there are too many. -/
theorem checkedAdd_accepts {first second : Arity} {here more : Nat} (one : first.accepts here)
    (other : second.accepts more) :
    match first.checkedAdd second with
    | some both => both.accepts (here + more)
    | none => maxSize < here + more := by
  -- Either way the numbers are added, and the sum is kept unless it is too large.
  cases first <;> cases second <;>
    simp only [Arity.accepts, beq_iff_eq, decide_eq_true_eq] at one other <;>
    simp only [Arity.checkedAdd, checkedSize] <;> split_ifs <;> simp [Arity.accepts] <;> omega

/-- A row accepts the arguments of its fields together. -/
theorem arityOf_accepts {fields : List Field} {total : Nat} (counted : Counted fields total) :
    (arityOf fields).accepts total := by
  -- The count goes from the first field to the last, and stops where it cannot be kept.
  have from_ : ∀ {before : Arity} {already : Nat}, before.accepts already →
      match fields.foldlM (fun sum field => sum.checkedAdd field.arity) before with
      | some all => all.accepts (already + total)
      | none => maxSize < already + total := by
    induction fields generalizing total with
    | nil =>
      intro before already accepted
      obtain rfl : total = 0 := counted
      exact accepted
    | cons field others ih =>
      intro before already accepted
      obtain ⟨here, more, one, rest, rfl⟩ := counted
      have both := checkedAdd_accepts accepted one
      rw [List.foldlM_cons]
      cases sum : before.checkedAdd field.arity with
      | none =>
        -- Too many arguments so far are too many in the end.
        rw [sum] at both
        show maxSize < already + (here + more)
        have : maxSize < already + here := both
        omega
      | some next =>
        rw [sum] at both
        have all := ih rest both
        rw [Nat.add_assoc] at all
        exact all
  have all := from_ (show (Arity.exact 0).accepts 0 from rfl)
  rw [Nat.zero_add] at all
  unfold arityOf checkedArity
  split at all
  · rename_i sum here
    rw [here]
    exact all
  · -- Where they cannot be counted, the row accepts the greatest number and all above it.
    rename_i here
    rw [here]
    have : maxSize < total := all
    simp [Arity.accepts]
    omega

/-- A single entry is found as such. -/
theorem repeatExtent_one {entry : Bytes → Except Shortfall Nat} {data : Bytes} {size : Nat}
    (found : repeatExtent entry 1 data = .ok size) : entry data = .ok size := by
  rcases repeatExtent_ok found with
    ⟨none, _⟩ | ⟨_, empty, rfl⟩ | ⟨less, first, others, same, here, _, rest, rfl⟩
  · cases none
  · exact empty
  · cases same
    cases rest
    exact here

/-- What the body of a group reads is a tuple that the body writes. -/
theorem tuple_restores {body : List Field} (row : RowRestores order body)
    (sound : RowSound true body) (sized : (Field.totalMinSize body).isSome) {data : Bytes}
    {items : List Value} {size : Nat} (read : decodeRow order body data = .ok (items, size)) :
    size ≤ data.length ∧ spread (rowSlots body data) = data.take size ∧
      Rewrites order (rowSlots body data)
        (encodeTuple body (encodeRow order body) (.tuple items)) (canonicalRow body items)
        items := by
  obtain ⟨counted, partition, rewrites⟩ := row sound sized read
  refine ⟨decodeRow_within read, partition, fun numbers => ?_⟩
  obtain ⟨written, canonical⟩ := rewrites numbers
  refine ⟨?_, canonical⟩
  -- The elements are as many as the body accepts.
  simp only [encodeTuple, Value.items?, arityOf_accepts counted, if_true]
  exact encodeRow_of_encodeFrom (written [] 0 0)

/-- A group that is not repeated is restored if its body is. -/
theorem once_restores {body : List Field} (row : RowRestores order body) :
    FieldRestores order (.group body .once) := by
  intro data size values sound sized _ found within read
  obtain ⟨bodySound, bodySized, _⟩ := group_body sound sized
  have bodyLocal : Local (rowExtent body) := extent_local.2 body bodySound
  simp only [decodeField] at read
  split at read
  · cases read
  · rename_i items taken readBody
    cases read
    -- The body takes the whole extent, as nothing behind it matters.
    have again := (bodyLocal (repeatExtent_one found)).2 []
    rw [List.append_nil, rowExtent_of_decodeRow readBody] at again
    cases again
    obtain ⟨_, partition, rewrites⟩ := tuple_restores row bodySound bodySized readBody
    simp only [fieldSlots, encodeField, canonicalField, if_true]
    refine ⟨rfl, by rw [partition, List.take_take, Nat.min_self], fun numbers => ?_⟩
    obtain ⟨written, canonical⟩ := rewrites numbers
    exact ⟨written, by simp [Value.items?, canonical]⟩

/-- A repeated group is read up to the end of its extent, and has the declared entries. -/
theorem decodeField_repeated {body : List Field} {times : Repeat} (repeated : times ≠ .once)
    (sound : (Field.group body times).Sound) (sized : (Field.group body times).Sized)
    {data : Bytes} {size : Nat} (found : (Field.group body times).extent data = .ok size)
    {values : List Value}
    (read : decodeField order (.group body times) (data.take size) = .ok values) :
    ∃ entries, values = [.list entries] ∧
      decodeAllEntries (fun rest => decodeRow order body rest) (data.take size) = .ok entries ∧
      ∀ count, times.count? = some count → entries.length = count := by
  obtain ⟨bodySound, _, growing⟩ := group_body sound sized
  -- A counted group reads so many entries, and a wildcard reads as many as there are.
  cases times with
  | once => exact absurd rfl repeated
  | count n =>
    simp only [decodeField] at read
    split at read
    · cases read
    · rename_i entries readEntries
      cases read
      obtain ⟨all, length⟩ := decodeAllEntries_of_found (extent_local.2 body bodySound)
        rowExtent_of_decodeRow (growing repeated) found readEntries
      refine ⟨entries, rfl, all, fun count same => ?_⟩
      cases same
      exact length
  | wildcard =>
    simp only [decodeField] at read
    split at read
    · cases read
    · rename_i entries all
      cases read
      exact ⟨entries, rfl, all, fun _ same => by cases same⟩

/-- A repeated group is restored if its body is. -/
theorem repeated_restores {body : List Field} (row : RowRestores order body) {times : Repeat}
    (repeated : times ≠ .once) : FieldRestores order (.group body times) := by
  intro data size values sound sized _ found within read
  obtain ⟨bodySound, bodySized, _⟩ := group_body sound sized
  -- The entries are one list, which is written entry by entry.
  obtain ⟨entries, rfl, all, declared⟩ := decodeField_repeated repeated sound sized found read
  obtain ⟨partition, rewrites⟩ := encodeEach_decodeAllEntries
    (fun value => canonicalRow body (value.items?.getD []))
    (tuple_restores row bodySound bodySized) (Nat.le_refl _) all
  simp only [fieldSlots, encodeField, canonicalField, if_neg repeated]
  refine ⟨rfl, partition, fun numbers => ?_⟩
  obtain ⟨written, canonical⟩ := rewrites numbers
  refine ⟨?_, by simpa [Value.items?] using canonical⟩
  simp only [encodeEntries, Value.items?]
  -- As many entries as are declared were read.
  cases counted : times.count? with
  | none => exact written
  | some count => simpa [declared count counted] using written

/-- A group is restored if its body is. -/
theorem group_restores {body : List Field} (row : RowRestores order body) (times : Repeat) :
    FieldRestores order (.group body times) := by
  by_cases once : times = .once
  · subst once
    exact once_restores row
  · exact repeated_restores row once

/-- Only a wildcard leaves open how many arguments it takes. -/
theorem arity_exact {field : Field} (narrow : field.times ≠ .wildcard) :
    ∃ n, field.arity = .exact n := by
  obtain ⟨count, counted⟩ : ∃ count, field.times.count? = some count :=
    Option.ne_none_iff_exists'.mp fun uncounted => narrow (Repeat.eq_wildcard uncounted)
  -- Padding takes none, values and strings as many as their count, runs and groups one.
  cases field with
  | primitive kind times =>
    by_cases padding : kind = .pad
    · subst padding
      exact ⟨0, rfl⟩
    · rw [arity_primitive padding]
      exact ⟨count, by rw [show times.count? = some count from counted]⟩
  | text times =>
    exact ⟨count, by rw [Field.arity, show times.count? = some count from counted]⟩
  | raw | group => exact ⟨1, rfl⟩

/-- A field claims its own values from a row, as a wildcard has none behind it. -/
theorem claim_append {field : Field} {here more : List Value}
    (accepted : field.arity.accepts here.length) (last : field.times = .wildcard → more = []) :
    field.arity.claim (here ++ more).length = here.length := by
  by_cases wildcard : field.times = .wildcard
  · -- A wildcard claims everything, which is its own.
    rw [last wildcard, List.append_nil]
    cases known : field.arity with
    | exact n =>
      rw [known] at accepted
      exact (beq_iff_eq.mp accepted).symm
    | atLeast n => rfl
  · -- Any other field claims a fixed number, which is the one that it accepts.
    obtain ⟨n, known⟩ := arity_exact wildcard
    rw [known] at accepted ⊢
    exact (beq_iff_eq.mp accepted).symm

/-- Every row is restored: leaves by themselves, groups by bodies, and rows field by field. -/
theorem row_restores (order : ByteOrder) : ∀ fields, RowRestores order fields := by
  refine (Field.row_induction (primitive_restores order) (text_restores order) (raw_restores order)
    (fun _ times row => group_restores row times) ?_ ?_).2
  · -- Without fields nothing is read and nothing written.
    intro inGroup data size values _ _ read
    cases read
    exact ⟨rfl, rfl, fun _ => ⟨fun _ _ _ => rfl, rfl⟩⟩
  · intro field others fieldRestores othersRestore inGroup data size values sound sized read
    obtain ⟨fieldSound, wildcardLast, othersSound⟩ := sound
    obtain ⟨_, total⟩ := Option.isSome_iff_exists.mp sized
    obtain ⟨least, leastRest, firstTotal, restTotal, _, fits⟩ := totalMinSize_cons total
    obtain ⟨first, rest, here, more, found, within, readHere, readMore, rfl, rfl⟩ :=
      decodeRow_cons.mp read
    obtain ⟨accepted, partition, rewrites⟩ := fieldRestores fieldSound ⟨least, firstTotal, by omega⟩
      (fun wildcard => (wildcardLast wildcard).2.1) found within readHere
    obtain ⟨counted, restPartition, restRewrites⟩ :=
      othersRestore othersSound (by simp [restTotal]) readMore
    -- The arguments are shared out as they were read: behind a wildcard there are none.
    have claimed : field.arity.claim (here ++ more).length = here.length := by
      refine claim_append accepted fun wildcard => ?_
      obtain ⟨_, _, rfl⟩ := wildcardLast wildcard
      cases readMore
      rfl
    -- The slots of the row are those of its field and those of the others, in this order.
    simp only [rowSlots, found]
    refine ⟨⟨_, _, accepted, counted, List.length_append⟩, ?_, fun numbers => ?_⟩
    · rw [spread_append, partition, restPartition, List.take_add]
    · obtain ⟨hereNumbers, moreNumbers⟩ := numbers_append.mp numbers
      obtain ⟨written, canonical⟩ := rewrites hereNumbers
      obtain ⟨restWritten, restCanonical⟩ := restRewrites moreNumbers
      refine ⟨fun whole given index => encodeFrom_cons.mpr
        ⟨?_, _, _, ?_, ?_, rewrite_append ..⟩, ?_⟩
      · rw [claimed, List.length_append]
        exact Nat.le_add_right ..
      · rw [claimed, List.take_left]
        exact written
      · rw [claimed, List.drop_left]
        exact restWritten whole given (index + 1)
      · simp only [canonicalRow, claimed, List.take_left, List.drop_left, canonical, restCanonical]

end Codec

namespace Format

/-- What was decoded is accepted and encoded again, into a payload of the same length that differs
only where padding is not zero or a truth value is neither zero nor one; it is decoded as before. -/
theorem encode_decode {source : String} {format : Format} {payload : Bytes} {values : List Value}
    (parsed : parse source = .ok format) (decoded : format.decode payload = .ok values)
    (numbers : ∀ slot ∈ format.slots payload, slot.isNaN format.order = false) :
    format.arity.accepts values.length ∧ ∃ written, format.encode values = .ok written ∧
      written.length = payload.length ∧
      payload = Codec.spread (format.slots payload) ∧
      written = Codec.rewrite (format.slots payload) ∧
      format.decode written = .ok values := by
  have sound := parse_sound parsed
  -- The whole payload is a row, and what is read from it is written again.
  obtain ⟨counted, partition, rewrites⟩ :=
    Codec.row_restores format.order format.fields sound.fields sound.size (decode_eq_ok.mp decoded)
  rw [List.take_length] at partition
  obtain ⟨written, canonical⟩ := rewrites numbers
  have encoded := written format.fields values.length 0
  refine ⟨Codec.arityOf_accepts counted, _, ?_, ?_, partition.symm, rfl, ?_⟩
  · rw [encode, mapError_eq_ok]
    exact encoded
  · rw [Codec.length_rewrite]
    exact congrArg _ partition
  · -- Decoding what is written gives the canonical values, which those are already.
    have read := decode_row sound (Codec.encodeRow_of_encodeFrom encoded)
    exact read.trans (congrArg _ canonical)

/-- Padding, a truth value and a number in front of entries: what is read is written with the
padding cleared and the truth value as one. -/
theorem encode_decode_entries : ∃ format values,
    parse "x?f*(BS)" = .ok format ∧
    format.decode [9, 7, 0, 0, 128, 63, 1, 97, 0, 2, 0] = .ok values ∧
    (∀ slot ∈ format.slots [9, 7, 0, 0, 128, 63, 1, 97, 0, 2, 0],
      slot.isNaN format.order = false) ∧
    format.encode values = .ok [0, 1, 0, 0, 128, 63, 1, 97, 0, 2, 0] := by
  -- The format stays a name until something is evaluated, as its slots are long to write.
  obtain ⟨format, parsed, fields⟩ : ∃ format, parse "x?f*(BS)" = .ok format ∧
      format = ⟨"x?f*(BS)", .little, [.primitive .pad .once, .primitive .bool .once,
        .primitive .float .once, .group [.primitive .uint8 .once, .text .once] .wildcard]⟩ :=
    ⟨_, by cbv, rfl⟩
  obtain ⟨values, decoded⟩ : ∃ values,
      format.decode [9, 7, 0, 0, 128, 63, 1, 97, 0, 2, 0] = .ok values := by
    rw [fields]
    exact exists_of_isOk (by decide +kernel)
  -- The float is one, so that no slot holds a NaN.
  have numbers : ∀ slot ∈ format.slots [9, 7, 0, 0, 128, 63, 1, 97, 0, 2, 0],
      slot.isNaN format.order = false := by
    rw [fields]
    decide +kernel
  obtain ⟨_, _, encoded, _, _, rfl, _⟩ := encode_decode parsed decoded numbers
  refine ⟨format, values, parsed, decoded, numbers, encoded.trans (congrArg _ ?_)⟩
  -- What is written is the payload with its slots rewritten.
  rw [fields]
  decide +kernel

end Format

end BoardRpc
