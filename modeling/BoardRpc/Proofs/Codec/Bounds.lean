import BoardRpc.Proofs.Codec.Faults
import BoardRpc.Proofs.Codec.Measures

/-! Bounds: the codec by positions always has a result, and it is that of the codec. -/

namespace BoardRpc

namespace Positions

section Payloads

variable {order : ByteOrder} {data : Bytes} {position : Nat}

/-- Elements are read as long as there is one, which is as often as their width goes into the
data. -/
theorem decodeElements_eq (order : ByteOrder) (kind : Primitive) (data : Bytes) :
    decodeElements order kind data =
      some (Codec.decodeElements order kind (data.length / kind.width) data) := by
  -- The induction is on the bytes that are left.
  have positive := kind.width_pos
  induction left : data.length using Nat.strong_induction_on generalizing data with
  | _ length ih =>
    subst left
    rw [decodeElements]
    by_cases short : data.length < kind.width
    · rw [if_pos short, Nat.div_eq_of_lt short]
      rfl
    · have within : kind.width ≤ data.length := Nat.le_of_not_lt short
      have behind := ih (data.drop kind.width).length (by rw [List.length_drop]; omega) _ rfl
      have count : data.length / kind.width = (data.drop kind.width).length / kind.width + 1 := by
        rw [List.length_drop, Nat.div_eq_sub_div positive within]
      rw [if_neg short, count, Codec.decodeElements]
      simp only [front?_of_le within, rest?_of_le within, Option.bind_eq_bind, Option.bind_some,
        behind]
      rfl

/-- Strings are read up to their zero bytes. -/
theorem decodeTexts_eq (fits : data.length < maxSize) :
    decodeTexts data = some (Codec.decodeTexts data) := by
  -- The induction is on the bytes that are left, of which each string takes one at least.
  induction left : data.length using Nat.strong_induction_on generalizing data with
  | _ length ih =>
    subst left
    cases data with
    | nil => rw [decodeTexts, Codec.decodeTexts]; rfl
    | cons byte rest =>
      rw [decodeTexts, Codec.decodeTexts]
      simp only [List.isEmpty_cons, Bool.false_eq_true, if_false]
      cases found : (byte :: rest).idxOf? 0 with
      | none =>
        have kept : checkedSize ((byte :: rest).length + 1) = some ((byte :: rest).length + 1) :=
          -- Without a zero byte the string would end behind the data, an offset that can still be
          -- kept.
          if_pos fits
        simp only [kept]
        rfl
      | some index =>
        have inside : index + 1 ≤ (byte :: rest).length := by
          have here : stringExtent (byte :: rest) = .ok (index + 1) := by
            simp only [stringExtent, found]
          exact (stringExtent_local here).1
        have shorter : (rest.drop index).length < (byte :: rest).length := by
          rw [List.length_drop, List.length_cons]
          omega
        have behind := ih _ shorter (Nat.lt_trans shorter fits) rfl
        simp only [front?_of_le (Nat.le_of_succ_le inside), rest?_of_le inside,
          Option.bind_eq_bind, Option.bind_some, List.drop_succ_cons, behind]
        cases Text.ofUtf8 ((byte :: rest).take index) with
        | error fault => rfl
        | ok text => cases Codec.decodeTexts (rest.drop index) <;> rfl

/-- An entry that is read by positions, and lies in what it is read from. -/
structure EntryReads (reader? : Bytes → Option (Except FieldFault (List Value × Nat)))
    (entry : Bytes → Except FieldFault (List Value × Nat)) : Prop where
  meets : ∀ {rest}, rest.length < maxSize → reader? rest = some (entry rest)
  within : ∀ {rest items size}, rest.length < maxSize → entry rest = .ok (items, size) →
    size ≤ rest.length

/-- A known number of entries is read from a position on. -/
theorem decodeEntries_eq {reader? : Bytes → Option (Except FieldFault (List Value × Nat))}
    {entry : Bytes → Except FieldFault (List Value × Nat)} (reads : EntryReads reader? entry)
    (fits : data.length < maxSize) (count : Nat) (inside : position ≤ data.length) :
    decodeEntries reader? data count position =
      some (Codec.decodeEntries entry count (data.drop position)) := by
  -- The induction is on the entries that are left; each begins where the one before it ended.
  induction count generalizing position with
  | zero => rfl
  | succ count ih =>
    have shorter := drop_fits fits position
    simp only [decodeEntries, Codec.decodeEntries, rest?_of_le inside, Option.bind_eq_bind,
      Option.bind_some, reads.meets shorter]
    cases here : entry (data.drop position) with
    | error fault => rfl
    | ok first =>
      obtain ⟨items, size⟩ := first
      have next := next_le inside (reads.within shorter here)
      simp only [checkedSize_of_le next fits, Option.bind_some, ih next, List.drop_drop]
      cases Codec.decodeEntries entry count (data.drop (position + size)) <;> rfl

/-- Entries are read from a position on up to the end, if each of them takes something. -/
theorem decodeAllEntries_eq {reader? : Bytes → Option (Except FieldFault (List Value × Nat))}
    {entry : Bytes → Except FieldFault (List Value × Nat)} (reads : EntryReads reader? entry)
    (growing : ∀ {rest items size}, entry rest = .ok (items, size) → 0 < size)
    (fits : data.length < maxSize) (inside : position ≤ data.length) :
    decodeAllEntries reader? data position =
      some (Codec.decodeAllEntries entry (data.drop position)) := by
  -- The induction is on the bytes that are left behind the position.
  induction left : data.length - position using Nat.strong_induction_on generalizing position with
  | _ length ih =>
    subst left
    rw [decodeAllEntries, Codec.decodeAllEntries]
    by_cases done : data.length ≤ position
    · rw [if_pos done, List.drop_eq_nil_of_le done]
      rfl
    · -- There is more to read, and an entry lies in it.
      have shorter := drop_fits fits position
      have nonempty := isEmpty_drop (Nat.lt_of_not_le done)
      simp only [if_neg done, rest?_of_le inside, Option.bind_eq_bind, Option.bind_some,
        reads.meets shorter, nonempty, Bool.false_eq_true, if_false]
      cases here : entry (data.drop position) with
      | error fault => rfl
      | ok first =>
        obtain ⟨items, size⟩ := first
        have positive := growing here
        have within := next_le inside (reads.within shorter here)
        have next : 0 < size ∧ position + size ≤ maxSize := by omega
        have behind := ih (data.length - (position + size)) (by omega) (by omega) rfl
        simp only [if_pos next, dif_neg (Nat.ne_of_gt positive), behind, Option.bind_some,
          List.drop_drop]
        cases Codec.decodeAllEntries entry (data.drop (position + size)) <;> rfl

/-- A field is read by positions. -/
def FieldReads (order : ByteOrder) (field : Field) : Prop :=
  ∀ data : Bytes, field.Sound → field.Sized → data.length < maxSize →
    decodeField order field data = some (Codec.decodeField order field data)

/-- The same of a row in a group from any position on, and of where the row ends. -/
def RowReads (order : ByteOrder) (fields : List Field) : Prop :=
  ∀ (data : Bytes) position, RowSound true fields → (Field.totalMinSize fields).isSome →
    data.length < maxSize → position ≤ data.length →
    decodeRow order fields data position =
      some ((Codec.decodeRow order fields (data.drop position)).map
        fun (values, size) => (values, position + size))

/-- Elements are read by positions unless a wildcard does not come out even. -/
theorem primitive_reads (order : ByteOrder) (kind : Primitive) (times : Repeat) :
    FieldReads order (.primitive kind times) := by
  -- Padding is passed over, and everything else is read element by element.
  intro data _ _ _
  cases kind with
  | pad => rfl
  | _ =>
    simp only [decodeField, Codec.decodeField, decodeElements_eq]
    -- Whether a wildcard comes out even is tested on the length alone.
    split <;> rfl

/-- A row in a group is an entry that is read by positions. -/
theorem RowReads.entry {body : List Field} (row : RowReads order body)
    (sound : RowSound true body) (sized : (Field.totalMinSize body).isSome) :
    EntryReads (fun rest => decodeRow order body rest 0)
      (fun rest => Codec.decodeRow order body rest) where
  meets := by
    intro rest shorter
    rw [row rest 0 sound sized shorter (Nat.zero_le _), List.drop_zero]
    -- Counted from the start, the row ends where it takes its last byte.
    cases Codec.decodeRow order body rest with
    | error fault => rfl
    | ok read => simp only [Except.map, Nat.zero_add]
  within := by
    intro rest items size shorter read
    exact (extent_measures.2 body).within shorter (Codec.rowExtent_of_decodeRow read)

/-- Groups are read by positions entry by entry. -/
theorem group_reads {body : List Field} (row : RowReads order body) (times : Repeat) :
    FieldReads order (.group body times) := by
  -- No entry of a group that repeats is empty, so that reading them comes to an end.
  intro data sound sized fits
  obtain ⟨bodySound, bodySized, growing⟩ := group_body sound sized
  have entry := row.entry bodySound bodySized
  cases times with
  | once =>
    simp only [decodeField, Codec.decodeField, entry.meets fits, Option.bind_eq_bind,
      Option.bind_some]
    cases Codec.decodeRow order body data <;> rfl
  | count n =>
    simp only [decodeField, Codec.decodeField, decodeEntries_eq entry fits n (Nat.zero_le _),
      List.drop_zero, Option.bind_eq_bind, Option.bind_some]
    cases Codec.decodeEntries (fun rest => Codec.decodeRow order body rest) n data <;> rfl
  | wildcard =>
    have positive : ∀ {rest items size}, Codec.decodeRow order body rest = .ok (items, size) →
        0 < size := fun read => growing (by decide) (Codec.rowExtent_of_decodeRow read)
    simp only [decodeField, Codec.decodeField, decodeAllEntries_eq entry positive fits
      (Nat.zero_le _), List.drop_zero, Option.bind_eq_bind, Option.bind_some]
    cases Codec.decodeAllEntries (fun rest => Codec.decodeRow order body rest) data <;> rfl

/-- Every field and every row in a group is read by positions. -/
theorem decode_eq (order : ByteOrder) :
    (∀ field, FieldReads order field) ∧ ∀ fields, RowReads order fields := by
  refine Field.row_induction (primitive_reads order) ?_ (fun _ _ _ _ _ => rfl)
    (fun _ times row => group_reads row times) (fun _ _ _ _ _ _ => rfl) ?_
  · -- Strings are read in all of the data that they are handed.
    intro times data _ _ fits
    exact decodeTexts_eq fits
  · intro field others fieldReads othersRead data position sound sized fits inside
    obtain ⟨fieldSound, _, othersSound⟩ := sound
    obtain ⟨least, total⟩ := Option.isSome_iff_exists.mp sized
    obtain ⟨leastHere, leastRest, hereTotal, restTotal, rfl, kept⟩ := totalMinSize_cons total
    have shorter := drop_fits fits position
    -- The size of the field is looked for first, in what stands from the position on.
    simp only [decodeRow, rest?_of_le inside, Option.bind_eq_bind, Option.bind_some,
      extent_eq.1 field _ shorter]
    cases here : field.extent (data.drop position) with
    | error shortfall => simp only [Codec.decodeRow, here]; rfl
    | ok size =>
      -- The field lies in what stands from the position on, and so does the next position.
      have first := (extent_measures.1 field).within shorter here
      have chunk := take_fits shorter size
      have next := next_le inside first
      simp only [Codec.decodeRow_found here first, front?_of_le first,
        fieldReads _ fieldSound ⟨leastHere, hereTotal, by omega⟩ chunk, Option.bind_some]
      cases Codec.decodeField order field ((data.drop position).take size) with
      | error fault => rfl
      | ok values =>
        simp only [checkedSize_of_le next fits, Option.bind_some,
          othersRead data _ othersSound (by simp [restTotal]) fits next, List.drop_drop]
        cases Codec.decodeRow order others (data.drop (position + size)) with
        | error fault => rfl
        | ok more => simp only [Except.map, Nat.add_assoc]; rfl

/-- Outside of groups a payload is read by positions, and what is left over is told. -/
theorem decodeFields_eq (order : ByteOrder) (index : Nat) {inGroup : Bool} {fields : List Field}
    (sound : RowSound inGroup fields) (sized : (Field.totalMinSize fields).isSome)
    (fits : data.length < maxSize) (inside : position ≤ data.length) :
    (decodeFields order data index fields position).map (allUsed data) =
      some (Codec.decodeFrom order index fields (data.drop position)) := by
  -- The walk ends behind the last field, where the position tells how much is left over.
  induction fields generalizing index position inGroup with
  | nil =>
    simp only [decodeFields, Codec.decodeFrom, Option.map_some, allUsed]
    by_cases trailing : position < data.length
    · have nonempty := isEmpty_drop trailing
      simp only [if_pos trailing, nonempty, Bool.false_eq_true, if_false, List.length_drop]
    · rw [if_neg trailing, List.drop_eq_nil_of_le (Nat.le_of_not_lt trailing)]
      rfl
  | cons field others ih =>
    obtain ⟨fieldSound, _, othersSound⟩ := sound
    obtain ⟨least, total⟩ := Option.isSome_iff_exists.mp sized
    obtain ⟨leastHere, leastRest, hereTotal, restTotal, rfl, kept⟩ := totalMinSize_cons total
    have shorter := drop_fits fits position
    simp only [decodeFields, Codec.decodeFrom, rest?_of_le inside, Option.bind_eq_bind,
      Option.bind_some, extent_eq.1 field _ shorter]
    cases here : field.extent (data.drop position) with
    | error shortfall => rfl
    | ok size =>
      -- The field is handed its own bytes, and the position moves behind them.
      have first := (extent_measures.1 field).within shorter here
      have chunk := take_fits shorter size
      have next := next_le inside first
      have enough : (!hasAtLeast size (data.drop position)) = false := by simpa using first
      simp only [enough, Bool.false_eq_true, if_false, front?_of_le first, Option.bind_some,
        (decode_eq order).1 field _ fieldSound ⟨leastHere, hereTotal, by omega⟩ chunk]
      cases Codec.decodeField order field ((data.drop position).take size) with
      | error fault => rfl
      | ok values =>
        have behind := ih (index + 1) othersSound (by simp [restTotal]) next
        obtain ⟨read, reads, used⟩ := Option.map_eq_some_iff.mp behind
        simp only [checkedSize_of_le next fits, Option.bind_some, reads, List.drop_drop, ← used]
        cases read with
        | error fault => rfl
        | ok more =>
          -- The values in front do not change what is left over.
          obtain ⟨values, last⟩ := more
          by_cases trailing : last < data.length <;> simp [allUsed, trailing]

/-- Outside of groups the end of the fields is found by positions. -/
theorem fieldsEnd_eq (index : Nat) (fields : List Field) (fits : data.length < maxSize)
    (inside : position ≤ data.length) :
    fieldsEnd data index fields position =
      some ((extentFrom index fields (data.drop position)).map (position + ·)) := by
  -- A shortfall is charged to the field at which the walk stopped.
  induction fields generalizing index position with
  | nil => rfl
  | cons field others ih =>
    have shorter := drop_fits fits position
    simp only [fieldsEnd, extentFrom, rest?_of_le inside, Option.bind_eq_bind, Option.bind_some,
      extent_eq.1 field _ shorter]
    -- The field lies in what is left, so that the next position lies within.
    cases here : field.extent (data.drop position) with
    | error shortfall => rfl
    | ok size =>
      have next := next_le inside ((extent_measures.1 field).within shorter here)
      simp only [checkedSize_of_le next fits, Option.bind_some, ih (index + 1) next,
        List.drop_drop]
      cases extentFrom (index + 1) others (data.drop (position + size)) with
      | error fault => rfl
      | ok rest => simp only [Except.map, Nat.add_assoc]

end Payloads

section Arguments

variable {order : ByteOrder} {body : List Field} {args : List Value} {value : Value}

/-- Values in a row are written as each of them is. -/
theorem encodeEach_eq {encode? : Value → Option (Except FieldFault Bytes)}
    {encode : Value → Except FieldFault Bytes}
    (each : ∀ arg ∈ args, encode? arg = some (encode arg)) :
    encodeEach encode? args = some (Codec.encodeEach encode args) := by
  -- The first value that is refused ends the walk.
  induction args with
  | nil => rfl
  | cons arg others ih =>
    obtain ⟨first, behind⟩ := List.forall_mem_cons.mp each
    simp only [encodeEach, Codec.encodeEach, first, ih behind, Option.bind_eq_bind,
      Option.bind_some]
    cases encode arg with
    | error fault => rfl
    | ok bytes => cases Codec.encodeEach encode others <;> rfl

/-- Where there are no bytes or several, none is looked up. -/
theorem soleByte_of_length_ne {bytes : Bytes} (other : bytes.length ≠ 1) :
    soleByte bytes = some none := if_neg other

/-- The byte of a character is looked up where there is just one. -/
theorem characterByte_eq (value : Value) :
    characterByte value = some (Codec.characterByte? value) := by
  cases value with
  -- A character may be given as a text or as bytes.
  | str text =>
    simp only [characterByte, Codec.characterByte?]
    cases Text.utf8 text with
    | nil => rfl
    | cons byte rest =>
      cases rest with
      | nil => rfl
      | cons next others => exact soleByte_of_length_ne (by simp)
  | bytes bytes =>
    cases bytes with
    | nil => rfl
    | cons byte rest =>
      cases rest with
      | nil => rfl
      | cons next others => exact soleByte_of_length_ne (by simp)
  | _ => rfl

/-- A value of fixed width is written as it is. -/
theorem encodePrimitive_eq (order : ByteOrder) (kind : Primitive) (value : Value) :
    encodePrimitive order kind value = some (Codec.encodePrimitive order kind value) := by
  -- Characters alone are looked up.
  cases kind with
  | char =>
    simp only [encodePrimitive, Codec.encodePrimitive, characterByte_eq, Option.bind_eq_bind,
      Option.bind_some]
    cases Codec.characterByte? value <;> rfl
  | _ => rfl

/-- A tuple is written as its elements are, if their number is right. -/
theorem encodeTuple_eq {encode? : List Value → Option (Except FieldFault Bytes)}
    {encode : List Value → Except FieldFault Bytes}
    (items : (arityOf body).accepts value.elements.length = true →
      encode? value.elements = some (encode value.elements)) :
    encodeTuple body encode? value = some (Codec.encodeTuple body encode value) := by
  -- Only a sequence has elements, and these are counted before any of them is written.
  unfold encodeTuple Codec.encodeTuple
  cases value with
  | tuple elements | list elements =>
    by_cases accepted : (arityOf body).accepts elements.length = true
    · simp only [Value.items?, accepted, if_true]
      exact items accepted
    · simp only [Value.items?, accepted]
      rfl
  | _ => rfl

/-- Entries are written as each of them is. -/
theorem encodeEntries_eq {encode? : Value → Option (Except FieldFault Bytes)}
    {encode : Value → Except FieldFault Bytes} (times : Repeat)
    (each : ∀ entry ∈ value.elements, encode? entry = some (encode entry)) :
    encodeEntries times encode? value = some (Codec.encodeEntries times encode value) := by
  -- A wildcard has no number of entries to test.
  unfold encodeEntries Codec.encodeEntries
  cases value with
  | tuple entries | list entries =>
    have written : encodeEach encode? entries = some (Codec.encodeEach encode entries) :=
      encodeEach_eq each
    simp only [Value.items?]
    cases times.count? with
    | none => exact written
    | some expected => simp only [written, apply_ite some]
  | _ => rfl

/-- A field is written by positions from its share of the arguments. -/
def FieldWrites (order : ByteOrder) (field : Field) : Prop :=
  ∀ {args}, field.Sound → AllShort args → args.length = field.share args.length →
    encodeField order field args = some (Codec.encodeField order field args)

/-- The same of a row in a group, once there are as many arguments as it counts. -/
def RowWrites (order : ByteOrder) (fields : List Field) : Prop :=
  ∀ {args}, RowSound true fields → AllShort args → Codec.Counted fields args.length →
    encodeRow order fields args = some (Codec.encodeRow order fields args)

/-- A group is handed one argument, whose elements are counted before any of them is written. -/
theorem group_writes (row : RowWrites order body) (times : Repeat) :
    FieldWrites order (.group body times) := by
  intro args sound short share
  obtain ⟨arg, rfl⟩ := List.length_eq_one_iff.mp share
  obtain ⟨_, bodySound, _⟩ := sound
  -- An accepted number of elements is the one that the body counts.
  have tuple : ∀ value : Value, value.Short →
      encodeTuple body (fun items => encodeRow order body items) value =
        some (Codec.encodeTuple body (fun items => Codec.encodeRow order body items) value) := by
    intro value short
    obtain ⟨bounded, inside⟩ := short.inside
    apply encodeTuple_eq
    intro accepted
    exact row bodySound inside ((Codec.accepts_iff_counted bodySound bounded).mp accepted)
  have argShort : arg.Short := short.1
  have each := fun entry here => tuple entry (allShort_iff.mp argShort.inside.2 entry here)
  have entries := encodeEntries_eq times each
  simp only [encodeField, Codec.encodeField, only?, Option.bind_eq_bind, Option.bind_some,
    tuple arg argShort, entries, apply_ite some]

/-- Every field and every row in a group is written by positions. -/
theorem encode_eq (order : ByteOrder) :
    (∀ field, FieldWrites order field) ∧ ∀ fields, RowWrites order fields := by
  -- In a group every field claims a fixed number of what was counted for the whole row.
  refine Field.row_induction ?_ (fun _ _ _ _ _ => rfl) ?_
    (fun _ times row => group_writes row times) (fun _ _ _ => rfl) ?_
  · -- Every kind but padding is written value by value.
    intro kind times args _ _ _
    cases kind with
    | pad => rfl
    | _ => exact encodeEach_eq fun arg _ => encodePrimitive_eq order _ arg
  · intro length args _ _ share
    obtain ⟨arg, rfl⟩ := List.length_eq_one_iff.mp share
    rfl
  · intro field others fieldWrites othersWrite args sound short counted
    obtain ⟨fieldSound, outside, othersSound⟩ := sound
    obtain ⟨n, exactly⟩ : ∃ n, field.arity = .exact n := by
      apply Codec.arity_exact
      intro wildcard
      exact absurd (outside wildcard).1 (by decide)
    -- The count of the row is that of the field and that of the others.
    obtain ⟨claimed, more, accepted, behind, total⟩ := counted
    obtain rfl : claimed = n := by
      simpa only [exactly, Arity.accepts, beq_iff_eq] using accepted
    have claim : field.arity.claim args.length = claimed := by
      rw [exactly]
      rfl
    have enough : field.arity.claim args.length ≤ args.length := by omega
    have share := Codec.claim_share field.arity enough
    rw [field.claim_eq_share] at share
    have left : Codec.Counted others (args.drop (field.arity.claim args.length)).length := by
      rw [List.length_drop, claim, total, Nat.add_sub_cancel_left]
      exact behind
    simp only [encodeRow, Codec.encodeRow, front?_of_le enough, rest?_of_le enough,
      Option.bind_eq_bind, Option.bind_some, if_neg (Nat.not_lt_of_le enough),
      fieldWrites fieldSound (short.take _) share.symm, othersWrite othersSound (short.drop _) left]
    cases Codec.encodeField order field (args.take (field.arity.claim args.length)) with
    | error fault => rfl
    | ok first =>
      cases Codec.encodeRow order others (args.drop (field.arity.claim args.length)) <;> rfl

/-- Outside of groups arguments are written by positions, and a wrong number of them is told. -/
theorem encodeFields_eq {inGroup : Bool} {fields : List Field} (whole : List Field)
    (given index : Nat) (sound : RowSound inGroup fields) (short : AllShort args) :
    encodeFields order whole given index fields args =
      some (Codec.encodeFrom order whole given index fields args) := by
  -- Here the number of arguments is tested field by field.
  induction fields generalizing index args inGroup with
  | nil => cases args <;> rfl
  | cons field others ih =>
    obtain ⟨fieldSound, _, othersSound⟩ := sound
    simp only [encodeFields, Codec.encodeFrom]
    by_cases enough : field.arity.claim args.length ≤ args.length
    · -- What is tested for the field is what it is handed.
      have share := Codec.claim_share field.arity enough
      rw [field.claim_eq_share] at share
      simp only [if_neg (Nat.not_lt_of_le enough), front?_of_le enough, rest?_of_le enough,
        Option.bind_eq_bind, Option.bind_some,
        (encode_eq order).1 field fieldSound (short.take _) share.symm,
        ih (index + 1) othersSound (short.drop _)]
      cases Codec.encodeField order field (args.take (field.arity.claim args.length)) with
      | error fault => rfl
      | ok first =>
        cases Codec.encodeFrom order whole given (index + 1) others
          (args.drop (field.arity.claim args.length)) <;> rfl
    · -- Too few arguments are told of before any of them is looked at.
      simp only [if_pos (Nat.lt_of_not_le enough)]
      rfl

end Arguments

end Positions

namespace Format

/-- Encoding and decoding stay within the arguments and the payload: every position that they
look at lies within, every offset can be kept, every run of bytes and every group is handed its one
argument, and what they find by positions is what the format gives. -/
theorem positions_within {source : String} {format : Format}
    (parsed : parse source = .ok format) :
    (∀ args, AllShort args → format.encodeByPositions args = some (format.encode args)) ∧
    ∀ payload : Bytes, payload.length < maxSize →
      format.decodeByPositions payload = some (format.decode payload) ∧
      format.extentByPositions payload = some (format.extent payload) := by
  -- What reading a format guarantees is all that the walks rely on.
  have sound := parse_sound parsed
  refine ⟨fun args short => ?_, fun payload fits => ⟨?_, ?_⟩⟩
  · rw [encodeByPositions, Positions.encodeFields_eq _ _ _ sound.fields short]
    rfl
  · have read := Positions.decodeFields_eq format.order 0 sound.fields sound.size fits
      (Nat.zero_le _)
    obtain ⟨result, reads, used⟩ := Option.map_eq_some_iff.mp read
    rw [decodeByPositions, reads, Option.map_some, used]
    rfl
  · rw [extentByPositions, Positions.fieldsEnd_eq 0 format.fields fits (Nat.zero_le _)]
    simp only [List.drop_zero, Format.extent, Option.map_some]
    cases extentFrom 0 format.fields payload <;> simp [Except.map, Except.mapError]

/-- A number, two pairs with strings in them, and the bytes behind them: what is written is read
again, one byte too few is told, and nothing is left. -/
theorem positions_within_pairs : ∃ format, parse ">H2(cS)*X" = .ok format ∧
    format.encodeByPositions [.uint 513, .list [.tuple [.char 7, .str "A"],
      .list [.str "B", .str ""]], .bytes [9]] = some (.ok [2, 1, 7, 65, 0, 66, 0, 9]) ∧
    format.decodeByPositions [2, 1, 7, 65, 0, 66, 0, 9] = some (.ok [.uint 513,
      .list [.tuple [.char 7, .str "A"], .tuple [.char 66, .str ""]], .bytes [9]]) ∧
    format.extentByPositions [2, 1, 7, 65, 0, 66] = some (.error ⟨">H2(cS)*X",
      .inField 1 (.payloadTruncated 5 4)⟩) := by
  have parsed : parse ">H2(cS)*X" = .ok ⟨">H2(cS)*X", .big, [.primitive .uint16 .once,
      .group [.primitive .char .once, .text .once] (.count 2), .raw .wildcard]⟩ := by cbv
  obtain ⟨encodes, within⟩ := positions_within parsed
  refine ⟨_, parsed, (encodes _ ?_).trans ?_, (within _ ?_).1.trans ?_, (within _ ?_).2.trans ?_⟩
  · simp [AllShort, Value.Short, maxSize]
  · decide +kernel
  · decide
  · cbv
  · decide
  · cbv

end Format

end BoardRpc
