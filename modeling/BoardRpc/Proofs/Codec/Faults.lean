import BoardRpc.Proofs.Codec.Accounting
import BoardRpc.Proofs.Codec.Conformance

/-! Faults: what arguments may be refused for, and what a payload may be refused for, given a format
that can be read. -/

namespace BoardRpc

/-- The faults of arguments. -/
inductive FieldFault.OfArguments : FieldFault → Prop
  | argumentCount (expected : String) (actual : Nat) : OfArguments (.argumentCount expected actual)
  | typeMismatch (expected actual : String) : OfArguments (.typeMismatch expected actual)
  | outOfRange (value kind : String) : OfArguments (.outOfRange value kind)
  | lengthMismatch (expected actual : Nat) : OfArguments (.lengthMismatch expected actual)
  | groupCount (expected actual : Nat) : OfArguments (.groupCount expected actual)
  | embeddedZero : OfArguments (.invalidString "embedded NUL character")

/-- The faults of a payload within a field. -/
inductive FieldFault.OfPayload : FieldFault → Prop
  | truncated (needed available : Nat) : OfPayload (.payloadTruncated needed available)
  | unaligned (remaining width : Nat) : OfPayload (.unalignedWildcard remaining width)
  | notText (reason : String) : OfPayload (.invalidString reason)

/-- What is wrong, if anything is, is of one sort. -/
def FailsBy {ε α : Type} (sort : ε → Prop) (result : Except ε α) : Prop :=
  ∀ fault, result = .error fault → sort fault

section FailsBy

variable {ε α : Type} {sort : ε → Prop} {result : Except ε α}

/-- Nothing is wrong with a success. -/
@[simp] theorem failsBy_ok (value : α) : FailsBy sort (.ok value : Except ε α) := by
  intro fault failed
  cases failed

/-- An error is itself what is wrong. -/
@[simp] theorem failsBy_error {fault : ε} :
    FailsBy sort (.error fault : Except ε α) ↔ sort fault := by
  constructor
  · intro fails
    exact fails fault rfl
  · intro here other failed
    cases failed
    exact here

/-- Either branch of a test may fail. -/
theorem FailsBy.ite {test : Prop} [Decidable test] {other : Except ε α}
    (passed : FailsBy sort result) (failed : FailsBy sort other) :
    FailsBy sort (if test then result else other) := by
  -- The test leaves one of the two.
  by_cases here : test
  · rw [if_pos here]
    exact passed
  · rw [if_neg here]
    exact failed

/-- What is wrong stays of its sort, however it is told. -/
theorem FailsBy.mapError {ε' : Type} {told : ε → ε'} {sort : ε' → Prop}
    (fails : FailsBy (fun fault => sort (told fault)) result) :
    FailsBy sort (result.mapError told) := by
  -- Telling changes an error and no success.
  cases result with
  | error fault => exact failsBy_error.mpr (fails fault rfl)
  | ok value => exact failsBy_ok value

/-- What is made of a success may fail as well. -/
theorem FailsBy.bind {β : Type} {next : α → Except ε β} (first : FailsBy sort result)
    (rest : ∀ value, result = .ok value → FailsBy sort (next value)) :
    FailsBy sort (result.bind next) := by
  -- An error is passed on as it is.
  cases done : result with
  | error fault => exact failsBy_error.mpr (first fault done)
  | ok value => exact rest value done

/-- Two results one behind the other fail as one of them does. -/
theorem FailsBy.joined {first rest : Except ε Bytes} (one : FailsBy sort first)
    (other : FailsBy sort rest) : FailsBy sort (Codec.joined first rest) := by
  -- The second result matters only if the first is there.
  cases first with
  | error fault => exact failsBy_error.mpr (one fault rfl)
  | ok front =>
    cases rest with
    | error fault => exact failsBy_error.mpr (other fault rfl)
    | ok more => exact failsBy_ok (front ++ more)

end FailsBy

/-- The first of some short values are short. -/
theorem AllShort.take {args : List Value} (short : AllShort args) (count : Nat) :
    AllShort (args.take count) := by
  apply allShort_iff.mpr
  -- A value that is taken was there before.
  intro arg here
  exact allShort_iff.mp short arg (List.mem_of_mem_take here)

/-- The values behind them are short as well. -/
theorem AllShort.drop {args : List Value} (short : AllShort args) (count : Nat) :
    AllShort (args.drop count) := by
  apply allShort_iff.mpr
  intro arg here
  exact allShort_iff.mp short arg (List.mem_of_mem_drop here)

namespace Codec

open FieldFault

variable {order : ByteOrder} {field : Field} {fields others body : List Field}

section Arguments

variable {args : List Value} {value : Value}

/-- A value of the wrong kind is a fault of the arguments. -/
theorem mismatch_ofArguments (expected : String) (value : Value) :
    OfArguments (mismatch expected value) :=
  .typeMismatch expected value.kind

/-- A slot refuses a value for its kind or its range. -/
theorem encodePrimitive_fails (order : ByteOrder) (kind : Primitive) (value : Value) :
    FailsBy OfArguments (encodePrimitive order kind value) := by
  -- Integers alone have a range, and padding takes anything.
  unfold encodePrimitive
  cases kind with
  | pad => exact failsBy_ok _
  | char => cases characterByte? value <;> simp [mismatch_ofArguments]
  | bool => cases value.ordinal? <;> simp [mismatch_ofArguments]
  | float | double => cases value.toDouble? <;> simp [mismatch_ofArguments]
  | int8 | uint8 | int16 | uint16 | int32 | uint32 | int64 | uint64 =>
    cases value.number? with
    | none => exact failsBy_error.mpr (mismatch_ofArguments _ _)
    | some n =>
      apply FailsBy.ite
      · exact failsBy_error.mpr (.outOfRange _ _)
      · exact failsBy_ok _

/-- A string is refused for its kind or for a zero byte in it. -/
theorem encodeText_fails (value : Value) : FailsBy OfArguments (encodeText value) := by
  -- Only a string has a text to look into.
  unfold encodeText
  cases value.text? with
  | none => exact failsBy_error.mpr (mismatch_ofArguments _ _)
  | some text =>
    apply FailsBy.ite
    · exact failsBy_error.mpr .embeddedZero
    · exact failsBy_ok _

/-- Integers in a row are refused for one that is no byte. -/
theorem bytesOfItems_fails (items : List Value) : FailsBy OfArguments (bytesOfItems items) := by
  induction items with
  | nil => exact failsBy_ok _
  | cons item others ih =>
    -- The first integer decides, unless it is a byte.
    rw [bytesOfItems]
    cases item.unsigned? 8 with
    | none => exact failsBy_error.mpr (mismatch_ofArguments _ _)
    | some n =>
      -- The first byte is put in front of the others, if these are bytes.
      cases behind : bytesOfItems others with
      | error fault => exact failsBy_error.mpr (ih fault behind)
      | ok bytes => exact failsBy_ok _

/-- A run of bytes is refused for its kind, its elements or its length. -/
theorem encodeRaw_fails (length : Repeat) (value : Value) :
    FailsBy OfArguments (encodeRaw length value) := by
  -- The bytes are collected first, and counted only then.
  have bytes : FailsBy OfArguments (rawBytes value) := by
    cases value with
    | bytes data => exact failsBy_ok _
    | tuple items | list items => exact bytesOfItems_fails items
    | _ => exact failsBy_error.mpr (mismatch_ofArguments _ _)
  unfold encodeRaw
  cases found : rawBytes value with
  | error fault => exact failsBy_error.mpr (bytes fault found)
  | ok data =>
    cases length.count? with
    | none => exact failsBy_ok _
    | some expected =>
      apply FailsBy.ite
      · exact failsBy_ok _
      · exact failsBy_error.mpr (.lengthMismatch _ _)

/-- Values in a row are refused as one of them is. -/
theorem encodeEach_fails {encode : Value → Except FieldFault Bytes}
    (each : ∀ arg ∈ args, FailsBy OfArguments (encode arg)) :
    FailsBy OfArguments (encodeEach encode args) := by
  -- The first value that is refused decides, and it is one of them.
  induction args with
  | nil => exact failsBy_ok _
  | cons arg others ih =>
    obtain ⟨first, behind⟩ := List.forall_mem_cons.mp each
    rw [encodeEach_joined]
    exact first.joined (ih behind)

/-- A tuple is refused for its kind, its length or one of its elements. -/
theorem encodeTuple_fails {encode : List Value → Except FieldFault Bytes}
    (items : (arityOf body).accepts value.elements.length = true →
      FailsBy OfArguments (encode value.elements)) :
    FailsBy OfArguments (encodeTuple body encode value) := by
  -- The elements are written only if their number is right.
  unfold encodeTuple
  cases value with
  | tuple elements | list elements =>
    by_cases accepted : (arityOf body).accepts elements.length = true
    · simp only [Value.items?, accepted, if_true]
      exact items accepted
    · simp only [Value.items?, accepted]
      exact failsBy_error.mpr (.argumentCount _ _)
  | _ => exact failsBy_error.mpr (mismatch_ofArguments _ _)

/-- Entries are refused for their kind, their number or one of them. -/
theorem encodeEntries_fails {encode : Value → Except FieldFault Bytes} (times : Repeat)
    (each : ∀ entry ∈ value.elements, FailsBy OfArguments (encode entry)) :
    FailsBy OfArguments (encodeEntries times encode value) := by
  -- A wildcard has no number of entries to test.
  unfold encodeEntries
  cases value with
  | tuple entries | list entries =>
    have written : FailsBy OfArguments (encodeEach encode entries) := encodeEach_fails each
    simp only [Value.items?]
    cases times.count? with
    | none => exact written
    | some expected =>
      apply FailsBy.ite
      · exact written
      · exact failsBy_error.mpr (.groupCount _ _)
  | _ => exact failsBy_error.mpr (mismatch_ofArguments _ _)

/-- A field refuses its share of the arguments for a fault of theirs. -/
def FieldRefuses (order : ByteOrder) (field : Field) : Prop :=
  ∀ {args}, field.Sound → AllShort args → args.length = field.share args.length →
    FailsBy OfArguments (encodeField order field args)

/-- The same of a row in a group, once there are as many arguments as it counts. -/
def RowRefuses (order : ByteOrder) (fields : List Field) : Prop :=
  ∀ {args}, RowSound true fields → AllShort args → Counted fields args.length →
    FailsBy OfArguments (encodeRow order fields args)

/-- Values of fixed width are refused as slots refuse them. -/
theorem primitive_refuses (order : ByteOrder) (kind : Primitive) (times : Repeat) :
    FieldRefuses order (.primitive kind times) := by
  intro args _ _ _
  -- Padding has no arguments that it could refuse.
  by_cases padding : kind = .pad
  · subst padding
    exact failsBy_ok _
  · rw [encodeField_primitive padding]
    exact encodeEach_fails fun arg _ => encodePrimitive_fails order kind arg

/-- Strings are refused one by one. -/
theorem text_refuses (order : ByteOrder) (times : Repeat) : FieldRefuses order (.text times) := by
  intro args _ _ _
  rw [encodeField]
  exact encodeEach_fails fun arg _ => encodeText_fails arg

/-- A run of bytes is one argument, which is there. -/
theorem raw_refuses (order : ByteOrder) (length : Repeat) : FieldRefuses order (.raw length) := by
  intro args _ _ share
  obtain ⟨arg, rfl⟩ := List.length_eq_one_iff.mp share
  rw [encodeField]
  exact encodeRaw_fails length arg

/-- A group is one argument, whose elements are counted before any of them is written. -/
theorem group_refuses (row : RowRefuses order body) (times : Repeat) :
    FieldRefuses order (.group body times) := by
  intro args sound short share
  obtain ⟨arg, rfl⟩ := List.length_eq_one_iff.mp share
  obtain ⟨_, bodySound, _⟩ := sound
  -- An accepted number of elements is the one that the body counts.
  have tuple : ∀ value : Value, value.Short →
      FailsBy OfArguments (encodeTuple body (fun items => encodeRow order body items) value) := by
    intro value short
    obtain ⟨bounded, inside⟩ := short.inside
    apply encodeTuple_fails
    intro accepted
    exact row bodySound inside ((accepts_iff_counted bodySound bounded).mp accepted)
  have argShort : arg.Short := short.1
  rw [encodeField]
  -- The argument is the tuple, or a list of tuples.
  apply FailsBy.ite
  · exact tuple arg argShort
  · apply encodeEntries_fails
    intro entry here
    exact tuple entry (allShort_iff.mp argShort.inside.2 entry here)

/-- Every row is refused for a fault of its arguments, as there are enough of them. -/
theorem refuses (order : ByteOrder) :
    (∀ field, FieldRefuses order field) ∧ ∀ fields, RowRefuses order fields := by
  -- In a group every field claims a fixed number of what was counted for the whole row.
  refine Field.row_induction (primitive_refuses order) (text_refuses order) (raw_refuses order)
    (fun _ times row => group_refuses row times) ?_ ?_
  · intro args _ _ _
    exact failsBy_ok _
  · intro field others fieldRefuses othersRefuse args sound short counted
    obtain ⟨fieldSound, outside, othersSound⟩ := sound
    obtain ⟨n, exactly⟩ : ∃ n, field.arity = .exact n := by
      apply arity_exact
      intro wildcard
      exact absurd (outside wildcard).1 (by decide)
    obtain ⟨claimed, more, accepted, behind, total⟩ := counted
    obtain rfl : claimed = n := by
      simpa only [exactly, Arity.accepts, beq_iff_eq] using accepted
    have claim : field.arity.claim args.length = claimed := by
      rw [exactly]
      rfl
    have share : (args.take claimed).length = field.share (args.take claimed).length := by
      rw [← field.claim_eq_share, exactly, Arity.claim]
      exact List.length_take_of_le (by omega)
    -- What the field leaves is what the others count.
    have left : Counted others (args.drop claimed).length := by
      rw [List.length_drop, total, Nat.add_sub_cancel_left]
      exact behind
    rw [encodeRow_joined (by omega), claim]
    exact (fieldRefuses fieldSound (short.take _) share).joined
      (othersRefuse othersSound (short.drop _) left)

/-- Outside of groups, arguments are refused for a fault that is charged to a field. -/
theorem encodeFrom_fails {inGroup : Bool} (whole : List Field) (given index : Nat)
    (sound : RowSound inGroup fields) (short : AllShort args) :
    FailsBy (fun fault => ∃ late inner, fault = .inField late inner ∧ OfArguments inner)
      (encodeFrom order whole given index fields args) := by
  -- Here the number of arguments is tested field by field.
  induction fields generalizing index args inGroup with
  | nil =>
    cases args with
    | nil => exact failsBy_ok _
    | cons => exact failsBy_error.mpr ⟨index, _, rfl, .argumentCount _ _⟩
  | cons field others ih =>
    obtain ⟨fieldSound, _, othersSound⟩ := sound
    by_cases enough : field.arity.claim args.length ≤ args.length
    · -- The field has its share, so whatever is wrong is wrong with the arguments in it.
      have share := claim_share field.arity enough
      rw [field.claim_eq_share] at share
      rw [encodeFrom_joined enough]
      apply FailsBy.joined
      · apply FailsBy.mapError
        intro fault failed
        exact ⟨index, fault, rfl,
          (refuses order).1 field fieldSound (short.take _) share.symm fault failed⟩
      · exact ih (index + 1) othersSound (short.drop _)
    · -- Too few arguments are charged to the field that they are missing for.
      simp only [encodeFrom, if_pos (Nat.lt_of_not_le enough)]
      exact failsBy_error.mpr ⟨index, _, rfl, .argumentCount _ _⟩

end Arguments

section Payloads

variable {data : Bytes} {size : Nat}

/-- Strings that are no text are a fault of the payload. -/
theorem OnlyTextFails.ofPayload {α : Type} {result : Except FieldFault α}
    (fails : OnlyTextFails result) : FailsBy OfPayload result := by
  intro fault failed
  obtain ⟨reason, rfl⟩ := fails fault failed
  exact .notText reason

/-- Strings are refused for a zero byte that is missing or for bytes that are no text. -/
theorem decodeTexts_refused (data : Bytes) : FailsBy OfPayload (decodeTexts data) := by
  -- The induction is on the bytes that are left, of which each string takes one at least.
  induction left : data.length using Nat.strong_induction_on generalizing data with
  | _ length ih =>
    subst left
    cases data with
    | nil =>
      rw [decodeTexts]
      exact failsBy_ok _
    | cons byte rest =>
      rw [decodeTexts]
      cases (byte :: rest).idxOf? 0 with
      | none => exact failsBy_error.mpr (.truncated _ _)
      | some index =>
        dsimp only
        cases Text.ofUtf8 ((byte :: rest).take index) with
        | error fault => exact failsBy_error.mpr (.notText _)
        | ok text =>
          dsimp only
          -- The zero byte at the least is taken.
          have shorter : (rest.drop index).length < (byte :: rest).length := by
            rw [List.length_drop, List.length_cons]
            omega
          have behind := ih _ shorter _ rfl
          cases there : decodeTexts (rest.drop index) with
          | error fault => exact failsBy_error.mpr (behind fault there)
          | ok others => exact failsBy_ok _

/-- A row in a group is refused for bytes that are missing or for a string that is no text. -/
theorem decodeRow_refused (order : ByteOrder) (sound : RowSound true fields)
    (sized : (Field.totalMinSize fields).isSome) (data : Bytes) :
    FailsBy OfPayload (decodeRow order fields data) := by
  -- Each field is found or not, and in a group none is a wildcard.
  induction fields generalizing data with
  | nil => exact failsBy_ok _
  | cons field others ih =>
    obtain ⟨fieldSound, outside, othersSound⟩ := sound
    obtain ⟨least, total⟩ := Option.isSome_iff_exists.mp sized
    obtain ⟨leastHere, leastRest, hereTotal, restTotal, rfl, fits⟩ := totalMinSize_cons total
    have narrow : field.times ≠ .wildcard := by
      intro wildcard
      exact absurd (outside wildcard).1 (by decide)
    cases found : field.extent data with
    | error shortfall =>
      simp only [decodeRow, found]
      exact failsBy_error.mpr (.truncated _ _)
    | ok size =>
      -- What was found is in the payload, and only a string in it can be wrong.
      rw [decodeRow_found found (extent_local.1 field fieldSound narrow found).1]
      have fieldFails := (accounts order).1 field fieldSound ⟨leastHere, hereTotal, by omega⟩ narrow
        found
      cases here : decodeField order field (data.take size) with
      | error fault => exact failsBy_error.mpr (fieldFails.ofPayload fault here)
      | ok values =>
        have othersFail := ih othersSound (by simp [restTotal]) (data.drop size)
        cases there : decodeRow order others (data.drop size) with
        | error fault => exact failsBy_error.mpr (othersFail fault there)
        | ok rest => exact failsBy_ok _

/-- Entries up to the end are refused as one of them is, since each of them takes something. -/
theorem decodeAllEntries_refused {entry : Bytes → Except FieldFault (List Value × Nat)}
    (each : ∀ data, FailsBy OfPayload (entry data))
    (growing : ∀ {data items size}, entry data = .ok (items, size) → 0 < size) (data : Bytes) :
    FailsBy OfPayload (decodeAllEntries entry data) := by
  -- The induction is on the bytes that are left behind the entries so far.
  induction left : data.length using Nat.strong_induction_on generalizing data with
  | _ length ih =>
    subst left
    rw [decodeAllEntries]
    cases empty : data.isEmpty with
    | true => exact failsBy_ok _
    | false =>
      cases here : entry data with
      | error fault => exact failsBy_error.mpr (each data fault here)
      | ok first =>
        -- An entry that takes nothing would go on for ever, and there is none.
        have positive : ¬ first.2 = 0 := Nat.ne_of_gt (growing here)
        have nonempty : data.length ≠ 0 := by
          intro zero
          rw [List.eq_nil_of_length_eq_zero zero] at empty
          cases empty
        have behind := ih (data.drop first.2).length (by rw [List.length_drop]; omega) _ rfl
        simp only [Bool.false_eq_true, if_false, dif_neg positive]
        cases there : decodeAllEntries entry (data.drop first.2) with
        | error fault => exact failsBy_error.mpr (behind fault there)
        | ok others => exact failsBy_ok _

/-- A wildcard is refused for bytes that do not come out even, or for what is wrong with a string
or an entry. -/
theorem decodeField_refused (order : ByteOrder) (sound : field.Sound) (sized : field.Sized)
    (wildcard : field.times = .wildcard) (data : Bytes) :
    FailsBy OfPayload (decodeField order field data) := by
  -- What is left may end anywhere, so that every kind of field is looked at.
  cases field with
  | primitive kind times =>
    by_cases padding : kind = .pad
    · subst padding
      exact failsBy_ok _
    · rw [decodeField_primitive padding]
      apply FailsBy.ite
      · exact failsBy_error.mpr (.unaligned _ _)
      · exact failsBy_ok _
  | text times =>
    rw [decodeField]
    exact decodeTexts_refused data
  | raw length => exact failsBy_ok _
  | group body times =>
    -- A group is read entry by entry, and no entry is empty.
    obtain rfl : times = .wildcard := wildcard
    obtain ⟨bodySound, bodySized, growing⟩ := group_body sound sized
    have entries := decodeAllEntries_refused (decodeRow_refused order bodySound bodySized)
      (fun read => growing (by decide) (rowExtent_of_decodeRow read)) data
    simp only [decodeField]
    cases read : decodeAllEntries (fun rest => decodeRow order body rest) data with
    | error fault => exact failsBy_error.mpr (entries fault read)
    | ok values => exact failsBy_ok _

/-- Outside of groups, a payload is refused for bytes behind the last field, or for a fault that is
charged to a field. -/
theorem decodeFrom_fails (order : ByteOrder) (index : Nat) (sound : RowSound false fields)
    (sized : (Field.totalMinSize fields).isSome) (data : Bytes) :
    FailsBy (fun fault => (∃ unused, fault = .trailingBytes unused) ∨
        ∃ late inner, fault = .inField late inner ∧ OfPayload inner)
      (decodeFrom order index fields data) := by
  -- The walk ends behind the last field, or at the first that is not found or not read.
  induction fields generalizing index data with
  | nil =>
    rw [decodeFrom]
    apply FailsBy.ite
    · exact failsBy_ok _
    · exact failsBy_error.mpr (.inl ⟨_, rfl⟩)
  | cons field others ih =>
    obtain ⟨fieldSound, _, othersSound⟩ := sound
    obtain ⟨least, total⟩ := Option.isSome_iff_exists.mp sized
    obtain ⟨leastHere, leastRest, hereTotal, restTotal, rfl, fits⟩ := totalMinSize_cons total
    have fieldSized : field.Sized := ⟨leastHere, hereTotal, by omega⟩
    cases found : field.extent data with
    | error shortfall =>
      simp only [decodeFrom, found]
      exact failsBy_error.mpr (.inr ⟨index, _, rfl, .truncated _ _⟩)
    | ok size =>
      -- A wildcard has all there is, and any other field what was found for it.
      obtain ⟨within, fieldFails⟩ : size ≤ data.length ∧
          FailsBy OfPayload (decodeField order field (data.take size)) := by
        by_cases wildcard : field.times = .wildcard
        · obtain rfl := Except.ok.inj ((extent_wildcard wildcard).symm.trans found)
          exact ⟨Nat.le_refl _, decodeField_refused order fieldSound fieldSized wildcard _⟩
        · exact ⟨(extent_local.1 field fieldSound wildcard found).1,
            ((accounts order).1 field fieldSound fieldSized wildcard found).ofPayload⟩
      have enough : (!hasAtLeast size data) = false := by simpa using within
      have othersFail := ih (index + 1) othersSound (by simp [restTotal]) (data.drop size)
      simp only [decodeFrom, found, enough, Bool.false_eq_true, if_false]
      cases here : decodeField order field (data.take size) with
      | error fault =>
        exact failsBy_error.mpr (.inr ⟨index, fault, rfl, fieldFails fault here⟩)
      | ok values =>
        cases there : decodeFrom order (index + 1) others (data.drop size) with
        | error fault => exact failsBy_error.mpr (othersFail fault there)
        | ok more => exact failsBy_ok _

end Payloads

end Codec

namespace Format

variable {format : Format}

/-- Arguments are refused for a fault of theirs, which is charged to a field. -/
theorem encode_fails (sound : format.Sound) {args : List Value} (short : AllShort args) :
    FailsBy (fun error => ∃ index inner, error = ⟨format.source, .inField index inner⟩ ∧
      inner.OfArguments) (format.encode args) := by
  apply FailsBy.mapError
  -- The source is added to what is wrong.
  intro fault failed
  obtain ⟨index, inner, rfl, ofArguments⟩ :=
    Codec.encodeFrom_fails format.fields args.length 0 sound.fields short fault failed
  exact ⟨index, inner, rfl, ofArguments⟩

/-- A payload is refused for a fault of its own: bytes are left over, or one is charged to a
field. -/
theorem decode_fails (sound : format.Sound) (payload : Bytes) :
    FailsBy (fun error => (∃ unused, error = ⟨format.source, .trailingBytes unused⟩) ∨
      ∃ index inner, error = ⟨format.source, .inField index inner⟩ ∧ inner.OfPayload)
      (format.decode payload) := by
  apply FailsBy.mapError
  intro fault failed
  rcases Codec.decodeFrom_fails format.order 0 sound.fields sound.size payload fault failed with
    ⟨unused, rfl⟩ | ⟨index, inner, rfl, ofPayload⟩
  · exact .inl ⟨unused, rfl⟩
  · exact .inr ⟨index, inner, rfl, ofPayload⟩

/-- A payload without an extent is too short, which is a fault of its own. -/
theorem extent_fails (format : Format) (payload : Bytes) :
    FailsBy (fun error => ∃ index inner, error = ⟨format.source, .inField index inner⟩ ∧
      inner.OfPayload) (format.extent payload) := by
  apply FailsBy.mapError
  intro fault failed
  -- The field at which the search stopped is the one that is charged.
  obtain ⟨late, shortfall, _, rfl⟩ := Codec.extentFrom_error failed
  exact ⟨late, _, rfl, .truncated shortfall.needed shortfall.available⟩

/-- A text that is no format is malformed at some place. -/
theorem parse_fails (source : String) :
    FailsBy (fun error => ∃ position reason, error = ⟨source, .malformed position reason⟩)
      (parse source) := by
  -- Every blemish is reported with its place in the text.
  unfold parse
  cases readText source.toList with
  | error blemish => exact failsBy_error.mpr ⟨_, _, rfl⟩
  | ok read => exact failsBy_ok _

end Format

end BoardRpc
