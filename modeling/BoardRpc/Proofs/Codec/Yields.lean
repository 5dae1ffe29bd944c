import BoardRpc.Proofs.Codec.Conformance

/-! What decoding yields: the kinds of values, and how many, are those that the format tells. -/

namespace BoardRpc

/-- The values that a slot of fixed width yields. -/
inductive Primitive.Yields : Primitive → Value → Prop
  | char (byte : UInt8) : Yields .char (.char byte)
  | bool (truth : Bool) : Yields .bool (.bool truth)
  | float (x : Double) : Yields .float (.float x)
  | double (x : Double) : Yields .double (.float x)
  | signed {kind : Primitive} {n : Int64} (negatable : kind.isSigned = true)
      (held : kind.Holds n.toInt) : Yields kind (.int n)
  | unsigned {kind : Primitive} {n : UInt64} (natural : kind.isSigned = false)
      (held : kind.Holds n.toNat) : Yields kind (.uint n)

mutual

/-- The values that a field yields. -/
def Field.Yields : Field → List Value → Prop
  | .primitive .pad _, values => values = []
  | .primitive kind times, values =>
    values.length = times.share values.length ∧ ∀ value ∈ values, kind.Yields value
  | .text times, values =>
    values.length = times.share values.length ∧ ∀ value ∈ values, IsText value
  | .raw length, values => ∃ data, values = [.bytes data] ∧ data.length = length.share data.length
  | .group body .once, values => ∃ items, values = [.tuple items] ∧ RowYields body items
  | .group body times, values => ∃ entries, values = [.list entries] ∧
      entries.length = times.share entries.length ∧
      ∀ entry ∈ entries, ∃ items, entry = .tuple items ∧ RowYields body items

/-- The values that fields in a row yield, those of one field behind those of the other. -/
def RowYields : List Field → List Value → Prop
  | [], values => values = []
  | field :: others, values =>
    ∃ here more, values = here ++ more ∧ field.Yields here ∧ RowYields others more

end

/-- Only a slot that is no padding is read as so many values. -/
theorem Field.yields_primitive {kind : Primitive} (slot : kind ≠ .pad) (times : Repeat)
    (values : List Value) : (Field.primitive kind times).Yields values ↔
      values.length = times.share values.length ∧ ∀ value ∈ values, kind.Yields value := by
  cases kind <;> first | exact absurd rfl slot | exact Iff.rfl

/-- Only a group that repeats is read as entries. -/
theorem Field.yields_repeated {body : List Field} {times : Repeat} (repeated : times ≠ .once)
    (values : List Value) : (Field.group body times).Yields values ↔
      ∃ entries, values = [.list entries] ∧ entries.length = times.share entries.length ∧
        ∀ entry ∈ entries, ∃ items, entry = .tuple items ∧ RowYields body items := by
  cases times <;> first | exact absurd rfl repeated | exact Iff.rfl

/-- Strings are accepted in the number that is their share. -/
theorem Field.accepts_text {times : Repeat} {count : Nat} (whole : count = times.share count) :
    (Field.text times).arity.accepts count := by
  -- A count is accepted alone, and a wildcard accepts any number.
  cases times with
  | once | count => exact beq_iff_eq.mpr whole
  | wildcard => exact decide_eq_true (Nat.zero_le count)

/-- A field accepts as many values as it yields. -/
theorem Field.Yields.accepts {field : Field} {values : List Value} (yields : field.Yields values) :
    field.arity.accepts values.length := by
  -- Runs and groups are one value however much they hold.
  cases field with
  | primitive kind times =>
    by_cases padding : kind = .pad
    · subst padding
      rw [show values = [] from yields]
      rfl
    · -- Values of fixed width are counted as strings are.
      have same : (Field.primitive kind times).arity = (Field.text times).arity :=
        Codec.arity_primitive padding
      rw [same]
      exact accepts_text ((yields_primitive padding times values).mp yields).1
  | text times => exact accepts_text yields.1
  | raw length =>
    obtain ⟨data, rfl, _⟩ := yields
    rfl
  | group body times =>
    by_cases once : times = .once
    · subst once
      obtain ⟨items, rfl, _⟩ := yields
      rfl
    · obtain ⟨entries, rfl, _⟩ := (yields_repeated once values).mp yields
      rfl

/-- A row counts as many values as it yields. -/
theorem RowYields.counted {fields : List Field} {values : List Value}
    (yields : RowYields fields values) : Codec.Counted fields values.length := by
  -- Every field accepts its part, and the parts make up the row.
  induction fields generalizing values with
  | nil => exact congrArg List.length yields
  | cons field others ih =>
    obtain ⟨here, more, rfl, first, rest⟩ := yields
    exact ⟨here.length, more.length, first.accepts, ih rest, List.length_append⟩

/-- A field claims what it has yielded from the values of a row, as a wildcard has none behind
it. -/
theorem Field.Yields.claimed {inGroup : Bool} {field : Field} {others : List Field}
    {here more : List Value} (sound : RowSound inGroup (field :: others))
    (yields : field.Yields here) (rest : RowYields others more) :
    field.arity.claim (here ++ more).length = here.length := by
  obtain ⟨_, wildcardLast, _⟩ := sound
  -- Any other field accepts one number of values, so that it leaves the rest.
  apply Codec.claim_append yields.accepts
  intro wildcard
  obtain ⟨_, _, rfl⟩ := wildcardLast wildcard
  exact rest

namespace Codec

variable {order : ByteOrder} {field : Field} {body fields : List Field}

/-- A slot of fixed width is read as what it yields. -/
theorem decodePrimitive_yields {kind : Primitive} (slot : kind ≠ .pad) {bytes : Bytes}
    (width : bytes.length = kind.width) : kind.Yields (decodePrimitive order kind bytes) := by
  by_cases integer : isInteger kind = true
  · -- What was read is written again, so it is a number that the slot holds.
    have written : encodePrimitive order kind (decodePrimitive order kind bytes) = .ok bytes :=
      encodePrimitive_decodePrimitive_integer integer width
    obtain ⟨takes, _⟩ := (encodeInteger_eq_ok integer).mp written
    obtain ⟨n, number, held⟩ := (takes_integer integer).mp takes
    -- The sign of the kind tells which of the two integers it was read as.
    rw [decodePrimitive_integer integer] at number ⊢
    by_cases negatable : kind.isSigned = true
    · rw [if_pos negatable] at number ⊢
      cases number
      exact .signed negatable held
    · rw [if_neg negatable] at number ⊢
      cases number
      exact .unsigned (Bool.eq_false_iff.mpr negatable) held
  · -- All that is left is read as it comes, whatever the bytes are.
    cases kind with
    | pad => exact absurd rfl slot
    | char => exact .char _
    | bool => exact .bool _
    | float => exact .float _
    | double => exact .double _
    | _ => exact absurd rfl integer

/-- Elements are read as what their kind yields. -/
theorem decodeElements_yield {kind : Primitive} (slot : kind ≠ .pad) {count : Nat} {data : Bytes}
    (length : data.length = kind.width * count) :
    ∀ value ∈ decodeElements order kind count data, kind.Yields value := by
  -- Each slot is as wide as its kind, and the others begin behind it.
  induction count generalizing data with
  | zero =>
    intro value here
    cases here
  | succ count ih =>
    rw [Nat.mul_succ] at length
    have width : (data.take kind.width).length = kind.width :=
      List.length_take_of_le (by omega)
    have rest : (data.drop kind.width).length = kind.width * count := by
      rw [List.length_drop]
      omega
    exact List.forall_mem_cons.mpr ⟨decodePrimitive_yields slot width, ih rest⟩

/-- What is read from a field's own extent is what the field yields. -/
def FieldDecodes (order : ByteOrder) (field : Field) : Prop :=
  ∀ {data size values}, field.Sound → field.Sized → field.extent data = .ok size →
    size ≤ data.length → decodeField order field (data.take size) = .ok values →
    field.Yields values

/-- What is read from the front of a payload by a row is what the row yields. -/
def RowDecodes (order : ByteOrder) (fields : List Field) : Prop :=
  ∀ {inGroup data size values}, RowSound inGroup fields → (Field.totalMinSize fields).isSome →
    decodeRow order fields data = .ok (values, size) → RowYields fields values

/-- Values of fixed width are read as what their kind yields. -/
theorem primitive_decodes (order : ByteOrder) (kind : Primitive) (times : Repeat) :
    FieldDecodes order (.primitive kind times) := by
  intro data size values _ sized found within read
  by_cases padding : kind = .pad
  · -- Padding is skipped.
    subst padding
    cases read
    exact rfl
  · have length : (data.take size).length = size := List.length_take_of_le within
    rw [decodeField_primitive padding, length] at read
    -- Bytes that do not come out even are refused, so these do.
    split at read
    · cases read
    · rename_i aligned
      cases read
      obtain ⟨whole, counted⟩ := elements_whole sized found within aligned
      apply (Field.yields_primitive padding times _).mpr
      refine ⟨?_, decodeElements_yield padding whole⟩
      rw [length_decodeElements]
      cases times with
      | once => exact counted 1 rfl
      | count n => exact counted n rfl
      | wildcard => rfl

/-- Strings are read as texts without a zero inside, as many as are declared. -/
theorem text_decodes (order : ByteOrder) (times : Repeat) : FieldDecodes order (.text times) := by
  intro data size values _ _ found _ read
  -- What is read is written again, so each value is a text that can be written.
  have written := encodeEach_decodeTexts read
  have texts : ∀ value ∈ values, IsText value :=
    ((encodeEach_eq_ok fun value _ => encodeText_eq_ok).mp written).1
  refine ⟨?_, texts⟩
  -- The extent of a count ends behind as many strings, and a wildcard has no number.
  cases times with
  | once => exact length_decodeTexts found read
  | count n => exact length_decodeTexts found read
  | wildcard => rfl

/-- A run of bytes is read as one value of the declared length. -/
theorem raw_decodes (order : ByteOrder) (length : Repeat) : FieldDecodes order (.raw length) := by
  intro data size values _ sized found within read
  obtain ⟨least, total, fits⟩ := sized
  cases total
  cases read
  -- The run is the extent, and a count that can be kept is the length of it.
  refine ⟨data.take size, rfl, ?_⟩
  rw [List.length_take_of_le within]
  cases length with
  | once => exact (fixedExtent_ok found).trans (Nat.min_eq_left fits)
  | count n => exact (fixedExtent_ok found).trans (Nat.min_eq_left fits)
  | wildcard => rfl

/-- Entries up to the end are tuples of what each of them was read as. -/
theorem decodeAllEntries_each {entry : Bytes → Except FieldFault (List Value × Nat)}
    {data : Bytes} {entries : List Value} (all : decodeAllEntries entry data = .ok entries) :
    ∀ value ∈ entries, ∃ items rest size,
      value = .tuple items ∧ entry rest = .ok (items, size) := by
  -- The induction is on the entries, each of which was read from where the one before it ended.
  induction entries generalizing data with
  | nil =>
    intro value here
    cases here
  | cons first others ih =>
    cases empty : data.isEmpty with
    | true =>
      rw [decodeAllEntries, if_pos empty] at all
      cases all
    | false =>
      obtain ⟨items, size, more, here, _, there, same⟩ := (decodeAllEntries_ok empty).mp all
      cases same
      exact List.forall_mem_cons.mpr ⟨⟨items, data, size, rfl, here⟩, ih there⟩

/-- A group is read as a tuple, or as a list of tuples, of what its body yields. -/
theorem group_decodes (row : RowDecodes order body) (times : Repeat) :
    FieldDecodes order (.group body times) := by
  intro data size values sound sized found _ read
  obtain ⟨bodySound, bodySized, _⟩ := group_body sound sized
  by_cases once : times = .once
  · -- Without a repeat there is one tuple, and no list around it.
    subst once
    simp only [decodeField] at read
    split at read
    · cases read
    · rename_i items taken readBody
      cases read
      exact ⟨items, rfl, row bodySound bodySized readBody⟩
  · -- With one, the entries were read one by one and counted.
    obtain ⟨entries, rfl, all, declared⟩ := decodeField_repeated once sound sized found read
    apply (Field.yields_repeated once _).mpr
    refine ⟨entries, rfl, ?_, fun entry here => ?_⟩
    · cases times with
      | once => exact absurd rfl once
      | count n => exact declared n rfl
      | wildcard => rfl
    · obtain ⟨items, rest, size, rfl, readBody⟩ := decodeAllEntries_each all entry here
      exact ⟨items, rfl, row bodySound bodySized readBody⟩

/-- Every row is read as what it yields: leaves by themselves, groups by bodies, and rows field by
field. -/
theorem row_decodes (order : ByteOrder) : ∀ fields, RowDecodes order fields := by
  refine (Field.row_induction (primitive_decodes order) (text_decodes order) (raw_decodes order)
    (fun _ times row => group_decodes row times) ?_ ?_).2
  · intro inGroup data size values _ _ read
    cases read
    exact rfl
  · -- What a field was read as stands in front of what the others were read as.
    intro field others fieldDecodes othersDecode inGroup data size values sound sized read
    obtain ⟨fieldSound, _, othersSound⟩ := sound
    obtain ⟨_, total⟩ := Option.isSome_iff_exists.mp sized
    obtain ⟨least, leastRest, firstTotal, restTotal, _, fits⟩ := totalMinSize_cons total
    obtain ⟨first, rest, here, more, found, within, readHere, readMore, rfl, rfl⟩ :=
      decodeRow_cons.mp read
    exact ⟨here, more, rfl,
      fieldDecodes fieldSound ⟨least, firstTotal, by omega⟩ found within readHere,
      othersDecode othersSound (by simp [restTotal]) readMore⟩

end Codec

namespace Format

/-- A payload is decoded as what the fields of the format yield. -/
theorem decode_yields {format : Format} (sound : format.Sound) {payload : Bytes}
    {values : List Value} (decoded : format.decode payload = .ok values) :
    RowYields format.fields values :=
  Codec.row_decodes format.order format.fields sound.fields sound.size (decode_eq_ok.mp decoded)

end Format

end BoardRpc
