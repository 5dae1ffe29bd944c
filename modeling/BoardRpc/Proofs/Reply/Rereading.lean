import BoardRpc.Proofs.Codec.Yields
import BoardRpc.Reply.Render

/-! Results given back as arguments: what a decoded value is once it has been written as JSON and
read again, and what that is encoded as. -/

namespace BoardRpc

namespace Value

mutual

/-- The value that is read from the JSON of another. -/
def reread : Value → Value
  | .int n => if n.toInt < 0 then .int n else .ofNat n.toInt.toNat
  | .char byte => .str (String.singleton (byteChar byte))
  | .bytes data => .list (data.map fun byte => .ofNat byte.toNat)
  | .tuple items | .list items => .list (rereadAll items)
  | value => value

/-- The same of values in a row. -/
def rereadAll : List Value → List Value
  | [] => []
  | item :: rest => reread item :: rereadAll rest

end

mutual

/-- Something holds of a value, or of all that a sequence contains at any depth. -/
def Leaves (holds : Value → Prop) : Value → Prop
  | .tuple items | .list items => AllLeaves holds items
  | value => holds value

/-- The same of values in a row. -/
def AllLeaves (holds : Value → Prop) : List Value → Prop
  | [] => True
  | item :: rest => Leaves holds item ∧ AllLeaves holds rest

end

/-- A value that is no floating-point number, or a finite one. -/
def IsFinite : Value → Prop
  | .float x => x.isFinite = true
  | _ => True

/-- A value that is no character, or one of ASCII. -/
def IsAscii : Value → Prop
  | .char byte => byte.toNat < 128
  | _ => True

/-- What holds of leaves, and passes from rows to sequences and from the values of a row to the row,
holds of all values and rows. -/
theorem row_induction {P : Value → Prop} {Q : List Value → Prop}
    (leaf : ∀ value, value.items? = none → P value) (tuple : ∀ items, Q items → P (.tuple items))
    (list : ∀ items, Q items → P (.list items)) (nil : Q [])
    (cons : ∀ item rest, P item → Q rest → Q (item :: rest)) :
    (∀ value, P value) ∧ ∀ values, Q values :=
  -- Values hold rows and rows hold values, so both are treated at once.
  ⟨fun value => Value.rec (fun n => leaf (.int n) rfl) (fun n => leaf (.uint n) rfl)
      (fun x => leaf (.float x) rfl) (fun truth => leaf (.bool truth) rfl)
      (fun byte => leaf (.char byte) rfl) (fun text => leaf (.str text) rfl)
      (fun data => leaf (.bytes data) rfl) tuple list nil cons value,
    fun values => Value.rec_1 (fun n => leaf (.int n) rfl) (fun n => leaf (.uint n) rfl)
      (fun x => leaf (.float x) rfl) (fun truth => leaf (.bool truth) rfl)
      (fun byte => leaf (.char byte) rfl) (fun text => leaf (.str text) rfl)
      (fun data => leaf (.bytes data) rfl) tuple list nil cons values⟩

/-- Values in a row are reread one by one. -/
theorem rereadAll_eq (values : List Value) : rereadAll values = values.map reread := by
  induction values with
  | nil => rfl
  | cons value others ih => rw [rereadAll, ih, List.map_cons]

/-- The leaves of a row are those of its values. -/
theorem allLeaves_iff {holds : Value → Prop} {values : List Value} :
    AllLeaves holds values ↔ ∀ value ∈ values, value.Leaves holds := by
  induction values with
  | nil => simp [AllLeaves]
  | cons value others ih => simp [AllLeaves, ih]

/-- The leaves of two rows are those of both together. -/
theorem allLeaves_append {holds : Value → Prop} {values others : List Value} :
    AllLeaves holds (values ++ others) ↔ AllLeaves holds values ∧ AllLeaves holds others := by
  -- Said of each value, it is said of the values of both.
  rw [allLeaves_iff, allLeaves_iff, allLeaves_iff]
  exact List.forall_mem_append

/-- Bytes are written as numbers and read as such. -/
theorem ofJsonAll_bytes (data : Bytes) :
    ofJsonAll (data.map fun byte => .int byte.toNat)
      = .ok (data.map fun byte => .ofNat byte.toNat) := by
  induction data with
  | nil => rfl
  | cons byte rest ih =>
    -- The number of a byte is not negative.
    have natural : ¬ (byte.toNat : Int) < 0 := by omega
    simp only [List.map_cons, ofJsonAll, ofJson, ih, if_neg natural, Int.toNat_natCast]

/-- Without a number that JSON cannot write, a value is read from its JSON as the reread value. -/
theorem ofJson_toJson : (∀ value : Value, value.Leaves IsFinite →
      ofJson value.toJson = .ok value.reread) ∧
    ∀ values, AllLeaves IsFinite values →
      ofJsonAll (toJsonAll values) = .ok (rereadAll values) := by
  -- Each kind of leaf has its own form in JSON, and sequences are arrays.
  have sequence : ∀ items, (AllLeaves IsFinite items →
      ofJsonAll (toJsonAll items) = .ok (rereadAll items)) → AllLeaves IsFinite items →
      ofJson (.arr (toJsonAll items)) = .ok (.list (rereadAll items)) := by
    intro items read finite
    rw [ofJson, read finite]
  refine row_induction ?_ sequence sequence ?_ ?_
  · intro value leaf finite
    cases value with
    | int n =>
      -- A negative number stays signed, and any other one becomes unsigned.
      simp only [toJson, ofJson, reread, ofInt, Int64.ofInt_toInt]
    | uint n =>
      have natural : ¬ (n.toNat : Int) < 0 := by omega
      simp only [toJson, ofJson, reread, if_neg natural, ofNat, Int.toNat_natCast,
        UInt64.ofNat_toNat]
    -- A number that is not finite would be written as nothing.
    | float x =>
      have finite : x.isFinite = true := finite
      rw [toJson, if_pos finite]
      rfl
    | bytes data =>
      rw [toJson, ofJson, ofJsonAll_bytes]
      rfl
    | bool | char | str => rfl
    | tuple items | list items => cases leaf
  · intro _
    rfl
  · intro item rest readItem readRest finite
    rw [toJsonAll, ofJsonAll, readItem finite.1, readRest finite.2]
    rfl

/-- A value that is reread stands for the same integer. -/
theorem number?_reread (value : Value) : value.reread.number? = value.number? := by
  -- Only integers have a number, and of these only the kind may change.
  cases value with
  | int n =>
    rw [reread]
    by_cases negative : n.toInt < 0
    · rw [if_pos negative]
    · -- A natural number below the half of the words is an unsigned word as well.
      have below := n.toInt_lt
      have small : n.toInt.toNat < 2 ^ 64 := by omega
      rw [if_neg negative, ofNat, number?, number?, UInt64.toNat_ofNat_of_lt' small]
      exact congrArg some (Int.toNat_of_nonneg (by omega))
  | _ => rfl

end Value

namespace Codec

open Value (AllLeaves IsAscii)

/-- The fault of a character that was reread as a string of two bytes. -/
def notCharacter : FieldFault := .typeMismatch "a single character" "string"

/-- Something is written, and once more as the same bytes exactly if a condition holds; otherwise it
is refused for a fault of one sort. -/
def Echoes {ε : Type} (refused : ε → Prop) (faithful : Prop)
    (first again : Except ε Bytes) : Prop :=
  ∃ bytes, first = .ok bytes ∧
    (faithful ∧ again = .ok bytes ∨ ¬ faithful ∧ ∃ fault, again = .error fault ∧ refused fault)

section Echoes

variable {ε : Type} {refused : ε → Prop} {here there faithful : Prop}
  {first second one other result : Except ε Bytes}

/-- What is written is its own echo, if the condition holds anyway. -/
theorem Echoes.of_eq {bytes : Bytes} (written : result = .ok bytes) (always : faithful) :
    Echoes refused faithful result result :=
  ⟨bytes, written, .inl ⟨always, written⟩⟩

/-- A condition may be said in another way. -/
theorem Echoes.congr (echoes : Echoes refused here first second) (same : here ↔ there) :
    Echoes refused there first second := by
  rw [← same]
  exact echoes

/-- Echoes one behind the other are an echo. -/
theorem Echoes.joined (front : Echoes refused here first one)
    (rest : Echoes refused there second other) :
    Echoes refused (here ∧ there) (joined first second) (joined one other) := by
  obtain ⟨bytes, rfl, front⟩ := front
  obtain ⟨more, rfl, rest⟩ := rest
  refine ⟨bytes ++ more, rfl, ?_⟩
  -- The first part that is refused ends the second attempt.
  rcases front with ⟨hereKept, rfl⟩ | ⟨hereLost, fault, rfl, sort⟩
  · rcases rest with ⟨thereKept, rfl⟩ | ⟨thereLost, fault, rfl, sort⟩
    · exact .inl ⟨⟨hereKept, thereKept⟩, rfl⟩
    · exact .inr ⟨fun both => thereLost both.2, fault, rfl, sort⟩
  · exact .inr ⟨fun both => hereLost both.1, fault, rfl, sort⟩

/-- An echo stays one, however its fault is told. -/
theorem Echoes.mapError {ε' : Type} {told : ε → ε'} {sort : ε' → Prop}
    (echoes : Echoes refused faithful first second)
    (sorted : ∀ fault, refused fault → sort (told fault)) :
    Echoes sort faithful (first.mapError told) (second.mapError told) := by
  obtain ⟨bytes, rfl, ⟨kept, rfl⟩ | ⟨lost, fault, rfl, refusal⟩⟩ := echoes
  · exact ⟨bytes, rfl, .inl ⟨kept, rfl⟩⟩
  · exact ⟨bytes, rfl, .inr ⟨lost, told fault, rfl, sorted fault refusal⟩⟩

end Echoes

/-- What is written of a field or a part of it, and written again after rereading: the same, unless
there is a character beyond ASCII. -/
abbrev Echoed (ascii : Prop) (first again : Except FieldFault Bytes) : Prop :=
  Echoes (fun fault => fault = notCharacter) ascii first again

variable {order : ByteOrder} {field : Field} {others body : List Field} {values : List Value}

/-- A row whose first field claims the front of the arguments is that field and then the others. -/
theorem encodeRow_append {here more : List Value}
    (claimed : field.arity.claim (here ++ more).length = here.length) :
    encodeRow order (field :: others) (here ++ more)
      = joined (encodeField order field here) (encodeRow order others more) := by
  -- The front is what the field claims, so that taking and dropping give both parts back.
  rw [encodeRow_joined (by rw [claimed, List.length_append]; omega), claimed, List.take_left,
    List.drop_left]

/-- The same from one index on. -/
theorem encodeFrom_append {whole : List Field} {given index : Nat} {here more : List Value}
    (claimed : field.arity.claim (here ++ more).length = here.length) :
    encodeFrom order whole given index (field :: others) (here ++ more)
      = joined ((encodeField order field here).mapError (.inField index))
        (encodeFrom order whole given (index + 1) others more) := by
  rw [encodeFrom_joined (by rw [claimed, List.length_append]; omega), claimed, List.take_left,
    List.drop_left]

/-- What was claimed for a field is claimed for it again after rereading. -/
theorem claimed_again {here more : List Value}
    (claimed : field.arity.claim (here ++ more).length = here.length) :
    field.arity.claim (here.map Value.reread ++ more.map Value.reread).length
      = (here.map Value.reread).length := by
  rw [← List.map_append, List.length_map, List.length_map]
  exact claimed

/-- Values are echoed as each of them is. -/
theorem encodeEach_echoes {encode : Value → Except FieldFault Bytes}
    (each : ∀ value ∈ values, Echoed (value.Leaves IsAscii) (encode value) (encode value.reread)) :
    Echoed (AllLeaves IsAscii values) (encodeEach encode values)
      (encodeEach encode (values.map Value.reread)) := by
  -- The others are echoed behind the first.
  induction values with
  | nil => exact Echoes.of_eq rfl trivial
  | cons value others ih =>
    obtain ⟨first, rest⟩ := List.forall_mem_cons.mp each
    rw [List.map_cons, encodeEach_joined, encodeEach_joined]
    exact first.joined (ih rest)

/-- A character is reread as a string of one byte only if it is one of ASCII. -/
theorem characterByte?_singleton (byte : UInt8) :
    characterByte? (.str (String.singleton (byteChar byte)))
      = if byte.toNat < 128 then some byte else none := by
  have bound := byte.toNat_lt
  have valid : byte.toNat.isValidChar := by
    left
    omega
  have point : (byteChar byte).val.toNat = byte.toNat := Text.toNat_ofNat_of_valid valid
  -- The string has the one character.
  have written : Text.utf8 (String.singleton (byteChar byte))
      = String.utf8EncodeChar (byteChar byte) := by
    simp [Text.utf8]
  -- The code point is the number of the byte, so two bytes are enough for it.
  rw [characterByte?, written, String.utf8EncodeChar]
  simp only [point]
  by_cases ascii : byte.toNat < 128
  · have one : byte.toNat ≤ 0x7f := by omega
    rw [if_pos one, if_pos ascii, Text.ofNat_eq_byte byte rfl]
  · have more : ¬ byte.toNat ≤ 0x7f := by omega
    have two : byte.toNat ≤ 0x7ff := by omega
    rw [if_neg more, if_pos two, if_neg ascii]

/-- An integer is written in a slot as it was, also where its kind has changed. -/
theorem encodeInteger_echoes {kind : Primitive} {value : Value} {n : Int} (held : kind.Holds n)
    (number : value.number? = some n) (leaf : value.Leaves IsAscii) :
    Echoed (value.Leaves IsAscii) (encodePrimitive order kind value)
      (encodePrimitive order kind value.reread) := by
  have integer : isInteger kind = true := by
    cases kind <;> first | rfl | exact held.elim
  -- Of an integer, a slot looks at nothing but the number.
  have same : encodePrimitive order kind value.reread = encodePrimitive order kind value := by
    rw [encodePrimitive_integer integer, encodePrimitive_integer integer, value.number?_reread,
      number]
  have takes : kind.Takes value := (takes_integer integer).mpr ⟨n, number, held⟩
  rw [same]
  exact Echoes.of_eq ((encodeInteger_eq_ok integer).mpr ⟨takes, rfl⟩) leaf

/-- What a slot yields is echoed by it, unless it is a character beyond ASCII. -/
theorem encodePrimitive_echoes {kind : Primitive} {value : Value} (yields : kind.Yields value) :
    Echoed (value.Leaves IsAscii) (encodePrimitive order kind value)
      (encodePrimitive order kind value.reread) := by
  -- Truth values and floating-point numbers are reread as they are.
  cases yields with
  | char byte =>
    -- The slot looks for a single byte in the string, and finds it only for ASCII.
    refine ⟨[byte], rfl, ?_⟩
    simp only [Value.reread, encodePrimitive, characterByte?_singleton]
    by_cases ascii : byte.toNat < 128
    · rw [if_pos ascii]
      exact .inl ⟨ascii, rfl⟩
    · rw [if_neg ascii]
      exact .inr ⟨ascii, notCharacter, rfl, rfl⟩
  | bool truth => exact Echoes.of_eq rfl trivial
  | float x => exact Echoes.of_eq rfl trivial
  | double x => exact Echoes.of_eq rfl trivial
  | signed _ held => exact encodeInteger_echoes held rfl trivial
  | unsigned _ held => exact encodeInteger_echoes held rfl trivial

/-- A string is reread as it is. -/
theorem encodeText_echoes {value : Value} (text : IsText value) :
    Echoed (value.Leaves IsAscii) (encodeText value) (encodeText value.reread) := by
  -- Nothing else is a string.
  cases value with
  | str content => exact Echoes.of_eq (encodeText_eq_ok.mpr ⟨text, rfl⟩) trivial
  | _ => exact text.elim

/-- The number of a byte stands for that byte. -/
theorem byteOf_number (byte : UInt8) :
    IsByte (.ofNat byte.toNat) ∧ byteOf (.ofNat byte.toNat) = byte := by
  have bound := byte.toNat_lt
  have small : byte.toNat < 2 ^ 64 := by omega
  -- A word holds more than bytes, so the number is kept.
  show (UInt64.ofNat byte.toNat).toNat ≤ 255 ∧ UInt8.ofNat (UInt64.ofNat byte.toNat).toNat = byte
  rw [UInt64.toNat_ofNat_of_lt' small]
  exact ⟨by omega, UInt8.ofNat_toNat⟩

/-- A run of bytes is reread as a list of numbers, which is written as the same run. -/
theorem encodeRaw_echoes {length : Repeat} {data : Bytes}
    (declared : data.length = length.share data.length) :
    Echoed True (encodeRaw length (.bytes data)) (encodeRaw length (Value.bytes data).reread) := by
  -- Each number is that of its byte, so the list stands for the same bytes.
  have numbers : rawBytes (Value.bytes data).reread = .ok data := by
    apply rawBytes_eq_ok.mpr
    constructor
    · intro item here
      obtain ⟨byte, _, rfl⟩ := List.mem_map.mp here
      exact (byteOf_number byte).1
    · show data = (data.map fun byte => Value.ofNat byte.toNat).map byteOf
      rw [List.map_map]
      exact (List.map_id'' (fun byte => (byteOf_number byte).2) data).symm
  -- A raw slot looks at nothing but the bytes.
  have same : encodeRaw length (Value.bytes data).reread = encodeRaw length (.bytes data) := by
    rw [encodeRaw, numbers]
    rfl
  rw [same]
  exact Echoes.of_eq (encodeRaw_eq_ok.mpr ⟨trivial, declared, rfl⟩) trivial

/-- What a field yields is echoed by it, unless there is a character beyond ASCII in it. -/
def FieldEchoes (order : ByteOrder) (field : Field) : Prop :=
  ∀ {values}, field.Sound → field.Yields values →
    Echoed (AllLeaves IsAscii values) (encodeField order field values)
      (encodeField order field (values.map Value.reread))

/-- The same of a row. -/
def RowEchoes (order : ByteOrder) (fields : List Field) : Prop :=
  ∀ {inGroup values}, RowSound inGroup fields → RowYields fields values →
    Echoed (AllLeaves IsAscii values) (encodeRow order fields values)
      (encodeRow order fields (values.map Value.reread))

/-- Values of fixed width are echoed one by one, and padding yields none. -/
theorem primitive_echoes (order : ByteOrder) (kind : Primitive) (times : Repeat) :
    FieldEchoes order (.primitive kind times) := by
  intro values _ yields
  by_cases padding : kind = .pad
  · -- Padding is written without any value.
    subst padding
    obtain rfl : values = [] := yields
    exact Echoes.of_eq rfl trivial
  · rw [encodeField_primitive padding, encodeField_primitive padding]
    obtain ⟨_, each⟩ := (Field.yields_primitive padding times values).mp yields
    exact encodeEach_echoes fun value here => encodePrimitive_echoes (each value here)

/-- Strings are echoed one by one. -/
theorem text_echoes (order : ByteOrder) (times : Repeat) : FieldEchoes order (.text times) := by
  intro values _ yields
  rw [encodeField, encodeField]
  exact encodeEach_echoes fun value here => encodeText_echoes (yields.2 value here)

/-- A run of bytes is echoed as one value. -/
theorem raw_echoes (order : ByteOrder) (length : Repeat) : FieldEchoes order (.raw length) := by
  intro values _ yields
  obtain ⟨data, rfl, declared⟩ := yields
  -- A run holds no character.
  exact (encodeRaw_echoes declared).congr ⟨fun _ => ⟨trivial, trivial⟩, fun _ => trivial⟩

/-- A tuple is reread as a list of as many elements. -/
theorem tuple_echoes (row : RowEchoes order body) (sound : RowSound true body) {items : List Value}
    (yields : RowYields body items) : Echoed ((Value.tuple items).Leaves IsAscii)
      (encodeTuple body (fun items => encodeRow order body items) (.tuple items))
      (encodeTuple body (fun items => encodeRow order body items) (Value.tuple items).reread) := by
  -- The body accepts as many elements as it has yielded.
  have accepted := arityOf_accepts yields.counted
  rw [Value.reread, Value.rereadAll_eq]
  simp only [encodeTuple, Value.items?, List.length_map, accepted, if_true]
  exact row sound yields

/-- As many entries as are declared are written one by one. -/
theorem encodeEntries_declared {times : Repeat} (repeated : times ≠ .once) {entries : List Value}
    (declared : entries.length = times.share entries.length)
    (encode : Value → Except FieldFault Bytes) :
    encodeEntries times encode (.list entries) = encodeEach encode entries := by
  unfold encodeEntries
  -- A count is tested, a wildcard is not.
  cases times with
  | once => exact absurd rfl repeated
  | count n => exact if_pos declared
  | wildcard => rfl

/-- A group is echoed as its tuple, or entry by entry. -/
theorem group_echoes (row : RowEchoes order body) (times : Repeat) :
    FieldEchoes order (.group body times) := by
  intro values sound yields
  obtain ⟨_, bodySound, _⟩ := sound
  by_cases once : times = .once
  · -- A group that does not repeat is the tuple itself.
    subst once
    obtain ⟨items, rfl, yields⟩ := yields
    rw [List.map_singleton, encodeField, encodeField, if_pos rfl]
    exact (tuple_echoes row bodySound yields).congr (and_iff_left trivial).symm
  · obtain ⟨entries, rfl, declared, each⟩ := (Field.yields_repeated once values).mp yields
    have echoes : Echoed (AllLeaves IsAscii entries)
        (encodeEach (encodeTuple body fun items => encodeRow order body items) entries)
        (encodeEach (encodeTuple body fun items => encodeRow order body items)
          (entries.map Value.reread)) := by
      apply encodeEach_echoes
      intro entry here
      obtain ⟨items, rfl, yields⟩ := each entry here
      exact tuple_echoes row bodySound yields
    -- Rereading changes no number of entries.
    have again : (entries.map Value.reread).length
        = times.share (entries.map Value.reread).length := by
      rw [List.length_map]
      exact declared
    rw [List.map_singleton, encodeField, encodeField, if_neg once, if_neg once, Value.reread,
      Value.rereadAll_eq, encodeEntries_declared once declared, encodeEntries_declared once again]
    exact echoes.congr (and_iff_left trivial).symm

/-- Every row is echoed: leaves by themselves, groups by bodies, and rows field by field. -/
theorem echoes (order : ByteOrder) :
    (∀ field, FieldEchoes order field) ∧ ∀ fields, RowEchoes order fields := by
  refine Field.row_induction (primitive_echoes order) (text_echoes order) (raw_echoes order)
    (fun _ times row => group_echoes row times) ?_ ?_
  · -- A row without fields yields no values.
    intro inGroup values _ yields
    obtain rfl : values = [] := yields
    exact Echoes.of_eq rfl trivial
  · intro field others fieldEchoes othersEcho inGroup values sound yields
    obtain ⟨here, more, rfl, first, rest⟩ := yields
    -- The field claims what it yielded, before and after.
    have claimed := first.claimed sound rest
    obtain ⟨fieldSound, _, othersSound⟩ := sound
    rw [List.map_append, encodeRow_append claimed, encodeRow_append (claimed_again claimed)]
    have both := (fieldEchoes fieldSound first).joined (othersEcho othersSound rest)
    exact both.congr Value.allLeaves_append.symm

/-- Outside of groups, fields are echoed as in a row, and the first character that was reread as a
string is charged to its field. -/
theorem encodeFrom_echoes (order : ByteOrder) {inGroup : Bool} {fields : List Field}
    (sound : RowSound inGroup fields) (yields : RowYields fields values) (whole : List Field)
    (given index : Nat) :
    Echoes (fun fault => ∃ late, fault = FormatFault.inField late notCharacter)
      (AllLeaves IsAscii values) (encodeFrom order whole given index fields values)
      (encodeFrom order whole given index fields (values.map Value.reread)) := by
  -- The induction follows the fields, as the index of each is one more than that before it.
  induction fields generalizing values index inGroup with
  | nil =>
    obtain rfl : values = [] := yields
    exact Echoes.of_eq rfl trivial
  | cons field others ih =>
    obtain ⟨here, more, rfl, first, rest⟩ := yields
    have claimed := first.claimed sound rest
    obtain ⟨fieldSound, _, othersSound⟩ := sound
    rw [List.map_append, encodeFrom_append claimed, encodeFrom_append (claimed_again claimed)]
    -- A refusal in the field is told with the index of the field.
    have charged : Echoes (fun fault => ∃ late, fault = FormatFault.inField late notCharacter)
        (AllLeaves IsAscii here) ((encodeField order field here).mapError (.inField index))
        ((encodeField order field (here.map Value.reread)).mapError (.inField index)) := by
      apply Echoes.mapError ((echoes order).1 field fieldSound first)
      rintro fault rfl
      exact ⟨index, rfl⟩
    exact (charged.joined (ih othersSound rest (index + 1))).congr Value.allLeaves_append.symm

end Codec

namespace Format

/-- What is decoded is echoed by the format that it was decoded in. -/
theorem encode_echoes {format : Format} (sound : format.Sound) {values : List Value}
    (yields : RowYields format.fields values) :
    Codec.Echoes (fun error => ∃ index, error = ⟨format.source, .inField index Codec.notCharacter⟩)
      (Value.AllLeaves Value.IsAscii values) (format.encode values)
      (format.encode (values.map Value.reread)) := by
  have echoes := Codec.encodeFrom_echoes format.order sound.fields yields format.fields
    values.length 0
  unfold encode
  -- The number of arguments is the same, so that both are counted alike.
  rw [List.length_map]
  apply echoes.mapError
  rintro fault ⟨index, rfl⟩
  exact ⟨index, rfl⟩

/-- What is decoded, and holds no number that JSON cannot write, can be written as JSON and read
again as arguments, and is encoded then as it is itself, provided that every character is one of
ASCII. With any other character the arguments are refused. -/
theorem encode_reread {source : String} {format : Format} {payload : Bytes} {values : List Value}
    (parsed : parse source = .ok format) (decoded : format.decode payload = .ok values)
    (finite : ∀ value ∈ values, value.Leaves Value.IsFinite) : ∃ args written,
    List.Forall₂ (fun value arg => Value.ofJson (Value.toJson value) = .ok arg) values args ∧
      format.encode values = .ok written ∧
      ((∀ value ∈ values, value.Leaves Value.IsAscii) → format.encode args = .ok written) ∧
      (¬ (∀ value ∈ values, value.Leaves Value.IsAscii) → ∃ index, format.encode args
        = .error ⟨format.source,
          .inField index (.typeMismatch "a single character" "string")⟩) := by
  have sound := parse_sound parsed
  -- What was decoded is what the format yields, and all of that is echoed.
  obtain ⟨written, encoded, echoed⟩ := encode_echoes sound (decode_yields sound decoded)
  rw [Value.allLeaves_iff] at echoed
  refine ⟨values.map Value.reread, written, ?_, encoded, ?_, ?_⟩
  · -- Each value is read from its own JSON.
    apply List.forall₂_map_right_iff.mpr
    apply List.forall₂_same.mpr
    intro value here
    exact Value.ofJson_toJson.1 value (finite value here)
  · -- The two parts are the two ways in which the values are echoed.
    intro ascii
    rcases echoed with ⟨_, kept⟩ | ⟨foreign, _⟩
    · exact kept
    · exact absurd ascii foreign
  · intro foreign
    rcases echoed with ⟨ascii, _⟩ | ⟨_, _, refused, index, rfl⟩
    · exact absurd ascii foreign
    · exact ⟨index, refused⟩

/-- A negative number, pairs of a character and a string, and a run of bytes are encoded after
rereading as the payload that they were decoded from. -/
theorem encode_reread_pairs : ∃ format values args, parse "b2(cS)3X" = .ok format ∧
    format.decode [255, 65, 104, 0, 66, 105, 0, 7, 8, 9] = .ok values ∧
    List.Forall₂ (fun value arg => Value.ofJson (Value.toJson value) = .ok arg) values args ∧
    format.encode args = .ok [255, 65, 104, 0, 66, 105, 0, 7, 8, 9] := by
  have parsed : parse "b2(cS)3X" = .ok ⟨"b2(cS)3X", .little, [.primitive .int8 .once,
      .group [.primitive .char .once, .text .once] (.count 2), .raw (.count 3)]⟩ := by cbv
  have decoded : decode ⟨"b2(cS)3X", .little, [.primitive .int8 .once,
      .group [.primitive .char .once, .text .once] (.count 2), .raw (.count 3)]⟩
      [255, 65, 104, 0, 66, 105, 0, 7, 8, 9] = .ok [.int (-1),
        .list [.tuple [.char 65, .str "h"], .tuple [.char 66, .str "i"]], .bytes [7, 8, 9]] := by
    cbv
  -- No value is a float and every character is ASCII, so that nothing is lost.
  obtain ⟨args, written, read, encoded, kept, _⟩ := encode_reread parsed decoded
    (by simp [Value.Leaves, Value.AllLeaves, Value.IsFinite])
  -- What the theorem calls the first payload is the one that is decoded here.
  obtain rfl : written = [255, 65, 104, 0, 66, 105, 0, 7, 8, 9] := by
    have whole : encode ⟨"b2(cS)3X", .little, [.primitive .int8 .once,
        .group [.primitive .char .once, .text .once] (.count 2), .raw (.count 3)]⟩ [.int (-1),
          .list [.tuple [.char 65, .str "h"], .tuple [.char 66, .str "i"]], .bytes [7, 8, 9]]
        = .ok [255, 65, 104, 0, 66, 105, 0, 7, 8, 9] := by cbv
    exact Except.ok.inj (encoded.symm.trans whole)
  exact ⟨_, _, args, parsed, decoded, read,
    kept (by simp [Value.Leaves, Value.AllLeaves, Value.IsAscii])⟩

/-- A character beyond ASCII is reread as a string that its own slot refuses. -/
theorem char_not_reread : ∃ format, parse "c" = .ok format ∧
    format.decode [0xe9] = .ok [.char 0xe9] ∧
    Value.ofJson (Value.toJson (.char 0xe9)) = .ok (.str "\u00e9") ∧
    format.encode [.char 0xe9] = .ok [0xe9] ∧
    format.encode [.str "\u00e9"]
      = .error ⟨"c", .inField 0 (.typeMismatch "a single character" "string")⟩ := by
  have parsed : parse "c" = .ok ⟨"c", .little, [.primitive .char .once]⟩ := by cbv
  exact ⟨_, parsed, rfl, rfl, rfl, rfl⟩

end Format

end BoardRpc
