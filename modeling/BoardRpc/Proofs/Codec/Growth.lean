import BoardRpc.Codec.Buffer
import BoardRpc.Proofs.Codec.Conformance
import BoardRpc.Proofs.Format.Admissible

/-! Growth of the buffer: an encoder writes what its arguments hold, and padding besides, so that
arguments are encoded unless padding leaves no room for them. -/

namespace BoardRpc

mutual

/-- How much a value holds: itself, the bytes of a string or of a run, and its elements. -/
def Value.weight : Value → Nat
  | .str text => 1 + (Text.utf8 text).length
  | .bytes data => 1 + data.length
  | .tuple items | .list items => 1 + weightOf items
  | _ => 1

/-- How much values in a row hold together. -/
def weightOf : List Value → Nat
  | [] => 0
  | value :: others => value.weight + weightOf others

end

mutual

/-- The padding of a field with its arguments. -/
def Field.padding : Field → List Value → Nat
  | .primitive .pad times, _ => times.share 0
  | .primitive _ _, _ | .text _, _ | .raw _, _ => 0
  | .group _ _, [] => 0
  | .group body .once, arg :: _ => rowPadding body arg.elements
  | .group body _, arg :: _ => (arg.elements.map fun entry => rowPadding body entry.elements).sum

/-- The padding of fields in a row, that of a repeated group as often as there are entries. -/
def rowPadding : List Field → List Value → Nat
  | [], _ => 0
  | field :: others, args => field.padding (args.take (field.share args.length)) +
      rowPadding others (args.drop (field.share args.length))

end

/-- The padding that a format lays out between arguments. -/
def Format.padding (format : Format) (args : List Value) : Nat := rowPadding format.fields args

/-- Where no field is padding, at any depth, there is none between any arguments. -/
theorem rowPadding_eq_zero {fields : List Field}
    (plain : ∀ part ∈ rowParts fields, part.isPadding = false) (args : List Value) :
    rowPadding fields args = 0 := by
  -- By induction on the row: a field adds none by itself, and none by what stands inside it.
  revert plain args
  refine (Field.row_induction
    (P := fun field => field.isPadding = false →
      (∀ part ∈ field.inside, part.isPadding = false) → ∀ args, field.padding args = 0)
    (Q := fun fields => (∀ part ∈ rowParts fields, part.isPadding = false) →
      ∀ args, rowPadding fields args = 0) ?_ ?_ ?_ ?_ ?_ ?_).2 fields
  · -- Padding is the one kind that is excluded.
    intro kind times slot _ args
    cases kind <;> first | rfl | cases slot
  · exact fun _ _ _ _ => rfl
  · exact fun _ _ _ _ => rfl
  · -- There is none in the body of a group, and so none in any of its entries.
    intro body times row _ inside args
    have none : ∀ items, rowPadding body items = 0 := row inside
    cases args with
    | nil => cases times <;> rfl
    | cons arg others => cases times <;> simp [Field.padding, none]
  · exact fun _ _ => rfl
  · intro field others first rest plain args
    obtain ⟨here, inside, behind⟩ := forall_rowParts_cons.mp plain
    rw [rowPadding, first here inside, rest behind]

/-- Every value holds at least itself. -/
theorem Value.weight_pos (value : Value) : 0 < value.weight := by
  cases value <;> simp [weight]

/-- The front and the rest of a row hold together what the row holds. -/
theorem weightOf_split (n : Nat) (args : List Value) :
    weightOf (args.take n) + weightOf (args.drop n) = weightOf args := by
  -- The row is taken apart value by value, so it stays quantified over.
  induction n generalizing args with
  | zero => simp [weightOf]
  | succ n ih =>
    cases args with
    | nil => rfl
    | cons arg others =>
      have rest := ih others
      simp only [List.take_succ_cons, List.drop_succ_cons, weightOf]
      omega

/-- A value holds more than its elements. -/
theorem Value.weight_elements (value : Value) : weightOf value.elements ≤ value.weight := by
  cases value <;> simp [weight, elements, weightOf]

/-- What encoding comes to and how far it gets: it writes no more than the padding and eight bytes
for each thing that its arguments hold; it is completed exactly if there is a result, all of whose
bytes are in the buffer then, the padding among them. -/
structure Accounted {ε : Type} (padding weight : Nat) (result : Except ε Bytes)
    (progress : Progress) : Prop where
  bounded : progress.size ≤ padding + 8 * weight
  finished : ∀ {bytes}, result = .ok bytes →
    progress = ⟨bytes.length, true⟩ ∧ padding ≤ bytes.length
  stopped : ∀ {fault}, result = .error fault → progress.completed = false

namespace Accounted

variable {ε : Type} {padding weight : Nat} {result : Except ε Bytes} {progress : Progress}

/-- Nothing is written because of a fault. -/
theorem fault (padding weight : Nat) (fault : ε) :
    Accounted padding weight (.error fault : Except ε Bytes) .fault :=
  ⟨Nat.zero_le _, nofun, fun _ => rfl⟩

/-- Bytes that are written at once are accounted for by what they are written from. -/
theorem ofResult (short : ∀ {bytes}, result = .ok bytes → bytes.length ≤ 8 * weight) :
    Accounted 0 weight result (.ofResult result) := by
  -- All of it is in the buffer, or none.
  cases result with
  | error error => exact fault 0 weight error
  | ok bytes =>
    refine ⟨?_, fun same => ?_, nofun⟩
    · have := short rfl
      show bytes.length ≤ 0 + 8 * weight
      omega
    · cases same
      exact ⟨rfl, Nat.zero_le _⟩

/-- Arguments that hold more account for as much. -/
theorem mono (accounted : Accounted padding weight result progress) {more : Nat}
    (larger : weight ≤ more) : Accounted padding more result progress where
  bounded := by
    have := accounted.bounded
    omega
  finished := accounted.finished
  stopped := accounted.stopped

/-- One part behind another is accounted for by both. -/
theorem joined {padding' weight' : Nat} {rest : Except ε Bytes} {more : Progress}
    (one : Accounted padding weight result progress)
    (other : Accounted padding' weight' rest more) :
    Accounted (padding + padding') (weight + weight') (Codec.joined result rest)
      (progress.followedBy more) := by
  have first := one.bounded
  have second := other.bounded
  cases result with
  | error error =>
    -- A fault in the first part keeps the second from being written.
    have stopped := one.stopped rfl
    have same : progress.followedBy more = progress := by
      rw [Progress.followedBy, stopped]
      rfl
    rw [same]
    exact ⟨by omega, nofun, fun _ => stopped⟩
  | ok front =>
    -- The first part is in the buffer as a whole, and the second is written behind it.
    obtain ⟨rfl, padded⟩ := one.finished rfl
    have size : front.length + more.size ≤ padding + padding' + 8 * (weight + weight') := by
      have first : front.length ≤ padding + 8 * weight := first
      omega
    cases rest with
    | error error => exact ⟨size, nofun, fun _ => other.stopped rfl⟩
    | ok back =>
      -- Both parts are in the buffer, each with its padding.
      obtain ⟨rfl, paddedBack⟩ := other.finished rfl
      refine ⟨size, fun same => ?_, nofun⟩
      cases same
      refine ⟨?_, ?_⟩
      · simp [Progress.followedBy]
      · rw [List.length_append]
        omega

end Accounted

namespace Codec

variable {order : ByteOrder} {body others fields : List Field} {args : List Value} {value : Value}

/-- Values one behind the other are accounted for if each of them is. -/
theorem each_accounted {encode : Value → Except FieldFault Bytes} {progress : Value → Progress}
    {padding : Value → Nat} (values : List Value)
    (each : ∀ value, Accounted (padding value) value.weight (encode value) (progress value)) :
    Accounted (values.map padding).sum (weightOf values) (encodeEach encode values)
      (progressEach progress values) := by
  -- By induction on the values: those behind the first are joined to it.
  induction values with
  | nil => exact ⟨Nat.zero_le _, fun same => by cases same; exact ⟨rfl, Nat.le_refl _⟩, nofun⟩
  | cons value others ih =>
    rw [encodeEach_joined, List.map_cons, List.sum_cons]
    exact (each value).joined ih

/-- The same of values without padding. -/
theorem plain_accounted {encode : Value → Except FieldFault Bytes} (values : List Value)
    (short : ∀ {value bytes}, encode value = .ok bytes → bytes.length ≤ 8 * value.weight) :
    Accounted 0 (weightOf values) (encodeEach encode values)
      (progressEach (fun value => .ofResult (encode value)) values) := by
  have each : Accounted (values.map fun _ => 0).sum (weightOf values) (encodeEach encode values)
      (progressEach (fun value => .ofResult (encode value)) values) :=
    each_accounted values fun value => .ofResult short
  -- The sum of no padding for each value is none.
  have none : (values.map fun _ => 0).sum = 0 := by simp
  rwa [none] at each

/-- A string takes a byte more than it holds, and it holds itself. -/
theorem encodeText_short {bytes : Bytes} (written : encodeText value = .ok bytes) :
    bytes.length ≤ 8 * value.weight := by
  obtain ⟨isText, rfl⟩ := encodeText_eq_ok.mp written
  -- Only a string is written as one, and its zero byte is paid for by the value itself.
  cases value with
  | str text =>
    show (Text.utf8 text ++ [0]).length ≤ 8 * (1 + (Text.utf8 text).length)
    rw [List.length_append, List.length_singleton]
    omega
  | _ => exact isText.elim

/-- A row has no more values than it holds. -/
theorem length_le_weightOf (values : List Value) : values.length ≤ weightOf values := by
  induction values with
  | nil => exact Nat.le_refl 0
  | cons value others ih =>
    have := value.weight_pos
    show others.length + 1 ≤ value.weight + weightOf others
    omega

/-- A run is as long as the bytes or the elements that a value holds. -/
theorem encodeRaw_short {length : Repeat} {bytes : Bytes}
    (written : encodeRaw length value = .ok bytes) : bytes.length ≤ 8 * value.weight := by
  obtain ⟨isRun, _, rfl⟩ := encodeRaw_eq_ok.mp written
  -- A run is given as bytes, or as a sequence with a value for each byte.
  cases value with
  | bytes data =>
    show data.length ≤ 8 * (1 + data.length)
    omega
  | tuple items | list items =>
    have := length_le_weightOf items
    show (items.map byteOf).length ≤ 8 * (1 + weightOf items)
    rw [List.length_map]
    omega
  | _ => exact isRun.elim

/-- A slot of fixed width takes eight bytes at most. -/
theorem encodePrimitive_short {kind : Primitive} (slot : kind ≠ .pad) {bytes : Bytes}
    (written : encodePrimitive order kind value = .ok bytes) : bytes.length ≤ 8 * value.weight := by
  -- What was written is as wide as its kind, and no kind is wider than eight bytes.
  have width := (decodePrimitive_encodePrimitive slot written).1
  have narrow := width_le kind
  have := value.weight_pos
  omega

/-- A tuple is accounted for by its elements. -/
theorem tuple_accounted {padding : List Value → Nat} {encode : List Value → Except FieldFault Bytes}
    {progress : List Value → Progress}
    (row : ∀ items, Accounted (padding items) (weightOf items) (encode items) (progress items))
    (value : Value) : Accounted (padding value.elements) value.weight
      (encodeTuple body encode value) (progressTuple body progress value) := by
  have larger := value.weight_elements
  unfold encodeTuple progressTuple
  cases value with
  | tuple items | list items =>
    -- The number of elements is looked at before any of them is written.
    simp only [Value.items?]
    split
    · exact (row items).mono larger
    · exact .fault ..
  | _ => exact .fault ..

/-- Entries are accounted for one by one. -/
theorem entries_accounted {padding : Value → Nat} {encode : Value → Except FieldFault Bytes}
    {progress : Value → Progress} (times : Repeat)
    (each : ∀ entry, Accounted (padding entry) entry.weight (encode entry) (progress entry))
    (value : Value) : Accounted (value.elements.map padding).sum value.weight
      (encodeEntries times encode value) (progressEntries times progress value) := by
  have larger := value.weight_elements
  unfold encodeEntries progressEntries
  cases value with
  | tuple items | list items =>
    have all := (each_accounted items each).mono larger
    simp only [Value.items?]
    -- The number of entries is looked at before any of them is written.
    cases times.count? with
    | none => exact all
    | some expected =>
      dsimp only
      split
      · exact all
      · exact .fault ..
  | _ => exact .fault ..

/-- Whatever its arguments are, a field is accounted for. -/
def FieldAccounted (order : ByteOrder) (field : Field) : Prop :=
  ∀ args, Accounted (field.padding args) (weightOf args) (encodeField order field args)
    (progressField order field args)

/-- Whatever its arguments are, a row is accounted for. -/
def RowAccounted (order : ByteOrder) (fields : List Field) : Prop :=
  ∀ args, Accounted (rowPadding fields args) (weightOf args) (encodeRow order fields args)
    (progressRow order fields args)

/-- Padding is the one thing that is written without an argument. -/
theorem primitive_accounted (order : ByteOrder) (kind : Primitive) (times : Repeat) :
    FieldAccounted order (.primitive kind times) := by
  intro args
  -- Padding is accounted for by itself, any other slot by its argument.
  by_cases padding : kind = .pad
  · subst padding
    have count : times.count?.getD 0 = times.share 0 := by cases times <;> rfl
    show Accounted (times.share 0) _ (.ok (List.replicate (times.count?.getD 0) 0))
      ⟨times.count?.getD 0, true⟩
    rw [count]
    refine ⟨Nat.le_add_right .., fun same => ?_, nofun⟩
    cases same
    rw [List.length_replicate]
    exact ⟨rfl, Nat.le_refl _⟩
  · -- Every other kind has one equation, though the definitions go through the kinds one by one.
    have plain : (Field.primitive kind times).padding args = 0 := by
      cases kind <;> first | rfl | exact absurd rfl padding
    have each : progressField order (.primitive kind times) args
        = progressEach (fun arg => .ofResult (encodePrimitive order kind arg)) args := by
      cases kind <;> first | rfl | exact absurd rfl padding
    rw [plain, each, encodeField_primitive padding]
    exact plain_accounted args (encodePrimitive_short padding)

/-- Strings are accounted for one by one. -/
theorem text_accounted (order : ByteOrder) (times : Repeat) : FieldAccounted order (.text times) :=
  fun args => plain_accounted args encodeText_short

/-- A run is accounted for by its one argument. -/
theorem raw_accounted (order : ByteOrder) (length : Repeat) :
    FieldAccounted order (.raw length) := by
  intro args
  cases args with
  | nil => exact .fault ..
  | cons arg others =>
    have larger : arg.weight ≤ weightOf (arg :: others) := Nat.le_add_right ..
    exact (Accounted.ofResult encodeRaw_short).mono larger

/-- A group is accounted for by its one argument, as a tuple or entry by entry. -/
theorem group_accounted (row : RowAccounted order body) (times : Repeat) :
    FieldAccounted order (.group body times) := by
  intro args
  cases args with
  | nil => exact .fault ..
  | cons arg others =>
    have larger : arg.weight ≤ weightOf (arg :: others) := Nat.le_add_right ..
    have tuple : ∀ value, Accounted (rowPadding body value.elements) value.weight
        (encodeTuple body (encodeRow order body) value)
        (progressTuple body (progressRow order body) value) := tuple_accounted row
    -- Without a repetition the argument is the tuple, with one it is a list of them.
    by_cases once : times = .once
    · subst once
      exact (tuple arg).mono larger
    · have entries := (entries_accounted times tuple arg).mono larger
      -- With a repetition, padding is counted entry by entry.
      have padding : (Field.group body times).padding (arg :: others)
          = (arg.elements.map fun entry => rowPadding body entry.elements).sum := by
        cases times <;> first | rfl | exact absurd rfl once
      simp only [encodeField, progressField, if_neg once]
      rw [padding]
      exact entries

/-- Every field and every row is accounted for: leaves by themselves, groups by their bodies, and
rows field by field. -/
theorem row_accounted (order : ByteOrder) (fields : List Field) : RowAccounted order fields := by
  refine (Field.row_induction (primitive_accounted order) (text_accounted order)
    (raw_accounted order) (fun _ times row => group_accounted row times) ?_ ?_).2 fields
  · exact fun args => ⟨Nat.zero_le _, fun same => by cases same; exact ⟨rfl, Nat.le_refl _⟩, nofun⟩
  · intro field others first rest args
    by_cases enough : field.arity.claim args.length ≤ args.length
    · -- The arguments are split between the field and those behind it.
      have split := weightOf_split (field.arity.claim args.length) args
      rw [encodeRow_joined enough, ← split]
      simp only [progressRow, if_neg (Nat.not_lt.mpr enough)]
      simp only [rowPadding, ← Field.claim_eq_share]
      exact (first _).joined (rest _)
    · -- Too few arguments are refused before anything of the field is written.
      simp only [encodeRow, progressRow, if_pos (Nat.lt_of_not_le enough)]
      exact .fault ..

end Codec

namespace Format

variable {format : Format} {args : List Value} {payload : Bytes}

/-- The buffer never holds more than the padding and eight bytes for each thing that the arguments
hold. -/
theorem gathered_le (format : Format) (args : List Value) :
    format.gathered args ≤ format.padding args + 8 * weightOf args :=
  (Codec.row_accounted format.order format.fields args).bounded

/-- A payload is what was gathered, and the padding is in it. -/
theorem gathered_of_encode (encoded : format.encode args = .ok payload) :
    format.gathered args = payload.length ∧ format.padding args ≤ payload.length := by
  -- A payload is written by the row alone, whose progress was followed to its end.
  have written := Codec.encodeRow_of_encodeFrom (mapError_eq_ok.mp encoded)
  have accounted := Codec.row_accounted format.order format.fields args
  obtain ⟨progress, padded⟩ := accounted.finished written
  exact ⟨congrArg Progress.size progress, padded⟩

/-- What is encoded into a buffer is encoded as it is without one, and fits the buffer. -/
theorem encodeBuffered?_eq_some {result : Except FormatError Bytes} :
    format.encodeBuffered? args = some result ↔
      format.gathered args ≤ bufferLimit ∧ result = format.encode args := by
  unfold encodeBuffered?
  split
  · -- A buffer that holds all that is gathered changes nothing.
    rename_i fits
    exact ⟨fun same => ⟨fits, (Option.some.inj same).symm⟩, fun same => congrArg some same.2.symm⟩
  · rename_i full
    exact ⟨nofun, fun same => absurd same.1 full⟩

/-- Encoding arguments that hold no more than 2^32 things fails for want of a buffer only by
padding. The buffer holds no more than the padding and eight bytes for each thing. If the padding
leaves room for that, or if there is none at any depth of the format, encoding comes to its result,
and a payload fits the buffer. If the padding alone does not fit, there is no payload. -/
theorem encode_growth (format : Format) (args : List Value) (small : weightOf args ≤ 4294967296) :
    format.gathered args ≤ format.padding args + 8 * weightOf args ∧
    (format.padding args + 34359738368 ≤ bufferLimit ∨
        (∀ part ∈ rowParts format.fields, part.isPadding = false) →
      format.encodeBuffered? args = some (format.encode args) ∧
      ∀ payload, format.encode args = .ok payload → payload.length ≤ bufferLimit) ∧
    (bufferLimit < format.padding args → ∀ payload,
      format.encodeBuffered? args ≠ some (.ok payload)) := by
  have bounded := gathered_le format args
  refine ⟨bounded, fun room => ?_, fun full payload encoded => ?_⟩
  · -- Eight bytes for each thing are no more than is left free.
    have fits : format.gathered args ≤ bufferLimit := by
      rcases room with room | plain
      · omega
      · have none : format.padding args = 0 := rowPadding_eq_zero plain args
        simp only [bufferLimit]
        omega
    -- With room for all that is gathered the buffer is not noticed.
    refine ⟨encodeBuffered?_eq_some.mpr ⟨fits, rfl⟩, fun payload encoded => ?_⟩
    rwa [← (gathered_of_encode encoded).1]
  · -- A payload would have the padding in it.
    obtain ⟨fits, same⟩ := encodeBuffered?_eq_some.mp encoded
    obtain ⟨size, padded⟩ := gathered_of_encode same.symm
    omega

/-- Padding between entries is counted once for each of them, and leaves room for them all. -/
theorem encode_growth_entries : ∃ format, parse "3x*(Hx)" = .ok format ∧
    format.padding [.list [.tuple [.uint 1], .tuple [.uint 2]]] = 5 ∧
    format.encodeBuffered? [.list [.tuple [.uint 1], .tuple [.uint 2]]]
      = some (.ok [0, 0, 0, 1, 0, 0, 2, 0, 0]) := by
  have parsed : parse "3x*(Hx)" = .ok ⟨"3x*(Hx)", .little, [.primitive .pad (.count 3),
      .group [.primitive .uint16 .once, .primitive .pad .once] .wildcard]⟩ := by cbv
  -- The payload is one thing and two for each entry, far below the bound.
  have growth := encode_growth ⟨"3x*(Hx)", .little, [.primitive .pad (.count 3),
      .group [.primitive .uint16 .once, .primitive .pad .once] .wildcard]⟩
    [.list [.tuple [.uint 1], .tuple [.uint 2]]] (by decide)
  refine ⟨_, parsed, rfl, ?_⟩
  rw [(growth.2.1 (.inl (by decide))).1]
  rfl

/-- Padding that is read is not always padding that fits: the buffer is too small for it, though
there is no argument at all. -/
theorem encode_overflows : ∃ format, parse "9223372036854775808x" = .ok format ∧
    weightOf [] ≤ 4294967296 ∧ format.encodeBuffered? [] = none := by
  have parsed : parse "9223372036854775808x" = .ok ⟨"9223372036854775808x", .little,
      [.primitive .pad (.count 9223372036854775808)]⟩ := by cbv
  exact ⟨_, parsed, Nat.zero_le _, if_neg (by decide)⟩

/-- Arguments are encoded into a buffer exactly if they conform to the format and their layout fits
the buffer, and then as their layout. Where they conform and the layout does not fit, encoding comes
to no result. Where they do not conform it comes to an error, unless what was written in front of
the fault did not fit. -/
theorem encodeBuffered_iff_conforms {source : String} {format : Format} {args : List Value}
    (parsed : parse source = .ok format) (short : AllShort args) :
    (∀ payload, format.encodeBuffered? args = some (.ok payload) ↔
      format.Conforms args ∧ payload = format.layout args ∧ payload.length ≤ bufferLimit) ∧
    (format.Conforms args → bufferLimit < (format.layout args).length →
      format.encodeBuffered? args = none) ∧
    (¬ format.Conforms args → format.gathered args ≤ bufferLimit →
      ∃ error, format.encodeBuffered? args = some (.error error)) := by
  -- Without a limit, encoding is told by conformance alone.
  have unlimited : ∀ payload, format.encode args = .ok payload ↔
      format.Conforms args ∧ payload = format.layout args := fun _ =>
    encode_iff_conforms parsed short
  refine ⟨fun payload => ?_, fun conforms long => ?_, fun astray fits => ?_⟩
  · -- A payload is all that is gathered for it.
    rw [encodeBuffered?_eq_some, eq_comm (a := Except.ok payload), ← and_assoc, ← unlimited]
    constructor
    · rintro ⟨fits, encoded⟩
      rw [(gathered_of_encode encoded).1] at fits
      exact ⟨encoded, fits⟩
    · rintro ⟨encoded, fits⟩
      rw [← (gathered_of_encode encoded).1] at fits
      exact ⟨fits, encoded⟩
  · -- The layout is what encoding would gather.
    have encoded := (unlimited _).mpr ⟨conforms, rfl⟩
    rw [← (gathered_of_encode encoded).1] at long
    exact if_neg (Nat.not_le_of_lt long)
  · -- With room for all that is written, the result is the one without a limit: no payload.
    cases outcome : format.encode args with
    | ok payload => exact absurd ((unlimited payload).mp outcome).1 astray
    | error error => exact ⟨error, encodeBuffered?_eq_some.mpr ⟨fits, outcome.symm⟩⟩

/-- A number and pairs behind it are encoded, the pairs given as a tuple and as a list; a number
that is too large for its slot is refused. -/
theorem encodeBuffered_iff_conforms_pairs : ∃ format, parse ">h2(?c)" = .ok format ∧
    format.encodeBuffered? [.uint 513,
        .list [.tuple [.int 7, .char 65], .list [.bool false, .str "B"]]]
      = some (.ok [2, 1, 1, 65, 0, 66]) ∧
    ∃ error, format.encodeBuffered? [.uint 32768,
        .list [.tuple [.int 7, .char 65], .list [.bool false, .str "B"]]]
      = some (.error error) := by
  have parsed : parse ">h2(?c)" = .ok ⟨">h2(?c)", .big, [.primitive .int16 .once,
      .group [.primitive .bool .once, .primitive .char .once] (.count 2)]⟩ := by cbv
  -- Conformance is evaluated slot by slot, once to hold and once to fail.
  refine ⟨_, parsed, ((encodeBuffered_iff_conforms parsed ?_).1 _).mpr ⟨?_, ?_, ?_⟩,
    (encodeBuffered_iff_conforms parsed ?_).2.2 ?_ ?_⟩
  · simp [AllShort, Value.Short, maxSize]
  · simp [Conforms, RowConforms, Field.Conforms, Field.share, Repeat.share, Primitive.Takes,
      Primitive.Holds, Value.IsSequence, Value.elements]
    decide
  · decide +kernel
  · decide
  · simp [AllShort, Value.Short, maxSize]
  · simp [Conforms, RowConforms, Field.Conforms, Field.share, Repeat.share, Primitive.Takes,
      Primitive.Holds]
  · decide +kernel

/-- No argument conforms to a format of padding alone, and yet nothing is encoded where the padding
does not fit the buffer. -/
theorem conforming_not_encoded : ∃ format, parse "9223372036854775808x" = .ok format ∧
    AllShort [] ∧ format.Conforms [] ∧ ¬ ∃ payload,
      format.encodeBuffered? [] = some (.ok payload) := by
  have parsed : parse "9223372036854775808x" = .ok ⟨"9223372036854775808x", .little,
      [.primitive .pad (.count 9223372036854775808)]⟩ := by cbv
  refine ⟨_, parsed, ?_, ?_, ?_⟩
  · simp [AllShort]
  · simp [Conforms, RowConforms, Field.Conforms, Field.share]
  · rintro ⟨payload, encoded⟩
    -- The padding alone is one byte more than the limit.
    have full : ¬ (9223372036854775808 : Nat) ≤ bufferLimit := by decide
    exact full (encodeBuffered?_eq_some.mp encoded).1

end Format

end BoardRpc
