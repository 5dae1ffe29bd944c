import BoardRpc.Proofs.Codec.Layout
import BoardRpc.Proofs.Format.Counting

/-! Conformance: arguments are encoded exactly when they conform to the format, and then as its
slots are laid out, one behind the other. -/

namespace BoardRpc

/-- Whether a value is a sequence of others. -/
def Value.IsSequence : Value → Prop
  | .tuple _ | .list _ => True
  | _ => False

/-- The elements of a sequence; other values have none. -/
def Value.elements : Value → List Value
  | .tuple items | .list items => items
  | _ => []

mutual

/-- A value whose sequences, at every depth, are shorter than the largest size. -/
def Value.Short : Value → Prop
  | .tuple items | .list items => items.length < maxSize ∧ AllShort items
  | _ => True

/-- The same of values in a row. -/
def AllShort : List Value → Prop
  | [] => True
  | value :: others => value.Short ∧ AllShort others

end

/-- How many of the arguments at hand belong to a field. -/
def Field.share : Field → Nat → Nat
  | .primitive .pad _, _ => 0
  | .primitive _ times, available | .text times, available => times.share available
  | .raw _, _ | .group _ _, _ => 1

mutual

/-- The arguments that conform to a field. -/
def Field.Conforms : Field → List Value → Prop
  | .primitive .pad _, args => args = []
  | .primitive kind times, args =>
    args.length = times.share args.length ∧ ∀ arg ∈ args, kind.Takes arg
  | .text times, args => args.length = times.share args.length ∧ ∀ arg ∈ args, IsText arg
  | .raw length, args => ∃ arg, args = [arg] ∧ IsRun arg ∧
      (runOf arg).length = length.share (runOf arg).length
  | .group body .once, args => ∃ arg, args = [arg] ∧ arg.IsSequence ∧ RowConforms body arg.elements
  | .group body times, args => ∃ arg, args = [arg] ∧ arg.IsSequence ∧
      arg.elements.length = times.share arg.elements.length ∧
      ∀ entry ∈ arg.elements, entry.IsSequence ∧ RowConforms body entry.elements

/-- The arguments that conform to fields in a row: each field has its share, and none is left. -/
def RowConforms : List Field → List Value → Prop
  | [], args => args = []
  | field :: others, args => field.Conforms (args.take (field.share args.length)) ∧
      RowConforms others (args.drop (field.share args.length))

end

mutual

/-- The bytes of a field's arguments. -/
def Field.layout (order : ByteOrder) : Field → List Value → Bytes
  | .primitive .pad times, _ => List.replicate (times.share 0) 0
  | .primitive kind _, args => args.flatMap (kind.slot order)
  | .text _, args => args.flatMap textSlot
  | .raw _, args => args.flatMap runOf
  | .group body .once, args => args.flatMap fun arg => rowLayout order body arg.elements
  | .group body _, args => args.flatMap fun arg =>
      arg.elements.flatMap fun entry => rowLayout order body entry.elements

/-- The bytes of fields in a row, one behind the other. -/
def rowLayout (order : ByteOrder) : List Field → List Value → Bytes
  | [], _ => []
  | field :: others, args => field.layout order (args.take (field.share args.length)) ++
      rowLayout order others (args.drop (field.share args.length))

end

/-- The arguments that conform to a format. -/
def Format.Conforms (format : Format) (args : List Value) : Prop := RowConforms format.fields args

/-- The payload that arguments are laid out as. -/
def Format.layout (format : Format) (args : List Value) : Bytes :=
  rowLayout format.order format.fields args

/-- Values in a row are short when each of them is. -/
theorem allShort_iff {args : List Value} : AllShort args ↔ ∀ arg ∈ args, arg.Short := by
  -- The definition goes value by value.
  induction args with
  | nil => simp [AllShort]
  | cons arg others ih => simp [AllShort, ih]

/-- What is inside a short value is short. -/
theorem Value.Short.inside {value : Value} (short : value.Short) :
    value.elements.length < maxSize ∧ AllShort value.elements := by
  -- Only a sequence has something inside.
  cases value with
  | tuple items | list items => exact short
  | _ => simp [Value.elements, AllShort, maxSize]

/-- A field's share is what it claims. -/
theorem Field.claim_eq_share (field : Field) (available : Nat) :
    field.arity.claim available = field.share available := by
  -- Both go by the count, and only a wildcard has none.
  cases field with
  | primitive kind times =>
    by_cases padding : kind = .pad
    · subst padding
      rfl
    · rw [Codec.arity_primitive padding]
      cases times <;> cases kind <;> first | rfl | exact absurd rfl padding
  | text times => cases times <;> rfl
  | raw | group => rfl

/-- Arguments that conform to a field are its share. -/
theorem Field.Conforms.length_eq {field : Field} {args : List Value}
    (conforms : field.Conforms args) : args.length = field.share args.length := by
  -- The number of arguments is the first thing that conforming asks for.
  cases field with
  | primitive kind times =>
    cases kind with
    | pad => exact congrArg List.length conforms
    | _ => exact conforms.1
  | text times => exact conforms.1
  | raw length =>
    obtain ⟨arg, rfl, _⟩ := conforms
    rfl
  | group body times =>
    cases times with
    | once | count | wildcard =>
      obtain ⟨arg, rfl, _⟩ := conforms
      rfl

namespace Codec

variable {order : ByteOrder} {body fields whole : List Field} {value : Value}
  {args : List Value} {bytes : Bytes} {given index : Nat}

/-- Values are written one behind the other exactly if each of them is. -/
theorem encodeEach_eq_ok {encode : Value → Except FieldFault Bytes} {takes : Value → Prop}
    {slot : Value → Bytes} (each : ∀ arg ∈ args, ∀ {bytes}, encode arg = .ok bytes ↔
      takes arg ∧ bytes = slot arg) :
    encodeEach encode args = .ok bytes ↔ (∀ arg ∈ args, takes arg) ∧ bytes = args.flatMap slot := by
  -- The layout of a row is that of its first value and then that of the others.
  induction args generalizing bytes with
  | nil => simp [encodeEach, eq_comm]
  | cons arg others ih =>
    obtain ⟨here, behind⟩ := List.forall_mem_cons.mp each
    rw [List.forall_mem_cons, List.flatMap_cons]
    constructor
    · intro written
      obtain ⟨first, rest, firstWritten, restWritten, rfl⟩ := encodeEach_cons written
      obtain ⟨taken, rfl⟩ := here.mp firstWritten
      obtain ⟨others, rfl⟩ := (ih behind).mp restWritten
      exact ⟨⟨taken, others⟩, rfl⟩
    · rintro ⟨⟨taken, others⟩, rfl⟩
      simp only [encodeEach, here.mpr ⟨taken, rfl⟩, (ih behind).mpr ⟨others, rfl⟩]

/-- A tuple is written exactly from a sequence of an accepted length. -/
theorem encodeTuple_eq_ok {encode : List Value → Except FieldFault Bytes} :
    encodeTuple body encode value = .ok bytes ↔ value.IsSequence ∧
      (arityOf body).accepts value.elements.length = true ∧ encode value.elements = .ok bytes := by
  -- A value that is no sequence is refused before anything is counted.
  unfold encodeTuple
  cases value with
  | tuple items | list items =>
    simp only [Value.items?, Value.IsSequence, Value.elements, true_and]
    exact ite_error_eq_ok
  | _ => simp [Value.items?, Value.IsSequence]

/-- Entries are written exactly from a sequence of the declared length, or of any for a wildcard. -/
theorem encodeEntries_eq_ok {times : Repeat} {encode : Value → Except FieldFault Bytes} :
    encodeEntries times encode value = .ok bytes ↔ value.IsSequence ∧
      value.elements.length = times.share value.elements.length ∧
      encodeEach encode value.elements = .ok bytes := by
  -- A value that is no sequence is refused, and the number of entries is tested only if it is
  -- known.
  unfold encodeEntries
  cases value with
  | tuple items | list items =>
    simp only [Value.items?, Value.IsSequence, Value.elements, true_and]
    cases times with
    | once | count => exact ite_error_eq_ok
    | wildcard => simp [Repeat.count?, Repeat.share]
  | _ => simp [Value.items?, Value.IsSequence]

/-- Without a wildcard, a row is written with no argument left when their number is the row's. -/
theorem encodeFrom_iff_encodeRow (whole : List Field) (given index : Nat)
    (sound : RowSound true fields) :
    encodeFrom order whole given index fields args = .ok bytes ↔
      Counted fields args.length ∧ encodeRow order fields args = .ok bytes := by
  -- By induction on the fields, with what each of them leaves of the arguments.
  induction fields generalizing index args bytes with
  | nil => cases args <;> simp [encodeFrom, encodeRow, Counted]
  | cons field others ih =>
    obtain ⟨_, outside, othersSound⟩ := sound
    -- In a group every field claims a fixed number.
    obtain ⟨n, exactly⟩ : ∃ n, field.arity = .exact n :=
      arity_exact fun wildcard => absurd (outside wildcard).1 (by decide)
    rw [encodeFrom_cons, encodeRow_cons, exactly]
    simp only [Arity.claim, ih _ othersSound, List.length_drop]
    constructor
    · -- Nothing is left behind the row, so its fields have claimed all arguments.
      rintro ⟨enough, first, rest, here, ⟨counted, there⟩, rfl⟩
      refine ⟨⟨n, _, ?_, counted, ?_⟩, enough, first, rest, here, there, rfl⟩
      · simp [exactly, Arity.accepts]
      · omega
    · -- What the field accepts is what it claims, and the others are counted in what is left.
      rintro ⟨⟨claimed, more, accepted, counted, total⟩, enough, first, rest, here, there, rfl⟩
      obtain rfl : claimed = n := by simpa [exactly, Arity.accepts] using accepted
      have left : args.length - claimed = more := by omega
      exact ⟨enough, first, rest, here, ⟨left ▸ counted, there⟩, rfl⟩

/-- Fields in a group count exactly, as long as their number can be kept. -/
theorem checkedArity_exact (sound : RowSound true fields) {arity : Arity}
    (counts : checkedArity fields = some arity) : ∃ n, arity = .exact n := by
  -- Nothing is repeated without end in a group, so that the number is known.
  rw [Field.checkedArity_eq (Field.narrow_of_sound sound)] at counts
  split at counts
  · cases counts
    exact ⟨_, rfl⟩
  · cases counts

/-- Some number of arguments is that of a row. -/
theorem exists_counted (fields : List Field) : ∃ total, Counted fields total := by
  -- Every field accepts some number, and a row accepts their sum.
  induction fields with
  | nil => exact ⟨0, rfl⟩
  | cons field others ih =>
    obtain ⟨more, counted⟩ := ih
    cases known : field.arity with
    | exact n => exact ⟨_, n, more, by simp [known, Arity.accepts], counted, rfl⟩
    | atLeast n => exact ⟨_, n, more, by simp [known, Arity.accepts], counted, rfl⟩

/-- A group accepts exactly the number of arguments of its fields, as long as it can be kept. -/
theorem accepts_iff_counted (sound : RowSound true fields) {count : Nat} (short : count < maxSize) :
    (arityOf fields).accepts count = true ↔ Counted fields count := by
  refine ⟨fun accepted => ?_, arityOf_accepts⟩
  obtain ⟨total, counted⟩ := exists_counted fields
  have all := arityOf_accepts counted
  unfold arityOf at accepted all
  cases counts : checkedArity fields with
  | none =>
    -- A number that cannot be kept is taken for the largest, which is out of reach.
    rw [counts] at accepted
    have : maxSize ≤ count := by simpa [Arity.accepts] using accepted
    omega
  | some arity =>
    obtain ⟨n, rfl⟩ := checkedArity_exact sound counts
    rw [counts] at accepted all
    have same : count = total := by
      simp only [Option.getD_some, Arity.accepts, beq_iff_eq] at accepted all
      omega
    exact same ▸ counted

/-- A field is written from its share of the arguments exactly if they conform, and as they are laid
out. -/
def FieldWrites (order : ByteOrder) (field : Field) : Prop :=
  ∀ {args bytes}, field.Sound → AllShort args → args.length = field.share args.length →
    (encodeField order field args = .ok bytes ↔
      field.Conforms args ∧ bytes = field.layout order args)

/-- The same of a row, which has all of the arguments. -/
def RowWrites (order : ByteOrder) (fields : List Field) : Prop :=
  ∀ {inGroup whole given index args bytes}, RowSound inGroup fields → AllShort args →
    (encodeFrom order whole given index fields args = .ok bytes ↔
      RowConforms fields args ∧ bytes = rowLayout order fields args)

/-- Padding is zero, and needs no arguments. -/
theorem padding_writes (order : ByteOrder) (times : Repeat) :
    FieldWrites order (.primitive .pad times) := by
  -- The share of padding is no argument.
  intro args bytes _ _ share
  obtain rfl : args = [] := List.eq_nil_of_length_eq_zero share
  have zeros : times.count?.getD 0 = times.share 0 := by cases times <;> rfl
  simp [encodeField, Field.Conforms, Field.layout, zeros, eq_comm]

/-- Values of fixed width are laid out one behind the other. -/
theorem primitive_writes (order : ByteOrder) (kind : Primitive) (times : Repeat) :
    FieldWrites order (.primitive kind times) := by
  intro args bytes sound short share
  by_cases slot : kind = .pad
  · subst slot
    exact padding_writes order times sound short share
  · -- Padding is the one kind that is different, and it is excluded.
    have conforms : (Field.primitive kind times).Conforms args ↔
        args.length = times.share args.length ∧ ∀ arg ∈ args, kind.Takes arg := by
      cases kind <;> first | exact Iff.rfl | exact absurd rfl slot
    have layout : (Field.primitive kind times).layout order args
        = args.flatMap (kind.slot order) := by
      cases kind <;> first | rfl | exact absurd rfl slot
    have counted : args.length = times.share args.length := by
      cases kind <;> first | exact share | exact absurd rfl slot
    rw [encodeField_primitive slot, conforms, layout, and_iff_right counted]
    exact encodeEach_eq_ok fun arg _ => encodePrimitive_eq_ok slot

/-- Strings are laid out one behind the other. -/
theorem text_writes (order : ByteOrder) (times : Repeat) : FieldWrites order (.text times) := by
  -- Strings have a share like slots, and each of them is written on its own.
  intro args bytes _ _ share
  have counted : args.length = times.share args.length := share
  rw [Field.Conforms, Field.layout, and_iff_right counted]
  exact encodeEach_eq_ok fun arg _ => encodeText_eq_ok

/-- A run of bytes is laid out as it is. -/
theorem raw_writes (order : ByteOrder) (length : Repeat) : FieldWrites order (.raw length) := by
  -- The share is one argument, which is the run.
  intro args bytes _ _ share
  obtain ⟨arg, rfl⟩ := List.length_eq_one_iff.mp share
  simp [encodeField, Field.Conforms, Field.layout, encodeRaw_eq_ok, and_assoc]

/-- A tuple is written exactly from a sequence that conforms to the body. -/
theorem tuple_writes (row : RowWrites order body) (sound : RowSound true body)
    (short : value.Short) :
    encodeTuple body (fun items => encodeRow order body items) value = .ok bytes ↔
      (value.IsSequence ∧ RowConforms body value.elements) ∧
        bytes = rowLayout order body value.elements := by
  -- The number of elements is tested first, so that none can be left over behind the row.
  obtain ⟨bounded, inside⟩ := short.inside
  rw [encodeTuple_eq_ok, accepts_iff_counted sound bounded,
    ← encodeFrom_iff_encodeRow body 0 0 sound, row sound inside, and_assoc]

/-- A group is written from one sequence, or from one sequence of such sequences. -/
theorem group_writes (row : RowWrites order body) (times : Repeat) :
    FieldWrites order (.group body times) := by
  -- Entries are tuples, and a group that does not repeat is one of them.
  intro args bytes sound short share
  obtain ⟨arg, rfl⟩ := List.length_eq_one_iff.mp share
  obtain ⟨argShort, _⟩ := short
  obtain ⟨_, bodySound, _⟩ := sound
  -- Each entry is short as it is inside the one argument.
  have entries : ∀ entry ∈ arg.elements, ∀ {bytes},
      encodeTuple body (fun items => encodeRow order body items) entry = .ok bytes ↔
        (entry.IsSequence ∧ RowConforms body entry.elements) ∧
          bytes = rowLayout order body entry.elements := fun entry here =>
    tuple_writes row bodySound (allShort_iff.mp argShort.inside.2 entry here)
  cases times with
  | once =>
    simp [encodeField, Field.Conforms, Field.layout, tuple_writes row bodySound argShort]
  | count n =>
    simp [encodeField, Field.Conforms, Field.layout, encodeEntries_eq_ok, encodeEach_eq_ok entries,
      and_assoc]
  | wildcard =>
    simp [encodeField, Field.Conforms, Field.layout, encodeEntries_eq_ok, encodeEach_eq_ok entries,
      and_assoc]

/-- What conforms behind the front of the arguments leaves the front its share. -/
theorem share_le {field : Field}
    (conforms : field.Conforms (args.take (field.share args.length))) :
    field.share args.length ≤ args.length := by
  -- With fewer arguments than its share the field would have too few.
  by_contra beyond
  have counted := conforms.length_eq
  rw [List.take_of_length_le (by omega)] at counted
  omega

/-- Every row is written as it is laid out: leaves by themselves, groups by bodies, and rows field
by field. -/
theorem row_writes (order : ByteOrder) : ∀ fields, RowWrites order fields := by
  -- Shares are cut off the same way on both sides, and wildcards leave nothing to the others.
  refine (Field.row_induction (primitive_writes order) (text_writes order) (raw_writes order)
    (fun _ times row => group_writes row times) ?_ ?_).2
  · -- Behind the last field no argument may be left.
    intro inGroup whole given index args bytes _ _
    cases args <;> simp [encodeFrom, RowConforms, rowLayout, eq_comm]
  · intro field others fieldWrites othersWrite inGroup whole given index args bytes sound short
    obtain ⟨fieldSound, _, othersSound⟩ := sound
    -- Short arguments stay short in both parts, as none of them is changed.
    have front : AllShort (args.take (field.share args.length)) :=
      allShort_iff.mpr fun arg here => allShort_iff.mp short arg (List.mem_of_mem_take here)
    have behind : AllShort (args.drop (field.share args.length)) :=
      allShort_iff.mpr fun arg here => allShort_iff.mp short arg (List.mem_of_mem_drop here)
    rw [encodeFrom_cons, field.claim_eq_share]
    constructor
    · -- What is written was taken from enough arguments, so the front is the share.
      rintro ⟨enough, first, rest, here, there, rfl⟩
      have share := claim_share field.arity (field.claim_eq_share _ ▸ enough)
      rw [field.claim_eq_share, field.claim_eq_share] at share
      obtain ⟨conforms, rfl⟩ := (fieldWrites fieldSound front share.symm).mp here
      obtain ⟨othersConform, rfl⟩ := (othersWrite othersSound behind).mp there
      exact ⟨⟨conforms, othersConform⟩, rfl⟩
    · -- Conversely the share is there, as otherwise the field would have too few.
      rintro ⟨⟨conforms, othersConform⟩, rfl⟩
      exact ⟨share_le conforms, _, _,
        (fieldWrites fieldSound front conforms.length_eq).mpr ⟨conforms, rfl⟩,
        (othersWrite othersSound behind).mpr ⟨othersConform, rfl⟩, rfl⟩

end Codec

namespace Format

/-- Arguments are encoded exactly when they conform to the format, and then as they are laid out. -/
theorem encode_iff_conforms {source : String} {format : Format} {args : List Value}
    {payload : Bytes} (parsed : parse source = .ok format) (short : AllShort args) :
    format.encode args = .ok payload ↔ format.Conforms args ∧ payload = format.layout args := by
  -- The errors are named after the format, and a success is not touched by that.
  rw [encode, mapError_eq_ok]
  exact Codec.row_writes format.order format.fields (parse_sound parsed).fields short

end Format

end BoardRpc
