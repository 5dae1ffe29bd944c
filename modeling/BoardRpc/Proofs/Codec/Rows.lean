import BoardRpc.Proofs.Codec.Canonical
import BoardRpc.Proofs.Format.Extent

/-! Rows of fields, written and read field by field. -/

namespace BoardRpc

namespace Codec

variable {order : ByteOrder} {field : Field} {others fields whole : List Field}
  {args values : List Value} {data bytes : Bytes} {given index size : Nat}

/-- The bytes of two results one behind the other; the first error is that of both. -/
def joined {ε : Type} (first rest : Except ε Bytes) : Except ε Bytes :=
  first.bind fun front => rest.map (front ++ ·)

/-- Values one behind the other are written as the first and then the others. -/
theorem encodeEach_joined (encode : Value → Except FieldFault Bytes) (value : Value)
    (others : List Value) :
    encodeEach encode (value :: others) = joined (encode value) (encodeEach encode others) := by
  rw [encodeEach]
  -- An error of the first value is that of the whole, and the others are not looked at.
  cases encode value with
  | error fault => rfl
  | ok first => cases encodeEach encode others <;> rfl

/-- A row that has its share is written as its first field and then the others. -/
theorem encodeRow_joined (enough : field.arity.claim args.length ≤ args.length) :
    encodeRow order (field :: others) args =
      joined (encodeField order field (args.take (field.arity.claim args.length)))
        (encodeRow order others (args.drop (field.arity.claim args.length))) := by
  simp only [encodeRow, if_neg (Nat.not_lt.mpr enough)]
  -- The first field may fail, and then nothing else is written.
  cases encodeField order field (args.take (field.arity.claim args.length)) with
  | error fault => rfl
  | ok first =>
    cases encodeRow order others (args.drop (field.arity.claim args.length)) <;> rfl

/-- The same from one index on, which is the one that a fault of the field is charged to. -/
theorem encodeFrom_joined (enough : field.arity.claim args.length ≤ args.length) :
    encodeFrom order whole given index (field :: others) args =
      joined ((encodeField order field (args.take (field.arity.claim args.length))).mapError
          (.inField index))
        (encodeFrom order whole given (index + 1) others
          (args.drop (field.arity.claim args.length))) := by
  simp only [encodeFrom, if_neg (Nat.not_lt.mpr enough)]
  cases encodeField order field (args.take (field.arity.claim args.length)) with
  | error fault => rfl
  | ok first =>
    cases encodeFrom order whole given (index + 1) others
      (args.drop (field.arity.claim args.length)) <;> rfl

/-- A row is written when its first field is written from its share, and the others from the
arguments behind it. -/
theorem encodeRow_cons : encodeRow order (field :: others) args = .ok bytes ↔
    field.arity.claim args.length ≤ args.length ∧ ∃ first rest,
      encodeField order field (args.take (field.arity.claim args.length)) = .ok first ∧
      encodeRow order others (args.drop (field.arity.claim args.length)) = .ok rest ∧
      bytes = first ++ rest := by
  simp only [encodeRow]
  constructor
  · -- Each step that fails is an error of the whole.
    intro encoded
    split at encoded
    · cases encoded
    · rename_i enough
      split at encoded
      · cases encoded
      · rename_i first here
        split at encoded
        · cases encoded
        · rename_i rest there
          cases encoded
          exact ⟨Nat.le_of_not_lt enough, first, rest, here, there, rfl⟩
  · -- With both parts at hand, every test passes.
    rintro ⟨enough, first, rest, here, there, rfl⟩
    simp [Nat.not_lt.mpr enough, here, there]

/-- The same from one index on. -/
theorem encodeFrom_cons : encodeFrom order whole given index (field :: others) args = .ok bytes ↔
    field.arity.claim args.length ≤ args.length ∧ ∃ first rest,
      encodeField order field (args.take (field.arity.claim args.length)) = .ok first ∧
      encodeFrom order whole given (index + 1) others
        (args.drop (field.arity.claim args.length)) = .ok rest ∧
      bytes = first ++ rest := by
  simp only [encodeFrom]
  constructor
  · -- The index only matters to errors, and there were none.
    intro encoded
    split at encoded
    · cases encoded
    · rename_i enough
      split at encoded
      · cases encoded
      · rename_i first here
        split at encoded
        · cases encoded
        · rename_i rest there
          cases encoded
          exact ⟨Nat.le_of_not_lt enough, first, rest, here, there, rfl⟩
  · rintro ⟨enough, first, rest, here, there, rfl⟩
    simp [Nat.not_lt.mpr enough, here, there]

/-- A row is read when its first field is read from its extent, and the others from the bytes
behind it. -/
theorem decodeRow_cons : decodeRow order (field :: others) data = .ok (values, size) ↔
    ∃ first rest here more, field.extent data = .ok first ∧ first ≤ data.length ∧
      decodeField order field (data.take first) = .ok here ∧
      decodeRow order others (data.drop first) = .ok (more, rest) ∧
      values = here ++ more ∧ size = first + rest := by
  simp only [decodeRow]
  constructor
  · -- Each step that fails is an error of the whole.
    intro read
    split at read
    · cases read
    · rename_i first found
      split at read
      · cases read
      · rename_i present
        split at read
        · cases read
        · rename_i here readHere
          split at read
          · cases read
          · rename_i more rest readMore
            cases read
            exact ⟨first, rest, here, more, found, by simpa using present, readHere, readMore,
              rfl, rfl⟩
  · -- With both parts at hand, every test passes.
    rintro ⟨first, rest, here, more, found, enough, readHere, readMore, rfl, rfl⟩
    simp [found, hasAtLeast_iff.mpr enough, readHere, readMore]

/-- The same from one index on. -/
theorem decodeFrom_cons : decodeFrom order index (field :: others) data = .ok values ↔
    ∃ first here more, field.extent data = .ok first ∧ first ≤ data.length ∧
      decodeField order field (data.take first) = .ok here ∧
      decodeFrom order (index + 1) others (data.drop first) = .ok more ∧
      values = here ++ more := by
  simp only [decodeFrom]
  constructor
  · -- The index only matters to errors, and there were none.
    intro read
    split at read
    · cases read
    · rename_i first found
      split at read
      · cases read
      · rename_i present
        split at read
        · cases read
        · rename_i here readHere
          split at read
          · cases read
          · rename_i more readMore
            cases read
            exact ⟨first, here, more, found, by simpa using present, readHere, readMore, rfl⟩
  · rintro ⟨first, here, more, found, enough, readHere, readMore, rfl⟩
    simp [found, hasAtLeast_iff.mpr enough, readHere, readMore]

/-- What is written from one index on is what is written in a row. -/
theorem encodeRow_of_encodeFrom
    (encoded : encodeFrom order whole given index fields args = .ok bytes) :
    encodeRow order fields args = .ok bytes := by
  -- Both walks share out the arguments alike, field by field.
  induction fields generalizing index args bytes with
  | nil =>
    -- Arguments that are left over are an error.
    cases args <;> cases encoded
    rfl
  | cons field others ih =>
    obtain ⟨enough, first, rest, here, there, rfl⟩ := encodeFrom_cons.mp encoded
    exact encodeRow_cons.mpr ⟨enough, first, rest, here, ih there, rfl⟩

/-- A payload is read from one index on when a row is read that takes all of it. -/
theorem decodeFrom_eq_ok : decodeFrom order index fields data = .ok values ↔
    decodeRow order fields data = .ok (values, data.length) := by
  -- Both walks cut off the same extents, and only one of them allows bytes behind the last field.
  induction fields generalizing index data values with
  | nil => cases data <;> simp [decodeFrom, decodeRow]
  | cons field others ih =>
    rw [decodeFrom_cons, decodeRow_cons]
    constructor
    · -- The others are read from all that is left, so nothing remains behind the row.
      rintro ⟨first, here, more, found, enough, readHere, readMore, rfl⟩
      refine ⟨first, _, here, more, found, enough, readHere, ih.mp readMore, rfl, ?_⟩
      rw [List.length_drop]
      omega
    · -- The row took the whole payload, so its tail took the whole of what is left.
      rintro ⟨first, rest, here, more, found, enough, readHere, readMore, rfl, all⟩
      refine ⟨first, here, more, found, enough, readHere, ih.mpr ?_, rfl⟩
      rw [readMore, List.length_drop, all, Nat.add_sub_cancel_left]

/-- A row takes what it is read from. -/
theorem rowExtent_of_decodeRow (read : decodeRow order fields data = .ok (values, size)) :
    rowExtent fields data = .ok size := by
  -- Every field was read from the extent that is found for it.
  induction fields generalizing data values size with
  | nil => cases read; rfl
  | cons field others ih =>
    -- The bytes taken add up in the same way in both.
    obtain ⟨first, rest, here, more, found, _, _, readMore, rfl, rfl⟩ := decodeRow_cons.mp read
    exact rowExtent_cons.mpr ⟨first, rest, found, ih readMore, rfl⟩

end Codec

namespace Format

/-- A payload is decoded when its fields are read in a row that takes all of it. -/
theorem decode_eq_ok {format : Format} {data : Bytes} {values : List Value} :
    format.decode data = .ok values ↔
      Codec.decodeRow format.order format.fields data = .ok (values, data.length) := by
  -- The format's own text is only put into errors.
  rw [decode, mapError_eq_ok, Codec.decodeFrom_eq_ok]

end Format

end BoardRpc
