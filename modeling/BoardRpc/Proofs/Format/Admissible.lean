import BoardRpc.Proofs.Format.Grammar

/-! Formats that are admissible: what is asked of fields beside being written. -/

namespace BoardRpc

mutual

/-- All fields inside a field, at every depth. -/
def Field.inside : Field → List Field
  | .primitive _ _ | .text _ | .raw _ => []
  | .group body _ => rowParts body

/-- All fields of a row, at every depth. -/
def rowParts : List Field → List Field
  | [] => []
  | field :: others => field :: (field.inside ++ rowParts others)

end

/-- What is asked of fields beside being written: only the last may take all that remains, where it
is no padding and stands in no group; counts and sizes can be kept; and no group repeats a body that
may be empty. -/
structure Format.Admissible (fields : List Field) : Prop where
  wildcardLast : ∀ field ∈ fields.dropLast, field.times ≠ .wildcard
  wildcardOutside : ∀ field ∈ fields, ∀ part ∈ field.inside, part.times ≠ .wildcard
  wildcardPadding : ∀ part ∈ rowParts fields, part.isPadding = true → part.times ≠ .wildcard
  counts : ∀ part ∈ rowParts fields, ∀ n, part.times = .count n → n ≤ maxSize
  sizes : ∀ part ∈ rowParts fields, part.minSize.isSome
  size : (Field.totalMinSize fields).isSome
  arguments : (checkedArity fields).isSome
  growing : ∀ body times, .group body times ∈ rowParts fields → times ≠ .once →
    Field.totalMinSize body ≠ some 0

/-- The field's count and its size can be kept. -/
def Field.Fits (field : Field) : Prop :=
  (∀ n, field.times = .count n → n ≤ maxSize) ∧ field.minSize.isSome

/-- A group has a body, and one that may be empty is not repeated. -/
def Field.Grows (field : Field) : Prop :=
  ∀ body times, field = .group body times →
    body ≠ [] ∧ (times ≠ .once → Field.totalMinSize body ≠ some 0)

/-- The parts of a row are its first field, the parts of that one, and those of the others. -/
theorem forall_rowParts_cons {P : Field → Prop} {field : Field} {others : List Field} :
    (∀ part ∈ rowParts (field :: others), P part) ↔
      P field ∧ (∀ part ∈ field.inside, P part) ∧ ∀ part ∈ rowParts others, P part := by
  simp only [rowParts, List.forall_mem_cons, List.forall_mem_append]

/-- The parts of a row are its fields and what is inside them. -/
theorem forall_rowParts {P : Field → Prop} {fields : List Field} :
    (∀ part ∈ rowParts fields, P part) ↔
      ∀ field ∈ fields, P field ∧ ∀ part ∈ field.inside, P part := by
  -- The head of the row comes with its own parts, before those of the rest.
  induction fields with
  | nil => simp [rowParts]
  | cons field others ih => rw [forall_rowParts_cons, ih, List.forall_mem_cons, and_assoc]

/-- All but the last of a row: the first too, if there are others. -/
theorem forall_dropLast_cons {P : Field → Prop} {field : Field} {others : List Field} :
    (∀ part ∈ (field :: others).dropLast, P part) ↔
      (others ≠ [] → P field) ∧ ∀ part ∈ others.dropLast, P part := by
  -- Without others the first field is the last, and nothing is said of it.
  cases others with
  | nil => simp
  | cons => simp

/-- A field is sound when its parts grow and none inside it takes all that remains. -/
def SoundByParts (field : Field) : Prop :=
  field.Sound ↔ field.Grows ∧ (∀ part ∈ field.inside, part.Grows) ∧
    ∀ part ∈ field.inside, part.times ≠ .wildcard

/-- A row is sound when its parts grow and only the last field takes all that remains, where it is
no padding and in no group. -/
def RowSoundByParts (fields : List Field) : Prop :=
  ∀ inGroup, RowSound inGroup fields ↔ (∀ part ∈ rowParts fields, part.Grows) ∧
    (∀ field ∈ fields, ∀ part ∈ field.inside, part.times ≠ .wildcard) ∧
    (∀ field ∈ fields.dropLast, field.times ≠ .wildcard) ∧
    ∀ field ∈ fields, field.times = .wildcard → inGroup = false ∧ field.isPadding = false

/-- A row in a group is sound when its parts grow and none of them takes all that remains. -/
theorem RowSoundByParts.inGroup {fields : List Field} (row : RowSoundByParts fields) :
    RowSound true fields ↔ (∀ part ∈ rowParts fields, part.Grows) ∧
      ∀ part ∈ rowParts fields, part.times ≠ .wildcard := by
  -- The fields of the row are kept from it as its last field is, by standing in a group.
  rw [row true, forall_rowParts (P := fun part => part.times ≠ .wildcard)]
  constructor
  · rintro ⟨grows, inside, _, free⟩
    exact ⟨grows, fun field here =>
      ⟨fun wildcard => absurd (free field here wildcard).1 (by decide), inside field here⟩⟩
  · rintro ⟨grows, free⟩
    exact ⟨grows, fun field here => (free field here).2,
      fun field here => (free field (List.dropLast_subset _ here)).1,
      fun field here wildcard => absurd wildcard (free field here).1⟩

/-- Soundness goes from part to part. -/
theorem sound_by_parts : (∀ field, SoundByParts field) ∧ ∀ fields, RowSoundByParts fields := by
  refine Field.row_induction ?_ ?_ ?_ ?_ ?_ ?_
  · -- A slot, strings and a run have no parts, and nothing is asked of them.
    intro kind times
    simp [SoundByParts, Field.Sound, Field.Grows, Field.inside]
  · intro times
    simp [SoundByParts, Field.Sound, Field.Grows, Field.inside]
  · intro length
    simp [SoundByParts, Field.Sound, Field.Grows, Field.inside]
  · -- A group is asked for a body that grows, and its row for what a row in a group is asked.
    intro body times row
    simp only [SoundByParts, Field.Sound, Field.inside, row.inGroup, Field.Grows,
      Field.group.injEq]
    constructor
    · rintro ⟨nonempty, ⟨grows, free⟩, growing⟩
      refine ⟨?_, grows, free⟩
      rintro _ _ ⟨rfl, rfl⟩
      exact ⟨nonempty, growing⟩
    · rintro ⟨here, grows, free⟩
      obtain ⟨nonempty, growing⟩ := here body times ⟨rfl, rfl⟩
      exact ⟨nonempty, ⟨grows, free⟩, growing⟩
  · intro inGroup
    simp [RowSound, rowParts]
  · -- For a row the two sides say the same of its first field, and of the others by induction.
    intro field others fieldParts othersParts inGroup
    unfold SoundByParts at fieldParts
    simp only [RowSound, forall_rowParts_cons, forall_dropLast_cons, List.forall_mem_cons]
    rw [fieldParts, othersParts inGroup]
    constructor
    · rintro ⟨⟨here, inside, free⟩, allowed, grows, othersInside, last, othersAllowed⟩
      exact ⟨⟨here, inside, grows⟩, ⟨free, othersInside⟩,
        ⟨fun more wildcard => more (allowed wildcard).2.2, last⟩,
        fun wildcard => ⟨(allowed wildcard).1, (allowed wildcard).2.1⟩, othersAllowed⟩
    · rintro ⟨⟨here, inside, grows⟩, ⟨free, othersInside⟩, ⟨alone, last⟩, allowed, othersAllowed⟩
      -- A field that takes all that remains has none behind it.
      refine ⟨⟨here, inside, free⟩, fun wildcard => ?_, grows, othersInside, last, othersAllowed⟩
      exact ⟨(allowed wildcard).1, (allowed wildcard).2, not_not.mp fun more => alone more wildcard⟩

/-- What is written has no group without a body. -/
theorem bodies_of_written :
    (∀ (field : Field) text, field.Written text → ∀ part ∈ field :: field.inside,
      ∀ times, part ≠ .group [] times) ∧
    ∀ fields text, RowWritten fields text → ∀ part ∈ rowParts fields,
      ∀ times, part ≠ .group [] times := by
  -- The grammar asks for a body at every group, and the induction finds them all.
  refine Field.row_induction ?_ ?_ ?_ ?_ ?_ ?_
  · intro kind times text _
    simp [Field.inside]
  · intro times text _
    simp [Field.inside]
  · intro length text _
    simp [Field.inside]
  · -- A group is written with a body; the groups inside are those of its row.
    rintro body times row text ⟨nonempty, inner, blanks, written, _⟩
    refine List.forall_mem_cons.mpr ⟨?_, row inner written⟩
    rintro _ ⟨⟩
    exact nonempty rfl
  · intro text _
    simp [rowParts]
  · rintro field others fieldBodies othersBodies text
      ⟨blanks, times, here, rest, _, _, written, rowWritten, _⟩
    obtain ⟨bodied, inside⟩ := List.forall_mem_cons.mp (fieldBodies here written)
    exact forall_rowParts_cons.mpr ⟨bodied, inside, othersBodies rest rowWritten⟩

namespace Format

/-- A row that is written is admissible when it is sound and its counts and sizes can be kept. -/
theorem admissible_iff {fields : List Field} {text : List Char} (written : RowWritten fields text) :
    Admissible fields ↔ RowSound false fields ∧ (∀ part ∈ rowParts fields, part.Fits) ∧
      (Field.totalMinSize fields).isSome ∧ (checkedArity fields).isSome := by
  -- That groups have bodies is part of being written, and the rest is the same said twice.
  rw [sound_by_parts.2 fields false]
  constructor
  · rintro ⟨last, outside, padding, counts, sizes, size, arguments, growing⟩
    refine ⟨⟨?_, outside, last, fun field here wildcard => ⟨rfl, ?_⟩⟩,
      fun part here => ⟨counts part here, sizes part here⟩, size, arguments⟩
    · -- A part that is a group without a body could not have been written.
      rintro part here body times rfl
      refine ⟨?_, growing body times here⟩
      rintro rfl
      exact bodies_of_written.2 fields text written _ here times rfl
    · -- Padding is one of the parts, so it is kept from taking all that remains.
      by_contra isPadding
      exact (forall_rowParts.mp padding field here).1 (by simpa using isPadding) wildcard
  · rintro ⟨⟨grows, outside, last, allowed⟩, fits, size, arguments⟩
    refine ⟨last, outside, forall_rowParts.mpr fun field here => ⟨?_, ?_⟩,
      fun part here => (fits part here).1, fun part here => (fits part here).2, size, arguments,
      fun body times here => (grows _ here body times rfl).2⟩
    · -- What takes all that remains is no padding, as the row allows it to.
      intro isPadding wildcard
      cases isPadding.symm.trans (allowed field here wildcard).2
    · exact fun part inside _ => outside field here part inside

end Format

end BoardRpc
