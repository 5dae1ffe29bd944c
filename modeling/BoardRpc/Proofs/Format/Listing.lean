import BoardRpc.Proofs.Format.Annotations

/-! Names in lists: they are counted as they would be written, as long as each list and each name
can be held. -/

namespace BoardRpc

/-- How many bytes texts have together. -/
def bytesOf (texts : List String) : Nat := (texts.map String.utf8ByteSize).sum

/-- The tally of a list of names. -/
def Tally.of (names : List String) : Tally := ⟨names.length, bytesOf names⟩

/-- The name of a group can be held, and so can the list of names that it is made of. -/
def Field.IsWritable : Field → Prop
  | .group body times => (annotateRow body).length ≤ listLimit ∧
      ∀ name ∈ (Field.group body times).annotations, name.utf8ByteSize ≤ bufferLimit
  | _ => True

/-- The names of a row can be listed, and written out at every depth. -/
def RowListable (fields : List Field) : Prop :=
  (annotateRow fields).length ≤ listLimit ∧ ∀ part ∈ rowParts fields, part.IsWritable

/-- Names that are joined have two bytes more between any two of them. -/
theorem utf8ByteSize_intercalate (names : List String) :
    (", ".intercalate names).utf8ByteSize = bytesOf names + 2 * (names.length - 1) := by
  induction names with
  | nil => rfl
  | cons name others ih =>
    -- The last name has none behind it.
    cases others with
    | nil => simp [bytesOf]
    | cons second rest =>
      have separator : (", " : String).utf8ByteSize = 2 := by decide
      rw [String.intercalate_cons_cons, String.utf8ByteSize_append, String.utf8ByteSize_append, ih,
        separator]
      simp only [bytesOf, List.map_cons, List.sum_cons, List.length_cons]
      omega

/-- A slot that repeats is tallied as its annotations are. -/
theorem tallyRepeat_eq (name : String) (times : Repeat) :
    tallyRepeat name times = .of (annotateRepeat name times) := by
  -- An array has the brackets in its name, and a count repeats the name as it is.
  cases times with
  | once => simp [tallyRepeat, annotateRepeat, Tally.of, bytesOf]
  | count n => simp [tallyRepeat, annotateRepeat, Tally.of, bytesOf]
  | wildcard =>
    have brackets : ("[]" : String).utf8ByteSize = 2 := by decide
    simp [tallyRepeat, annotateRepeat, Tally.of, bytesOf, String.utf8ByteSize_append, brackets]

/-- A field has a tally exactly if everything in it can be written, and then that of its
annotations. -/
def Field.Tallied (field : Field) : Prop :=
  ∀ tally, field.tally? = some tally ↔
    (field.IsWritable ∧ ∀ part ∈ field.inside, part.IsWritable) ∧ tally = .of field.annotations

/-- A row has a tally exactly if it can be listed, and then that of its annotations. -/
def RowTallied (fields : List Field) : Prop :=
  ∀ tally, tallyRow? fields = some tally ↔
    RowListable fields ∧ tally = .of (annotateRow fields)

/-- A row that cannot be listed has no tally. -/
theorem RowTallied.eq_none {fields : List Field} (tallied : RowTallied fields)
    (large : ¬ RowListable fields) : tallyRow? fields = none :=
  Option.eq_none_iff_forall_ne_some.mpr fun tally same => large ((tallied tally).mp same).1

/-- What has nothing inside can always be written. -/
theorem Field.tallied_leaf {field : Field} (counted : field.tally? = some (.of field.annotations))
    (writable : field.IsWritable) (leaf : field.inside = []) : field.Tallied := by
  intro tally
  rw [counted, Option.some.injEq, eq_comm, leaf]
  exact ⟨fun same => ⟨⟨writable, nofun⟩, same⟩, fun both => both.2⟩

/-- The name of a group is as long as its names make it. -/
theorem utf8ByteSize_group (body : List Field) (times : Repeat) :
    (Tally.of (annotateRow body)).joined times
      = ("(" ++ ", ".intercalate (annotateRow body) ++ ")" ++ groupMark times).utf8ByteSize := by
  -- The brackets and the mark stand around the names, which are counted by now.
  have opening : ("(" : String).utf8ByteSize = 1 := by decide
  have closing : (")" : String).utf8ByteSize = 1 := by decide
  simp only [String.utf8ByteSize_append, utf8ByteSize_intercalate, opening, closing, Tally.joined,
    Tally.of]
  omega

/-- A group has a tally if its body has one and its name can be held. -/
theorem Field.tallied_group {body : List Field} (times : Repeat) (row : RowTallied body) :
    (Field.group body times).Tallied := by
  intro tally
  -- The name is measured before it is made, and only if the body has a tally.
  have opened : (Field.group body times).tally? = (tallyRow? body).bind fun inner =>
      if inner.joined times ≤ bufferLimit then some ⟨1, inner.joined times⟩ else none := rfl
  by_cases listable : RowListable body
  · -- The one name is that of the group.
    have counted : tallyRow? body = some (.of (annotateRow body)) := (row _).mpr ⟨listable, rfl⟩
    have single : (Field.group body times).annotations
        = ["(" ++ ", ".intercalate (annotateRow body) ++ ")" ++ groupMark times] := rfl
    have size := utf8ByteSize_group body times
    have whole : Tally.of (Field.group body times).annotations
        = ⟨1, (Tally.of (annotateRow body)).joined times⟩ := by
      rw [size, single]
      simp [Tally.of, bytesOf]
    rw [opened, counted, Option.bind_some, whole, IsWritable, single, List.forall_mem_singleton,
      ← size, Option.ite_none_right_eq_some, Option.some.injEq, eq_comm (b := tally)]
    exact and_congr_left fun _ =>
      ⟨fun fits => ⟨⟨listable.1, fits⟩, listable.2⟩, fun both => both.1.2⟩
  · -- What is inside the group cannot be listed, so that nothing is made of it.
    rw [opened, row.eq_none listable]
    exact ⟨nofun, fun both => absurd ⟨both.1.1.1, both.1.2⟩ listable⟩

/-- A row has a tally if all of its fields have, and its names are not too many. -/
theorem rowTallied_cons {field : Field} {others : List Field} (here : field.Tallied)
    (rest : RowTallied others) : RowTallied (field :: others) := by
  intro tally
  have opened : tallyRow? (field :: others) = field.tally?.bind fun first =>
      (tallyRow? others).bind fun rest => if first.names + rest.names ≤ listLimit
        then some ⟨first.names + rest.names, first.bytes + rest.bytes⟩ else none := rfl
  -- The tally of the whole is the sum of both parts, in names and in bytes.
  have whole : Tally.of (annotateRow (field :: others))
      = ⟨field.annotations.length + (annotateRow others).length,
        bytesOf field.annotations + bytesOf (annotateRow others)⟩ := by
    simp [Tally.of, bytesOf, annotateRow]
  have length : (annotateRow (field :: others)).length
      = field.annotations.length + (annotateRow others).length := congrArg Tally.names whole
  rw [opened, RowListable, forall_rowParts_cons, whole, length]
  constructor
  · -- What was counted was counted in both parts, whose tallies are those of their names.
    intro counted
    obtain ⟨first, one, counted⟩ := Option.bind_eq_some_iff.mp counted
    obtain ⟨second, two, counted⟩ := Option.bind_eq_some_iff.mp counted
    obtain ⟨fits, same⟩ := Option.ite_none_right_eq_some.mp counted
    obtain ⟨⟨writable, inside⟩, rfl⟩ := (here _).mp one
    obtain ⟨listable, rfl⟩ := (rest _).mp two
    exact ⟨⟨fits, writable, inside, listable.2⟩, (Option.some.inj same).symm⟩
  · rintro ⟨⟨fits, writable, inside, behind⟩, rfl⟩
    -- The others alone are fewer names than all of them.
    have one := (here _).mpr ⟨⟨writable, inside⟩, rfl⟩
    have two := (rest _).mpr ⟨⟨Nat.le_trans (Nat.le_add_left ..) fits, behind⟩, rfl⟩
    rw [one, Option.bind_some, two, Option.bind_some]
    exact if_pos fits

/-- Names are counted as they are. -/
theorem row_tallied (fields : List Field) : RowTallied fields := by
  refine (Field.row_induction (P := Field.Tallied) ?_ ?_ ?_
    (fun _ times row => Field.tallied_group times row) ?_
    (fun _ _ here rest => rowTallied_cons here rest)).2 fields
  · intro kind times
    refine Field.tallied_leaf ?_ trivial rfl
    -- Padding has no annotation, and any other slot those of its type.
    by_cases padding : kind = .pad
    · subst padding
      rfl
    · have counted : (Field.primitive kind times).tally? = some (tallyRepeat kind.name times) := by
        cases kind <;> first | rfl | exact absurd rfl padding
      rw [counted, Field.annotations_primitive padding, tallyRepeat_eq]
  · intro times
    exact Field.tallied_leaf (congrArg some (tallyRepeat_eq "string" times)) trivial rfl
  · -- A run has one name, which is evaluated.
    intro length
    have bytes : (⟨1, 5⟩ : Tally) = .of ["bytes"] := by decide
    exact Field.tallied_leaf (congrArg some bytes) trivial rfl
  · intro tally
    simp [tallyRow?, RowListable, rowParts, annotateRow, Tally.of, bytesOf, eq_comm]

/-- No annotation is empty. -/
theorem Field.one_le_utf8ByteSize (field : Field) {name : String}
    (here : name ∈ field.annotations) : 1 ≤ name.utf8ByteSize := by
  -- A mark or a count does not make a name shorter.
  have slot (type : String) (named : 1 ≤ type.utf8ByteSize) (times : Repeat)
      (here : name ∈ annotateRepeat type times) : 1 ≤ name.utf8ByteSize := by
    cases times with
    | once =>
      obtain rfl := List.mem_singleton.mp here
      exact named
    | count n =>
      obtain rfl := List.eq_of_mem_replicate here
      exact named
    | wildcard =>
      obtain rfl := List.mem_singleton.mp here
      rw [String.utf8ByteSize_append]
      exact Nat.le_add_right_of_le named
  cases field with
  | primitive kind times =>
    by_cases padding : kind = .pad
    · -- Padding has no annotation.
      subst padding
      cases here
    · rw [annotations_primitive padding] at here
      exact slot kind.name (by cases kind <;> decide) times here
  | text times => exact slot "string" (by decide) times here
  | raw length =>
    obtain rfl := List.mem_singleton.mp here
    decide
  | group body times =>
    obtain rfl := List.mem_singleton.mp here
    rw [← utf8ByteSize_group, Tally.joined]
    omega

/-- A row has no more names than they have bytes, as none is empty. -/
theorem length_annotateRow_le (fields : List Field) :
    (annotateRow fields).length ≤ bytesOf (annotateRow fields) := by
  have some_bytes : ∀ name ∈ annotateRow fields, 1 ≤ name.utf8ByteSize := by
    -- Row by row, as each field has names of at least one byte.
    induction fields with
    | nil => exact nofun
    | cons field others ih =>
      rw [annotateRow]
      exact List.forall_mem_append.mpr ⟨fun name => field.one_le_utf8ByteSize, ih⟩
  rw [bytesOf, ← List.length_map (f := String.utf8ByteSize)]
  exact List.length_le_sum_of_one_le _ (List.forall_mem_map.mpr some_bytes)

/-- The bytes of all names that are written for a row, those included of which others are made. -/
def rowNameBytes (fields : List Field) : Nat :=
  ((rowParts fields).map fun part => bytesOf part.annotations).sum

/-- The names of a row are among those that are written for it. -/
theorem bytesOf_annotateRow_le (fields : List Field) :
    bytesOf (annotateRow fields) ≤ rowNameBytes fields := by
  induction fields with
  | nil => exact Nat.le_refl 0
  | cons field others ih =>
    -- The names of the row are those of its own fields, and what is inside them comes on top.
    unfold rowNameBytes at ih ⊢
    simp only [bytesOf, annotateRow, rowParts, List.map_append, List.sum_append, List.map_cons,
      List.sum_cons] at ih ⊢
    omega

/-- Names can be listed and written out if together they have no more bytes than a list can have
names. -/
theorem RowListable.of_bytes {fields : List Field} (few : rowNameBytes fields ≤ listLimit) :
    RowListable fields := by
  -- Both limits are compared with the bytes, of which there are at least as many.
  have names := length_annotateRow_le fields
  have bytes := bytesOf_annotateRow_le fields
  refine ⟨by omega, fun part here => ?_⟩
  have own : bytesOf part.annotations ≤ rowNameBytes fields :=
    List.le_sum_of_mem (List.mem_map_of_mem here)
  cases part with
  | group body times =>
    -- The names in the body are fewer than their bytes, which are part of the group's name.
    have size := utf8ByteSize_group body times
    have inside := length_annotateRow_le body
    have single : bytesOf (Field.group body times).annotations
        = ("(" ++ ", ".intercalate (annotateRow body) ++ ")" ++ groupMark times).utf8ByteSize :=
      Nat.add_zero _
    have limits : listLimit ≤ bufferLimit := by decide
    simp only [Tally.joined, Tally.of] at size
    refine ⟨by omega, List.forall_mem_singleton.mpr ?_⟩
    omega
  | _ => exact trivial

namespace Format

variable {format : Format}

/-- A format has its annotations listed exactly if its row can be listed. -/
theorem annotations?_eq_some {names : List String} : format.annotations? = some names ↔
    RowListable format.fields ∧ names = format.annotations := by
  rw [annotations?, Option.map_eq_some_iff]
  constructor
  · -- There is a tally exactly if the row can be listed, and the names are not changed by it.
    rintro ⟨tally, counted, rfl⟩
    exact ⟨((row_tallied format.fields tally).mp counted).1, rfl⟩
  · rintro ⟨listable, rfl⟩
    exact ⟨_, (row_tallied format.fields _).mpr ⟨listable, rfl⟩, rfl⟩

/-- The bytes of all names that are written for a format, those included of which others are
made. -/
def nameBytes (format : Format) : Nat := rowNameBytes format.fields

/-- Whether the names of a row are listed for a format: it is the format's own, or the body of a
group. -/
def Lists (format : Format) (row : List Field) : Prop :=
  row = format.fields ∨ ∃ times, .group row times ∈ rowParts format.fields

/-- Annotations are listed if all names that are written for them are short enough together. -/
theorem annotations?_of_bytes (few : format.nameBytes ≤ listLimit) :
    format.annotations? = some format.annotations :=
  annotations?_eq_some.mpr ⟨.of_bytes few, rfl⟩

/-- Annotations are not listed if a list of names is too long for that, at whatever depth. -/
theorem annotations?_eq_none {row : List Field} (lists : format.Lists row)
    (many : listLimit < (annotateRow row).length) : format.annotations? = none := by
  refine Option.eq_none_iff_forall_ne_some.mpr fun names listed => ?_
  obtain ⟨⟨length, writable⟩, _⟩ := annotations?_eq_some.mp listed
  -- Every list of names that is needed on the way would be short enough.
  rcases lists with rfl | ⟨times, inside⟩
  · exact Nat.not_le_of_lt many length
  · exact Nat.not_le_of_lt many (writable _ inside).1

end Format

end BoardRpc
