import BoardRpc.Format.Annotation
import BoardRpc.Proofs.Codec.Yields

/-! Annotations against arguments: how many there are, and which are marked. -/

namespace BoardRpc

/-- Whether any number of arguments more may be given. -/
def Arity.isOpen : Arity → Bool
  | .exact _ => false
  | .atLeast _ => true

/-- Places for arguments: one for each that must be given, and one for all that may be given
more. -/
def Arity.places (arity : Arity) : Nat := arity.least + arity.isOpen.toNat

/-- The annotations of a slot that is no padding are as its repeat says. -/
theorem Field.annotations_primitive {kind : Primitive} (slot : kind ≠ .pad) (times : Repeat) :
    (Field.primitive kind times).annotations = annotateRepeat kind.name times := by
  -- Each type of slot has its own name, and padding has none.
  cases kind <;> first | exact absurd rfl slot | rfl

/-- A slot that repeats has an annotation for each of its places. -/
theorem length_annotateRepeat (name : String) (times : Repeat) :
    (annotateRepeat name times).length = (Field.text times).arity.places := by
  -- A count gives as many copies of one name.
  cases times with
  | once | wildcard => rfl
  | count n => exact List.length_replicate

/-- A field has an annotation for each of its places. -/
theorem Field.length_annotations (field : Field) :
    field.annotations.length = field.arity.places := by
  cases field with
  | primitive kind times =>
    by_cases padding : kind = .pad
    · -- Padding has no place and no annotation.
      subst padding
      rfl
    · -- Values of fixed width have the places that strings have.
      have same : (Field.primitive kind times).arity = (Field.text times).arity :=
        Codec.arity_primitive padding
      rw [annotations_primitive padding, same]
      exact length_annotateRepeat kind.name times
  | text times => exact length_annotateRepeat "string" times
  | raw | group => rfl

/-- A row has an annotation for each place of its fields. -/
theorem length_annotateRow (fields : List Field) :
    (annotateRow fields).length = argumentsOf fields + fields.countP (·.arity.isOpen) := by
  -- By induction on the fields, one open field adding one place.
  induction fields with
  | nil => rfl
  | cons field others ih =>
    rw [annotateRow, List.length_append, field.length_annotations, ih, List.countP_cons,
      Arity.places, argumentsOf, argumentsOf, List.map_cons, List.sum_cons]
    cases field.arity.isOpen <;> simp <;> omega

/-- Two arities together have the arguments of both, and are open if one of them is. -/
theorem Arity.checkedAdd_some {a b total : Arity} (added : a.checkedAdd b = some total) :
    total.least = a.least + b.least ∧ total.isOpen = (a.isOpen || b.isOpen) := by
  -- Each sum is checked, and only one that can be kept is a total.
  cases a <;> cases b <;>
    (obtain ⟨sum, kept, rfl⟩ := Option.map_eq_some_iff.mp added
     obtain ⟨rfl, _⟩ := checkedSize_some kept
     exact ⟨rfl, rfl⟩)

/-- A row that is counted has the arguments of its fields, and is open if one of them is. -/
theorem checkedArity_some {fields : List Field} {total : Arity}
    (counted : checkedArity fields = some total) :
    total.least = argumentsOf fields ∧ total.isOpen = fields.any (·.arity.isOpen) := by
  -- The count goes on from any arity before the row.
  have onward : ∀ before : Arity,
      fields.foldlM (fun (sum : Arity) field => sum.checkedAdd field.arity) before = some total →
      total.least = before.least + argumentsOf fields ∧
        total.isOpen = (before.isOpen || fields.any (·.arity.isOpen)) := by
    clear counted
    induction fields with
    | nil =>
      intro before counted
      cases counted
      exact ⟨rfl, (Bool.or_false _).symm⟩
    | cons field others ih =>
      intro before counted
      rw [List.foldlM_cons] at counted
      obtain ⟨sum, added, rest⟩ := Option.bind_eq_some_iff.mp counted
      obtain ⟨least, opened⟩ := Arity.checkedAdd_some added
      obtain ⟨restLeast, restOpened⟩ := ih sum rest
      rw [restLeast, restOpened, least, opened, List.any_cons, Bool.or_assoc, argumentsOf,
        argumentsOf, List.map_cons, List.sum_cons, Nat.add_assoc]
      exact ⟨rfl, rfl⟩
  -- At first there is no argument, and nothing is open.
  have whole := onward (.exact 0) counted
  rwa [Arity.isOpen, Bool.false_or, Arity.least, Nat.zero_add] at whole

/-- A field that is open takes all that remains. -/
theorem Field.times_of_isOpen {field : Field} (opened : field.arity.isOpen = true) :
    field.times = .wildcard := by
  -- Any other field takes a fixed number of arguments.
  by_contra narrow
  obtain ⟨n, counted⟩ := Codec.arity_exact narrow
  rw [counted] at opened
  cases opened

section Rows

variable {inGroup : Bool} {fields : List Field} {field : Field}

/-- In a sound row a field that takes all that remains is the last, and no padding. -/
theorem RowSound.last_of_wildcard (sound : RowSound inGroup fields) (here : field ∈ fields)
    (wildcard : field.times = .wildcard) :
    fields.getLast? = some field ∧ field.isPadding = false := by
  induction fields with
  | nil => cases here
  | cons first others ih =>
    obtain ⟨_, wildcardLast, othersSound⟩ := sound
    -- The first field is the one, so nothing stands behind it.
    rcases List.mem_cons.mp here with rfl | there
    · obtain ⟨_, slot, rfl⟩ := wildcardLast wildcard
      exact ⟨rfl, slot⟩
    · -- It is among the others, whose last is the last of all.
      obtain ⟨last, slot⟩ := ih othersSound there
      refine ⟨?_, slot⟩
      rw [List.getLast?_cons, last]
      rfl

/-- In a sound row at most one field is open. -/
theorem RowSound.countP_isOpen (sound : RowSound inGroup fields) :
    fields.countP (·.arity.isOpen) = (fields.any (·.arity.isOpen)).toNat := by
  induction fields with
  | nil => rfl
  | cons field others ih =>
    obtain ⟨_, wildcardLast, othersSound⟩ := sound
    rw [List.countP_cons, List.any_cons, ih othersSound]
    cases opened : field.arity.isOpen with
    | false => rfl
    | true =>
      -- Behind an open field there is none.
      obtain ⟨_, _, rfl⟩ := wildcardLast (Field.times_of_isOpen opened)
      rfl

/-- A sound row has an annotation for each place of its arity. -/
theorem RowSound.length_annotateRow (sound : RowSound inGroup fields) {total : Arity}
    (counted : checkedArity fields = some total) : (annotateRow fields).length = total.places := by
  -- The annotations are counted over the fields, and so is the arity.
  obtain ⟨least, opened⟩ := checkedArity_some counted
  rw [BoardRpc.length_annotateRow, sound.countP_isOpen, Arity.places, least, opened]

end Rows

/-- Whether the field's annotation tells that it takes any number: what takes all that remains has
that mark, but for a run of bytes. -/
def Field.isMarked (field : Field) : Bool := field.times.isWildcard && !field.conglomerates

/-- An annotation is that of any number of arguments if it ends with a pair of brackets. -/
theorem isVariadic_iff {text : String} : isVariadic text = true ↔ ['[', ']'] <:+ text.toList := by
  have ends : text.toSlice.endsWith "[]" = true ↔ "[]".toList <:+ text.toSlice.copy.toList :=
    String.Slice.endsWith_string_iff
  rwa [String.copy_toSlice] at ends

/-- A text that ends otherwise is none. -/
theorem isVariadic_eq_false {text : String} {front tail : List Char}
    (ends : text.toList = front ++ tail) (short : tail.length ≤ 2) (other : ¬ tail <:+ ['[', ']']) :
    isVariadic text = false := by
  -- Of two ends of one text the shorter is the end of the longer.
  rw [← Bool.not_eq_true, isVariadic_iff, ends]
  exact fun brackets =>
    other (List.suffix_of_suffix_length_le (List.suffix_append front tail) brackets short)

/-- No type is named with brackets. -/
theorem isVariadic_name (kind : Primitive) : isVariadic kind.name = false := by
  -- The names are closed texts.
  cases kind <;> cbv

/-- A name with brackets behind it is marked. -/
theorem isVariadic_brackets (name : String) : isVariadic (name ++ "[]") = true := by
  rw [isVariadic_iff, String.toList_append]
  exact List.suffix_append _ _

/-- The annotations of a slot are marked as it takes all that remains. -/
theorem isVariadic_annotateRepeat {name text : String} (plain : isVariadic name = false)
    {times : Repeat} (here : text ∈ annotateRepeat name times) :
    isVariadic text = times.isWildcard := by
  -- Only the wildcard has brackets behind the name.
  cases times with
  | once =>
    obtain rfl := List.mem_singleton.mp here
    exact plain
  | count n =>
    obtain rfl := List.eq_of_mem_replicate here
    exact plain
  | wildcard =>
    obtain rfl := List.mem_singleton.mp here
    exact isVariadic_brackets name

/-- A number is written with a digit at its end. -/
theorem repr_ends (n : Nat) :
    ∃ front digit, n.repr.toList = front ++ [digit] ∧ digit.isDigit = true := by
  -- There is at least one digit, and all of them are.
  have nonempty : Nat.toDigits 10 n ≠ [] := Nat.toDigits_ne_nil
  refine ⟨_, _, Nat.toList_repr.trans (List.dropLast_concat_getLast nonempty).symm, ?_⟩
  exact Nat.isDigit_of_mem_toDigits (by decide) (by decide) (List.getLast_mem nonempty)

/-- The annotation of a group is marked as the group takes all that remains: a count between the
brackets keeps it from being marked. -/
theorem isVariadic_groupMark (inner : String) (times : Repeat) :
    isVariadic ("(" ++ inner ++ ")" ++ groupMark times) = times.isWildcard := by
  cases times with
  -- A group that stands alone ends with its own bracket.
  | once =>
    have ends : ("(" ++ inner ++ ")" ++ groupMark .once).toList
        = ("(" ++ inner).toList ++ [')'] := by
      simp [groupMark]
    exact isVariadic_eq_false ends (by decide) (by decide)
  | count n =>
    obtain ⟨front, digit, written, decimal⟩ := repr_ends n
    have mark : groupMark (.count n) = "[" ++ n.repr ++ "]" := rfl
    have ends : ("(" ++ inner ++ ")" ++ groupMark (.count n)).toList =
        (("(" ++ inner ++ ")[").toList ++ front) ++ [digit, ']'] := by
      simp only [mark, String.toList_append, written]
      simp
    -- A digit stands in front of the closing bracket, not the opening one.
    refine isVariadic_eq_false ends (Nat.le_refl 2) fun brackets => ?_
    cases brackets.eq_of_length rfl
    exact absurd decimal (by decide)
  -- The mark of a wildcard is the pair of brackets itself.
  | wildcard => exact isVariadic_brackets _

/-- The annotations of a field have the mark that the field has. -/
theorem Field.isVariadic_annotations {field : Field} {text : String}
    (here : text ∈ field.annotations) : isVariadic text = field.isMarked := by
  cases field with
  | primitive kind times =>
    by_cases padding : kind = .pad
    · -- Padding has no annotation.
      subst padding
      cases here
    · rw [annotations_primitive padding] at here
      rw [isVariadic_annotateRepeat (isVariadic_name kind) here]
      exact (Bool.and_true _).symm
  | text times =>
    -- A name without brackets gets them from the wildcard alone.
    rw [isVariadic_annotateRepeat (by cbv) here]
    exact (Bool.and_true _).symm
  -- A run of bytes is one argument and has a name of its own.
  | raw length =>
    obtain rfl := List.mem_singleton.mp here
    have plain : isVariadic "bytes" = false := by cbv
    rw [plain]
    exact (Bool.and_false _).symm
  | group body times =>
    -- The one annotation is the name of the group.
    obtain rfl := List.mem_singleton.mp here
    rw [isVariadic_groupMark]
    exact (Bool.and_true _).symm

/-- A field that takes all that remains is one place, unless it is padding. -/
theorem Field.annotations_wildcard {field : Field} (wildcard : field.times = .wildcard)
    (slot : field.isPadding = false) : field.annotations.length = 1 := by
  -- An array is one place by its brackets, and a run or a group is one in any case.
  cases field with
  | primitive kind times =>
    obtain rfl : times = .wildcard := wildcard
    rw [annotations_primitive (by rintro rfl; cases slot)]
    rfl
  | text times =>
    obtain rfl : times = .wildcard := wildcard
    rfl
  | raw | group => rfl

/-- A field with the mark takes all that remains, and is no run of bytes. -/
theorem Field.isMarked_iff {field : Field} :
    field.isMarked = true ↔ field.times = .wildcard ∧ field.conglomerates = false := by
  rw [isMarked, Bool.and_eq_true, Repeat.isWildcard_iff, Bool.not_eq_true']

section Marks

variable {inGroup : Bool} {fields : List Field}

/-- A sound row in which a field has the mark has an annotation for it. -/
theorem RowSound.annotateRow_pos (sound : RowSound inGroup fields) {field : Field}
    (here : field ∈ fields) (marked : field.isMarked = true) : 0 < (annotateRow fields).length := by
  induction fields with
  | nil => cases here
  | cons first others ih =>
    obtain ⟨_, wildcardLast, othersSound⟩ := sound
    rw [annotateRow, List.length_append]
    rcases List.mem_cons.mp here with rfl | there
    · -- What has the mark takes all that remains, which is one place.
      have wildcard := (Field.isMarked_iff.mp marked).1
      obtain ⟨_, slot, _⟩ := wildcardLast wildcard
      have single := Field.annotations_wildcard wildcard slot
      omega
    · have behind := ih othersSound there
      omega

/-- In a sound row an annotation is marked exactly if it is the last one and some field has the
mark. -/
theorem RowSound.isVariadic_iff (sound : RowSound inGroup fields) {index : Nat} {text : String}
    (entry : (annotateRow fields)[index]? = some text) :
    isVariadic text = true ↔
      index + 1 = (annotateRow fields).length ∧ ∃ field ∈ fields, field.isMarked = true := by
  induction fields generalizing index with
  | nil => cases entry
  | cons field others ih =>
    obtain ⟨_, wildcardLast, othersSound⟩ := sound
    rw [annotateRow] at entry ⊢
    rw [List.length_append]
    by_cases wildcard : field.times = .wildcard
    · -- This field is the last one, and its annotation is the only one.
      obtain ⟨_, slot, rfl⟩ := wildcardLast wildcard
      have single := Field.annotations_wildcard wildcard slot
      rw [annotateRow, List.append_nil] at entry
      obtain ⟨inside, _⟩ := List.getElem?_eq_some_iff.mp entry
      rw [Field.isVariadic_annotations (List.mem_of_getElem? entry), annotateRow, List.length_nil]
      simp only [List.mem_singleton, exists_eq_left, iff_and_self]
      omega
    · -- This field has no mark, so that its own annotations have none.
      have unmarked : field.isMarked = false := by
        rw [← Bool.not_eq_true]
        exact fun marked => wildcard (Field.isMarked_iff.mp marked).1
      simp only [List.mem_cons, exists_eq_or_imp, unmarked, Bool.false_eq_true, false_or]
      -- The index lies within the annotations of this field or behind them.
      rcases Nat.lt_or_ge index field.annotations.length with own | behind
      · rw [List.getElem?_append_left own] at entry
        rw [Field.isVariadic_annotations (List.mem_of_getElem? entry), unmarked]
        refine iff_of_false Bool.false_ne_true ?_
        rintro ⟨last, other, there, marked⟩
        -- Something with the mark stands behind, so this annotation is not the last.
        have more := othersSound.annotateRow_pos there marked
        omega
      · rw [List.getElem?_append_right behind] at entry
        rw [ih othersSound entry]
        refine and_congr_left fun _ => ?_
        omega

end Marks

/-- The fields with the mark are those that are open, and groups of any number of entries. -/
theorem Field.isMarked_iff_isOpen {field : Field} (slot : field.isPadding = false) :
    field.isMarked = true ↔ field.arity.isOpen = true ∨ ∃ body, field = .group body .wildcard := by
  cases field with
  | primitive kind times =>
    -- For slots and strings the mark and the open arity come from the same wildcard.
    rw [Codec.arity_primitive (by rintro rfl; cases slot)]
    cases times <;> simp [isMarked, Field.times, Repeat.isWildcard, conglomerates, Repeat.count?,
      Arity.isOpen]
  | text times =>
    cases times <;> simp [isMarked, Field.times, Repeat.isWildcard, conglomerates, arity,
      Repeat.count?, Arity.isOpen]
  | raw length => simp [isMarked, conglomerates, arity, Arity.isOpen]
  -- A group is one argument, so it has the mark without being open.
  | group body times =>
    cases times <;> simp [isMarked, Field.times, Repeat.isWildcard, conglomerates, arity,
      Arity.isOpen]

namespace Format

variable {format : Format}

/-- Whether any number of entries of a group may stand at the end, which are one argument. -/
def EndsInEntries (format : Format) : Prop :=
  ∃ body, format.fields.getLast? = some (.group body .wildcard)

/-- The arity of a sound format has the arguments of its fields, and is open if one of them is. -/
theorem Sound.checkedArity_eq (sound : format.Sound) :
    checkedArity format.fields = some format.arity := by
  -- The arity was kept when the format was read.
  obtain ⟨total, counted⟩ := Option.isSome_iff_exists.mp sound.arguments
  rw [Format.arity, arityOf, counted, Option.getD_some]

/-- A sound format has an annotation for each place of its arity. -/
theorem Sound.length_annotations (sound : format.Sound) :
    format.annotations.length = format.arity.places :=
  sound.fields.length_annotateRow sound.checkedArity_eq

/-- The arity of a sound format is open exactly if one of its fields is. -/
theorem Sound.isOpen_iff (sound : format.Sound) :
    format.arity.isOpen = true ↔ ∃ field ∈ format.fields, field.arity.isOpen = true := by
  -- The arity is put together from those of the fields.
  rw [(checkedArity_some sound.checkedArity_eq).2, List.any_eq_true]

/-- A sound format that ends in entries takes a fixed number of arguments. -/
theorem Sound.not_isOpen (sound : format.Sound) (entries : format.EndsInEntries) :
    format.arity.isOpen = false := by
  obtain ⟨body, ends⟩ := entries
  rw [← Bool.not_eq_true, sound.isOpen_iff]
  rintro ⟨field, here, opened⟩
  -- An open field would be the last one, which is the group.
  obtain ⟨last, _⟩ := sound.fields.last_of_wildcard here (Field.times_of_isOpen opened)
  cases ends.symm.trans last
  cases opened

/-- A field of a sound format has the mark exactly if the format is open or ends in entries. -/
theorem Sound.marked_iff (sound : format.Sound) :
    (∃ field ∈ format.fields, field.isMarked = true) ↔
      format.arity.isOpen = true ∨ format.EndsInEntries := by
  constructor
  · rintro ⟨field, here, marked⟩
    -- A field with the mark takes all that remains, so it is the last.
    have wildcard := (Field.isMarked_iff.mp marked).1
    obtain ⟨last, slot⟩ := sound.fields.last_of_wildcard here wildcard
    rcases (Field.isMarked_iff_isOpen slot).mp marked with opened | ⟨body, rfl⟩
    · exact .inl (sound.isOpen_iff.mpr ⟨field, here, opened⟩)
    · exact .inr ⟨body, last⟩
  · -- Conversely an open field has the mark, and so have entries.
    rintro (opened | ⟨body, ends⟩)
    · obtain ⟨field, here, opened⟩ := sound.isOpen_iff.mp opened
      have slot := (sound.fields.last_of_wildcard here (Field.times_of_isOpen opened)).2
      exact ⟨field, here, (Field.isMarked_iff_isOpen slot).mpr (.inl opened)⟩
    · exact ⟨_, List.mem_of_getLast? ends, rfl⟩

end Format

end BoardRpc
