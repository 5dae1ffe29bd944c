import BoardRpc.Proofs.Format.Sound

/-! The grammar of formats: the texts that are written for fields, apart from any reader. No text
is written for two formats. -/

namespace BoardRpc

/-- A text of blanks only. -/
def Blanks (text : List Char) : Prop := ∀ c ∈ text, Text.isBlank c = true

/-- The number that decimal digits stand for, the first of them being the greatest place. -/
def decimal (digits : List Char) : Nat :=
  Nat.ofDigits 10 (digits.reverse.map fun digit => digit.toNat - '0'.toNat)

/-- The texts of a repeat: nothing, a run of digits, or a star. -/
inductive Repeat.Written : Repeat → List Char → Prop
  | once : Written .once []
  | count {digits : List Char} (nonempty : digits ≠ [])
      (all : ∀ digit ∈ digits, digit.isDigit = true) : Written (.count (decimal digits)) digits
  | wildcard : Written .wildcard ['*']

mutual

/-- The texts that stand behind a field's repeat: a letter, or a body in parentheses. -/
def Field.Written : Field → List Char → Prop
  | .primitive kind _, text => ∃ letter, Primitive.ofLetter? letter = some kind ∧ text = [letter]
  | .text _, text => text = ['S']
  | .raw _, text => text = ['X']
  | .group body _, text => body ≠ [] ∧ ∃ inner blanks, RowWritten body inner ∧ Blanks blanks ∧
      text = '(' :: (inner ++ blanks ++ [')'])

/-- The texts of fields in a row. Blanks may stand in front of each field, but not between a repeat
and what it repeats. -/
def RowWritten : List Field → List Char → Prop
  | [], text => text = []
  | field :: others, text => ∃ blanks times here rest, Blanks blanks ∧ field.times.Written times ∧
      field.Written here ∧ RowWritten others rest ∧ text = blanks ++ (times ++ here) ++ rest

end

/-- The texts of a byte order: nothing or its mark. -/
inductive ByteOrder.Written : ByteOrder → List Char → Prop
  | implied : Written .little []
  | marked {order : ByteOrder} {mark : Char} (names : ByteOrder.ofMark? mark = some order) :
      Written order [mark]

/-- The texts of a format: a byte order and a row of fields, with blanks around them. -/
def Format.Written (order : ByteOrder) (fields : List Field) (text : List Char) : Prop :=
  ∃ front mark row behind, Blanks front ∧ order.Written mark ∧ RowWritten fields row ∧
    Blanks behind ∧ text = front ++ mark ++ row ++ behind

/-- Where a row of fields ends: the end of the text, or a closing parenthesis. -/
def RowEnd (text : List Char) : Prop := ∀ c rest, text = c :: rest → c = ')'

/-- No character at all is blanks. -/
theorem Blanks.nil : Blanks [] := by simp [Blanks]

/-- The end of the text ends a row. -/
theorem RowEnd.nil : RowEnd [] := by simp [RowEnd]

/-- A closing parenthesis ends a row. -/
theorem RowEnd.close (rest : List Char) : RowEnd (')' :: rest) := by
  rintro c others ⟨⟩
  rfl

/-- A character that a field may begin with: no blank, nothing that ends a row, and no mark of a
byte order. -/
def Opens (c : Char) : Prop :=
  Text.isBlank c = false ∧ c ≠ ')' ∧ ByteOrder.ofMark? c = none

/-- A character that a repeat may stand in front of. -/
def Repeatable (c : Char) : Prop := Opens c ∧ c.isDigit = false ∧ c ≠ '*'

instance (c : Char) : Decidable (Opens c) := inferInstanceAs (Decidable (_ ∧ _))

instance (c : Char) : Decidable (Repeatable c) := inferInstanceAs (Decidable (_ ∧ _))

/-- A field may begin with a digit. -/
theorem opens_of_isDigit {c : Char} (digit : c.isDigit = true) : Opens c := by
  -- Digits lie between the blanks that are ASCII and those that are not.
  simp only [Char.isDigit, Bool.and_eq_true, decide_eq_true_eq] at digit
  have low : 48 ≤ c.toNat := digit.1
  have high : c.toNat ≤ 57 := digit.2
  refine ⟨?_, ?_, ?_⟩
  · simp [Text.isBlank, Text.inRanges, Text.blankRanges]
    omega
  · rintro rfl
    exact absurd low (by decide)
  · unfold ByteOrder.ofMark?
    split <;> first | rfl | exact absurd low (by decide) | exact absurd high (by decide)

/-- A repeat may stand in front of every type letter. -/
theorem repeatable_of_ofLetter? {c : Char} {kind : Primitive}
    (names : Primitive.ofLetter? c = some kind) : Repeatable c := by
  -- The letters are tested one by one.
  unfold Primitive.ofLetter? at names
  split at names <;> cases names <;> decide

/-- What stands behind a repeat begins with a character that may be repeated. -/
theorem Field.Written.begins {field : Field} {text : List Char} (written : field.Written text) :
    ∃ c rest, text = c :: rest ∧ Repeatable c := by
  -- A leaf is its letter, and a group begins with its parenthesis.
  cases field with
  | primitive kind times =>
    obtain ⟨letter, names, rfl⟩ := written
    exact ⟨letter, [], rfl, repeatable_of_ofLetter? names⟩
  | text times => exact ⟨'S', [], written, by decide⟩
  | raw length => exact ⟨'X', [], written, by decide⟩
  | group body times =>
    obtain ⟨_, inner, blanks, _, _, rfl⟩ := written
    exact ⟨'(', _, rfl, by decide⟩

/-- A repeat and what it stands in front of begin with a character that a field may begin with. -/
theorem Repeat.Written.begins {times : Repeat} {mark : List Char} (written : times.Written mark)
    {c : Char} (repeatable : Repeatable c) (rest : List Char) :
    ∃ first others, mark ++ c :: rest = first :: others ∧ Opens first := by
  -- Without a repeat the character itself comes first.
  cases written with
  | once => exact ⟨c, rest, rfl, repeatable.1⟩
  | count nonempty all =>
    obtain ⟨digit, digits, rfl⟩ := List.exists_cons_of_ne_nil nonempty
    exact ⟨digit, digits ++ c :: rest, rfl, opens_of_isDigit (all digit (by simp))⟩
  | wildcard => exact ⟨'*', c :: rest, rfl, by decide⟩

/-- Blanks are skipped up to a character that is none. -/
theorem skipBlank_append {blanks text : List Char} (blank : Blanks blanks)
    (stops : ∀ c rest, text = c :: rest → Text.isBlank c = false) :
    Text.skipBlank (blanks ++ text) = text := by
  -- What follows the blanks stops the skipping at once.
  rw [Text.skipBlank, List.dropWhile_append_of_pos blank]
  cases text with
  | nil => rfl
  | cons c rest => rw [List.dropWhile_cons_of_neg (by simp [stops c rest rfl])]

/-- Of blanks nothing is left. -/
theorem skipBlank_blanks {blanks : List Char} (blank : Blanks blanks) :
    Text.skipBlank blanks = [] :=
  List.dropWhile_eq_nil_iff.mpr blank

/-- The end of a row is no blank. -/
theorem RowEnd.stops {text : List Char} (ends : RowEnd text) (c : Char) (rest : List Char)
    (begins : text = c :: rest) : Text.isBlank c = false := by
  -- It is a closing parenthesis, if it is a character at all.
  rw [ends c rest begins]
  decide

/-- The text of the repeat at the front of a field. -/
def repeatMark : List Char → List Char
  | '*' :: _ => ['*']
  | text => text.takeWhile Char.isDigit

/-- A repeat ends in front of the first character that may be repeated. -/
theorem Repeat.Written.repeatMark_eq {times : Repeat} {mark : List Char}
    (written : times.Written mark) {c : Char} (repeatable : Repeatable c) (rest : List Char) :
    repeatMark (mark ++ c :: rest) = mark := by
  obtain ⟨_, noDigit, noStar⟩ := repeatable
  -- Digits are told from what follows them, and no star comes first without being the repeat.
  cases written with
  | once =>
    rw [List.nil_append, repeatMark, List.takeWhile_cons_of_neg (by simp [noDigit])]
    rintro _ ⟨⟩
    exact noStar rfl
  | count nonempty all =>
    rw [repeatMark, List.takeWhile_append_of_pos all,
      List.takeWhile_cons_of_neg (by simp [noDigit]), List.append_nil]
    intro behind begins
    obtain ⟨digit, digits, rfl⟩ := List.exists_cons_of_ne_nil nonempty
    obtain ⟨rfl, _⟩ := List.cons.inj begins
    cases all '*' (by simp)
  | wildcard => rfl

/-- No text is written for two repeats. -/
theorem Repeat.Written.inj {times others : Repeat} {mark : List Char}
    (written : times.Written mark) (otherWritten : others.Written mark) : times = others := by
  -- Nothing, digits and a star exclude one another.
  cases written with
  | once =>
    cases otherWritten with
    | once => rfl
    | count nonempty => exact absurd rfl nonempty
  | count nonempty all =>
    cases otherWritten with
    | once => exact absurd rfl nonempty
    | count => rfl
    | wildcard => cases all '*' (by simp)
  | wildcard =>
    cases otherWritten with
    | count nonempty all => cases all '*' (by simp)
    | wildcard => rfl

/-- A text that begins with what is written behind a repeat tells the field and where it ends. -/
def FieldUnique (field : Field) : Prop :=
  ∀ {other text otherText rest behind}, field.Written text → other.Written otherText →
    field.times = other.times → text ++ rest = otherText ++ behind → field = other ∧ rest = behind

/-- A text that begins with a row tells the fields, up to the blanks behind them. -/
def RowUnique (fields : List Field) : Prop :=
  ∀ {others text otherText blanks otherBlanks rest behind}, RowWritten fields text →
    RowWritten others otherText → Blanks blanks → Blanks otherBlanks → RowEnd rest →
    RowEnd behind → text ++ blanks ++ rest = otherText ++ otherBlanks ++ behind →
    fields = others ∧ rest = behind

/-- Letters tell primitives from one another and from all other fields. -/
theorem primitive_unique (kind : Primitive) (times : Repeat) :
    FieldUnique (.primitive kind times) := by
  -- Every other field begins with a character that is no letter of a primitive.
  rintro other text otherText rest behind ⟨letter, names, rfl⟩ otherWritten repeats same
  cases other with
  | primitive otherKind otherTimes =>
    obtain ⟨otherLetter, otherNames, rfl⟩ := otherWritten
    obtain ⟨rfl, rfl⟩ := List.cons.inj same
    obtain rfl : times = otherTimes := repeats
    cases names.symm.trans otherNames
    exact ⟨rfl, rfl⟩
  | text | raw =>
    obtain rfl := otherWritten
    obtain ⟨rfl, _⟩ := List.cons.inj same
    cases names
  | group =>
    obtain ⟨_, inner, blanks, _, _, rfl⟩ := otherWritten
    obtain ⟨rfl, _⟩ := List.cons.inj same
    cases names

/-- Strings have a letter of their own. -/
theorem text_unique (times : Repeat) : FieldUnique (.text times) := by
  rintro other text otherText rest behind rfl otherWritten repeats same
  -- The letter is the first character of both texts, and only another string begins with it.
  cases other with
  | primitive =>
    obtain ⟨letter, names, rfl⟩ := otherWritten
    obtain ⟨rfl, _⟩ := List.cons.inj same
    cases names
  | text otherTimes =>
    obtain rfl := otherWritten
    obtain rfl : times = otherTimes := repeats
    exact ⟨rfl, (List.cons.inj same).2⟩
  | raw =>
    obtain rfl := otherWritten
    cases (List.cons.inj same).1
  | group =>
    obtain ⟨_, inner, blanks, _, _, rfl⟩ := otherWritten
    cases (List.cons.inj same).1

/-- Runs of bytes have a letter of their own. -/
theorem raw_unique (length : Repeat) : FieldUnique (.raw length) := by
  rintro other text otherText rest behind rfl otherWritten repeats same
  -- A run is told from the others in the same way, by its own letter.
  cases other with
  | primitive =>
    obtain ⟨letter, names, rfl⟩ := otherWritten
    obtain ⟨rfl, _⟩ := List.cons.inj same
    cases names
  | text =>
    obtain rfl := otherWritten
    cases (List.cons.inj same).1
  | raw otherLength =>
    obtain rfl := otherWritten
    obtain rfl : length = otherLength := repeats
    exact ⟨rfl, (List.cons.inj same).2⟩
  | group =>
    obtain ⟨_, inner, blanks, _, _, rfl⟩ := otherWritten
    cases (List.cons.inj same).1

/-- A group is told by its parentheses and the row between them. -/
theorem group_unique {body : List Field} (row : RowUnique body) (times : Repeat) :
    FieldUnique (.group body times) := by
  rintro other text otherText rest behind ⟨_, inner, blanks, written, blank, rfl⟩ otherWritten
    repeats same
  cases other with
  | primitive =>
    obtain ⟨letter, names, rfl⟩ := otherWritten
    obtain ⟨rfl, _⟩ := List.cons.inj same
    cases names
  | text | raw =>
    obtain rfl := otherWritten
    cases (List.cons.inj same).1
  | group otherBody otherTimes =>
    obtain ⟨_, otherInner, otherBlanks, rowWritten, otherBlank, rfl⟩ := otherWritten
    obtain rfl : times = otherTimes := repeats
    -- The closing parenthesis ends the row inside, and the text goes on behind it.
    have inside : inner ++ blanks ++ [')'] ++ rest
        = otherInner ++ otherBlanks ++ [')'] ++ behind := (List.cons.inj same).2
    rw [List.append_assoc _ [')'], List.append_assoc _ [')']] at inside
    obtain ⟨rfl, ended⟩ := row written rowWritten blank otherBlank (RowEnd.close rest)
      (RowEnd.close behind) inside
    exact ⟨rfl, (List.cons.inj ended).2⟩

/-- A field with its repeat begins with no blank, so blanks in front of it are skipped up to it. -/
theorem skipBlank_written {field : Field} {blanks times here : List Char} (blank : Blanks blanks)
    (repeats : field.times.Written times) (written : field.Written here) (rest : List Char) :
    Text.skipBlank (blanks ++ (times ++ here) ++ rest) = times ++ here ++ rest := by
  -- The first character behind the blanks is that of the repeat, or of what it repeats.
  obtain ⟨c, others, rfl, repeatable⟩ := written.begins
  obtain ⟨first, behind, begins, opens⟩ := repeats.begins repeatable (others ++ rest)
  rw [List.append_assoc]
  refine skipBlank_append blank fun d tail same => ?_
  rw [List.append_assoc, List.cons_append, begins] at same
  cases same
  exact opens.1

/-- Where a row ends, no field begins. -/
theorem rowEnd_ne_row {field : Field} {others : List Field} {text blanks rest : List Char}
    (blank : Blanks blanks) (ends : RowEnd rest) (written : RowWritten (field :: others) text)
    (tail : List Char) : blanks ++ rest ≠ text ++ tail := by
  obtain ⟨front, times, here, row, frontBlank, repeats, written, _, rfl⟩ := written
  intro same
  -- Behind the blanks, a field begins with a character that ends no row.
  have skipped := congrArg Text.skipBlank same
  rw [skipBlank_append blank ends.stops, List.append_assoc _ row,
    skipBlank_written frontBlank repeats written] at skipped
  obtain ⟨c, core, rfl, repeatable⟩ := written.begins
  obtain ⟨first, behind, begins, opens⟩ := repeats.begins repeatable (core ++ (row ++ tail))
  rw [List.append_assoc, List.cons_append, begins] at skipped
  exact opens.2.1 (ends first behind skipped)

/-- No text is written for two rows, whatever ends them. -/
theorem row_unique : ∀ fields, RowUnique fields := by
  refine (Field.row_induction primitive_unique text_unique raw_unique
    (fun _ times row => group_unique row times) ?_ ?_).2
  · rintro others text otherText blanks otherBlanks rest behind rfl otherWritten blank otherBlank
      ends otherEnds same
    cases others with
    | nil =>
      -- Both rows are empty, and both end behind the blanks.
      obtain rfl := otherWritten
      have skipped := congrArg Text.skipBlank same
      rw [List.nil_append, List.nil_append, skipBlank_append blank ends.stops,
        skipBlank_append otherBlank otherEnds.stops] at skipped
      exact ⟨rfl, skipped⟩
    | cons field others =>
      rw [List.nil_append, List.append_assoc] at same
      exact absurd same (rowEnd_ne_row blank ends otherWritten _)
  · intro field fields fieldUnique othersUnique others text otherText blanks otherBlanks rest behind
      written otherWritten blank otherBlank ends otherEnds same
    cases others with
    | nil =>
      obtain rfl := otherWritten
      rw [List.nil_append, List.append_assoc] at same
      exact absurd same.symm (rowEnd_ne_row otherBlank otherEnds written _)
    | cons other others =>
      obtain ⟨front, times, here, row, frontBlank, repeats, fieldWritten, rowWritten, rfl⟩ :=
        written
      obtain ⟨otherFront, otherTimes, there, otherRow, otherFrontBlank, otherRepeats, thereWritten,
        otherRowWritten, rfl⟩ := otherWritten
      -- Behind the blanks both texts begin with a repeat, which they have in common.
      have regroup : ∀ front here row blanks rest : List Char,
          front ++ here ++ row ++ blanks ++ rest = front ++ here ++ (row ++ blanks ++ rest) := by
        intros
        simp only [List.append_assoc]
      have skipped := congrArg Text.skipBlank same
      rw [regroup, regroup, skipBlank_written frontBlank repeats fieldWritten,
        skipBlank_written otherFrontBlank otherRepeats thereWritten, List.append_assoc times,
        List.append_assoc otherTimes] at skipped
      obtain ⟨c, core, rfl, repeatable⟩ := fieldWritten.begins
      obtain ⟨d, otherCore, rfl, otherRepeatable⟩ := thereWritten.begins
      have marks := congrArg repeatMark skipped
      rw [List.cons_append, List.cons_append, repeats.repeatMark_eq repeatable,
        otherRepeats.repeatMark_eq otherRepeatable] at marks
      subst marks
      -- Then they have the field in common, and the rows behind it.
      obtain ⟨rfl, behindField⟩ := fieldUnique fieldWritten thereWritten
        (repeats.inj otherRepeats) (List.append_cancel_left skipped)
      obtain ⟨rfl, ended⟩ := othersUnique rowWritten otherRowWritten blank otherBlank ends otherEnds
        (by simpa only [List.append_assoc] using behindField)
      exact ⟨rfl, ended⟩

/-- No mark of a byte order is blank. -/
theorem isBlank_of_ofMark? {c : Char} {order : ByteOrder}
    (names : ByteOrder.ofMark? c = some order) : Text.isBlank c = false := by
  -- The marks are tested one by one.
  unfold ByteOrder.ofMark? at names
  split at names <;> cases names <;> decide

/-- Blanks in front of a row may be taken for those of its first field. -/
theorem RowWritten.blanks_append {fields : List Field} {row front behind : List Char}
    (written : RowWritten fields row) (blank : Blanks front) (behindBlank : Blanks behind) :
    ∃ whole tail, RowWritten fields whole ∧ Blanks tail ∧
      front ++ row ++ behind = whole ++ tail := by
  cases fields with
  | nil =>
    -- Without fields there are blanks only.
    obtain rfl := written
    exact ⟨[], front ++ behind, rfl, List.forall_mem_append.mpr ⟨blank, behindBlank⟩, by simp⟩
  | cons field others =>
    obtain ⟨inner, times, here, rest, innerBlank, repeats, fieldWritten, restWritten, rfl⟩ :=
      written
    refine ⟨front ++ inner ++ (times ++ here) ++ rest, behind, ?_, behindBlank, by simp⟩
    exact ⟨front ++ inner, times, here, rest, List.forall_mem_append.mpr ⟨blank, innerBlank⟩,
      repeats, fieldWritten, restWritten, rfl⟩

/-- A row does not begin with a mark of a byte order. -/
theorem ofMark?_row {fields : List Field} {row behind rest : List Char}
    (written : RowWritten fields row) (blank : Blanks behind) {c : Char}
    (begins : Text.skipBlank (row ++ behind) = c :: rest) : ByteOrder.ofMark? c = none := by
  cases fields with
  | nil =>
    -- Nothing is left of blanks.
    obtain rfl := written
    cases (skipBlank_blanks blank).symm.trans begins
  | cons field others =>
    obtain ⟨front, times, here, row, frontBlank, repeats, fieldWritten, _, rfl⟩ := written
    obtain ⟨d, core, rfl, repeatable⟩ := fieldWritten.begins
    obtain ⟨first, tail, starts, opens⟩ := repeats.begins repeatable (core ++ (row ++ behind))
    rw [List.append_assoc _ row, skipBlank_written frontBlank repeats fieldWritten,
      List.append_assoc, List.cons_append, starts] at begins
    cases begins
    exact opens.2.2

/-- A mark of a byte order is what comes first behind the blanks. -/
theorem skipBlank_mark {front : List Char} (blank : Blanks front) {mark : Char} {order : ByteOrder}
    (names : ByteOrder.ofMark? mark = some order) (row behind : List Char) :
    Text.skipBlank (front ++ [mark] ++ row ++ behind) = mark :: (row ++ behind) := by
  -- A mark stops the skipping, as it is no blank.
  rw [List.append_assoc, List.append_assoc]
  refine skipBlank_append blank ?_
  rintro c others ⟨⟩
  exact isBlank_of_ofMark? names

namespace Format

/-- No text is written for two formats. -/
theorem Written.unique {order other : ByteOrder} {fields others : List Field} {text : List Char}
    (written : Written order fields text) (otherWritten : Written other others text) :
    order = other ∧ fields = others := by
  obtain ⟨front, mark, row, behind, blank, marked, rowWritten, behindBlank, rfl⟩ := written
  obtain ⟨otherFront, otherMark, otherRow, otherBehind, otherBlank, otherMarked, otherRowWritten,
    otherBehindBlank, same⟩ := otherWritten
  -- Without their marks the texts are two rows, each with blanks at its end.
  have rows : ∀ {row behind otherRow otherBehind}, RowWritten fields row → Blanks behind →
      RowWritten others otherRow → Blanks otherBehind → row ++ behind = otherRow ++ otherBehind →
      fields = others := by
    intro row behind otherRow otherBehind written blank otherWritten otherBlank same
    exact (row_unique fields written otherWritten blank otherBlank RowEnd.nil RowEnd.nil
      (by simp [same])).1
  -- A mark is the first character that is no blank, and without one no mark comes first.
  cases marked with
  | implied =>
    -- Blanks in front belong to the first field, as there is no mark in between.
    obtain ⟨whole, tail, wholeWritten, tailBlank, absorbed⟩ :=
      rowWritten.blanks_append blank behindBlank
    rw [List.append_nil, absorbed] at same
    cases otherMarked with
    | implied =>
      obtain ⟨otherWhole, otherTail, otherWholeWritten, otherTailBlank, otherAbsorbed⟩ :=
        otherRowWritten.blanks_append otherBlank otherBehindBlank
      rw [List.append_nil, otherAbsorbed] at same
      exact ⟨rfl, rows wholeWritten tailBlank otherWholeWritten otherTailBlank same⟩
    | marked otherNames =>
      have begins := congrArg Text.skipBlank same
      rw [skipBlank_mark otherBlank otherNames] at begins
      -- The other text has a mark where this one has the first character of a row.
      cases otherNames.symm.trans (ofMark?_row wholeWritten tailBlank begins)
  | marked names =>
    have begins := congrArg Text.skipBlank same
    rw [skipBlank_mark blank names] at begins
    cases otherMarked with
    | implied =>
      -- This is the same clash with the two texts exchanged.
      obtain ⟨whole, tail, wholeWritten, tailBlank, absorbed⟩ :=
        otherRowWritten.blanks_append otherBlank otherBehindBlank
      rw [List.append_nil, absorbed] at begins
      cases names.symm.trans (ofMark?_row wholeWritten tailBlank begins.symm)
    | marked otherNames =>
      rw [skipBlank_mark otherBlank otherNames] at begins
      -- Two marks are one character, and the rows are what stands behind it.
      obtain ⟨rfl, behindMark⟩ := List.cons.inj begins
      cases names.symm.trans otherNames
      exact ⟨rfl, rows rowWritten behindBlank otherRowWritten otherBehindBlank behindMark⟩

end Format

end BoardRpc
