import BoardRpc.Proofs.Format.Admissible

/-! Reading a format against its grammar: a text is read exactly when it is written for a format
that is admissible, and then as that format. -/

namespace BoardRpc

namespace Format

/-- A field is passed on when its size can be kept. -/
theorem sized_eq_ok {start : List Char} {field read : Field} :
    sized start field = .ok read ↔ read = field ∧ field.minSize.isSome := by
  -- The one test is whether the size is kept.
  unfold sized
  constructor
  · intro ok
    split at ok
    · cases ok
    · rename_i unsized
      cases ok
      exact ⟨rfl, by simpa [Option.isSome_iff_ne_none] using unsized⟩
  · rintro ⟨rfl, kept⟩
    rw [if_neg]
    simpa [Option.isSome_iff_ne_none] using kept

/-- Digits are read from the first to the last as the number that they stand for. -/
theorem foldl_digits (digits : List Char) :
    digits.foldl (fun value digit => value * 10 + (digit.toNat - '0'.toNat)) 0
      = decimal digits := by
  -- The last digit is the lowest place.
  rw [decimal, Nat.ofDigits_eq_foldr, List.foldr_map, List.foldr_reverse]
  simp only [Nat.cast_id, Nat.add_comm, Nat.mul_comm]

/-- Every text begins with the blanks that are skipped. -/
theorem exists_blanks (text : List Char) :
    ∃ blanks, Blanks blanks ∧ text = blanks ++ Text.skipBlank text :=
  ⟨text.takeWhile Text.isBlank, fun _ here => List.mem_takeWhile_imp here,
    List.takeWhile_append_dropWhile.symm⟩

/-- A repeat that is read is written at the front of the text, and its count can be kept. -/
theorem readRepeat_ok {text rest : List Char} {times : Repeat}
    (read : readRepeat text = .ok (times, rest)) :
    ∃ mark, times.Written mark ∧ text = mark ++ rest ∧ ∀ n, times = .count n → n ≤ maxSize := by
  -- A star, no digits and digits are the three ways on, each with its own text.
  unfold readRepeat at read
  split at read
  · split at read
    · cases read
    · cases read
      exact ⟨['*'], .wildcard, rfl, by simp⟩
  · dsimp only at read
    rw [foldl_digits] at read
    split at read
    · -- Without digits there is no repeat.
      cases read
      exact ⟨[], .once, rfl, by simp⟩
    · rename_i digits
      split at read
      · -- The digits are all that there are, so none is left in front.
        rename_i fits
        cases read
        refine ⟨text.takeWhile Char.isDigit, .count (by simpa using digits)
          (fun _ here => List.mem_takeWhile_imp here), List.takeWhile_append_dropWhile.symm, ?_⟩
        rintro n ⟨⟩
        exact fits
      · cases read

/-- A repeat that is written is read in front of what may be repeated, if its count can be kept. -/
theorem readRepeat_written {times : Repeat} {mark : List Char} (written : times.Written mark)
    (fits : ∀ n, times = .count n → n ≤ maxSize) {c : Char} (repeatable : Repeatable c)
    (rest : List Char) : readRepeat (mark ++ c :: rest) = .ok (times, c :: rest) := by
  -- What follows is no digit and no star, so the repeat ends where it was written to end.
  obtain ⟨_, noDigit, noStar⟩ := repeatable
  cases written with
  | once =>
    simp only [List.nil_append]
    unfold readRepeat
    split
    · rename_i begins
      cases begins
      exact absurd rfl noStar
    · simp [List.takeWhile_cons_of_neg, noDigit]
  | count nonempty all =>
    have digits : (mark ++ c :: rest).takeWhile Char.isDigit = mark := by
      rw [List.takeWhile_append_of_pos all, List.takeWhile_cons_of_neg (by simp [noDigit]),
        List.append_nil]
    have behind : (mark ++ c :: rest).dropWhile Char.isDigit = c :: rest := by
      rw [List.dropWhile_append_of_pos all, List.dropWhile_cons_of_neg (by simp [noDigit])]
    unfold readRepeat
    split
    · -- A star is no digit.
      rename_i begins
      obtain ⟨digit, digits, rfl⟩ := List.exists_cons_of_ne_nil nonempty
      cases begins
      cases all '*' (by simp)
    · simp only [digits, behind, foldl_digits, List.isEmpty_eq_false_iff.mpr nonempty,
        fits _ rfl, if_true, Bool.false_eq_true, if_false]
  | wildcard => simp [readRepeat, noDigit]

/-- A letter is read as the field that it is written for, if the field's size can be kept. -/
theorem readLeaf_eq_ok {start fromLetter : List Char} {times : Repeat} {letter : Char}
    {field : Field} (leaf : letter ≠ '(') :
    readLeaf start fromLetter times letter = .ok field ↔
      field.Written [letter] ∧ field.times = times ∧ field.minSize.isSome ∧
        (times = .wildcard → field.isPadding = false) := by
  constructor
  · intro read
    obtain ⟨_, repeats, padding⟩ := readLeaf_ok read
    -- The letter decides what the field is, and the size is tested last.
    unfold readLeaf at read
    split at read
    · obtain ⟨rfl, size⟩ := sized_eq_ok.mp read
      exact ⟨rfl, repeats, size, padding⟩
    · obtain ⟨rfl, size⟩ := sized_eq_ok.mp read
      exact ⟨rfl, repeats, size, padding⟩
    · split at read
      · rename_i kind names
        split at read
        · cases read
        · obtain ⟨rfl, size⟩ := sized_eq_ok.mp read
          exact ⟨⟨letter, names, rfl⟩, repeats, size, padding⟩
      · cases read
  · rintro ⟨written, rfl, size, padding⟩
    -- The field has the letter that it is written with, and no other field has it.
    cases field with
    | primitive kind times =>
      obtain ⟨same, names, begins⟩ := written
      cases begins
      unfold readLeaf
      -- Strings and runs have letters that no primitive has.
      split
      · cases names
      · cases names
      · simp only [names]
        rw [if_neg, sized_eq_ok]
        · exact ⟨rfl, size⟩
        · rintro ⟨rfl, wildcard⟩
          cases padding (Repeat.isWildcard_iff.mp wildcard)
    | text times =>
      cases written
      exact sized_eq_ok.mpr ⟨rfl, size⟩
    | raw length =>
      cases written
      exact sized_eq_ok.mpr ⟨rfl, size⟩
    | group body times =>
      obtain ⟨_, inner, blanks, _, _, begins⟩ := written
      exact absurd (List.cons.inj begins).1 leaf

/-- A group is read when it has a body, its size can be kept, and it repeats no body that may be
empty. -/
theorem readGroup_eq_ok {start fromOpen : List Char} {times : Repeat} {body : List Field}
    {field : Field} : readGroup start fromOpen times body = .ok field ↔
      field = .group body times ∧ body ≠ [] ∧ (Field.group body times).minSize.isSome ∧
        (times ≠ .once → Field.totalMinSize body ≠ some 0) := by
  -- The three tests come one after the other, and passing all is what is said here.
  constructor
  · intro read
    obtain ⟨rfl, nonempty, growing⟩ := readGroup_ok read
    refine ⟨rfl, nonempty, ?_, growing⟩
    unfold readGroup at read
    split at read
    · cases read
    · split at read
      · cases read
      · rename_i size
        exact (sized_eq_ok.mp size).2
  · rintro ⟨rfl, nonempty, size, growing⟩
    rw [readGroup, if_neg (by simpa using nonempty), sized_eq_ok.mpr ⟨rfl, size⟩]
    exact if_neg fun repeats => growing repeats.1 repeats.2

/-- What is read in front of the next field is written there: the end of the row, a whole field, or
the start of a group. -/
theorem readOpening_written {inGroup : Bool} {text : List Char} {opening : Opening text}
    (read : readOpening inGroup text = .ok opening) :
    match opening with
    | .stop rest _ => ∃ blanks, Blanks blanks ∧ RowEnd rest ∧ text = blanks ++ rest
    | .leaf _ field rest _ => ∃ blanks mark here, Blanks blanks ∧ field.times.Written mark ∧
        field.Written here ∧ field.Fits ∧ field.inside = [] ∧
        text = blanks ++ (mark ++ here) ++ rest
    | .group _ _ times inner _ => ∃ blanks mark, Blanks blanks ∧ times.Written mark ∧
        (∀ n, times = .count n → n ≤ maxSize) ∧ text = blanks ++ (mark ++ '(' :: inner) := by
  -- What was skipped are blanks, and what was read behind them tells its own text.
  obtain ⟨blanks, blank, split⟩ := exists_blanks text
  unfold readOpening at read
  dsimp only at read
  split at read
  · rename_i stops
    cases read
    refine ⟨blanks, blank, ?_, split⟩
    rintro c rest begins
    simpa [begins] using stops
  · split at read
    · cases read
    · rename_i times fromLetter readTimes
      obtain ⟨mark, repeats, begins, fits⟩ := readRepeat_ok readTimes
      rw [begins] at split
      split at read
      · cases read
      · split at read
        · cases read
        · split at read
          · rename_i open_
            cases read
            subst open_
            -- A group is opened; its body is not looked at here.
            exact ⟨blanks, mark, blank, repeats, fits, split⟩
          · rename_i letter rest _ _ leaf
            split at read
            · cases read
            · rename_i field readField
              cases read
              obtain ⟨written, rfl, size, _⟩ := (readLeaf_eq_ok leaf).mp readField
              refine ⟨blanks, mark, [letter], blank, repeats, written, ⟨fits, size⟩, ?_, ?_⟩
              · -- A field that is written as one letter is no group.
                cases field with
                | group body times =>
                  obtain ⟨_, inner, blanks, _, _, begins⟩ := written
                  exact absurd (List.cons.inj begins).1 leaf
                | _ => rfl
              · simpa using split

/-- A row that is read is written up to the blanks in front of what is left, and all of its counts
and sizes can be kept. -/
theorem readRow_written {inGroup afterWildcard : Bool} {text : List Char} {row : Row text}
    (read : readRow inGroup afterWildcard text = .ok row) :
    RowEnd row.rest ∧ (∀ part ∈ rowParts row.fields, part.Fits) ∧
      ∃ written blanks, RowWritten row.fields written ∧ Blanks blanks ∧
        text = written ++ blanks ++ row.rest := by
  -- The induction follows the reader: a body comes first, then what follows its group.
  fun_induction readRow inGroup afterWildcard text with
  | case1 | case3 | case4 | case6 | case7 | case8 | case9 | case10 => cases read
  | case2 =>
    rename_i opened
    cases read
    obtain ⟨blanks, blank, ends, split⟩ := readOpening_written opened
    exact ⟨ends, by simp [rowParts], [], blanks, rfl, blank, split⟩
  | case5 inGroup afterWildcard text start field rest shorter opened free others _ ih =>
    cases read
    -- The row goes on behind the letter.
    obtain ⟨front, mark, here, frontBlank, repeats, written, fits, leaf, split⟩ :=
      readOpening_written opened
    obtain ⟨ends, othersFit, behind, blanks, rowWritten, blank, rest⟩ := ih ‹_›
    refine ⟨ends, forall_rowParts_cons.mpr ⟨fits, by simp [leaf], othersFit⟩, _, blanks,
      ⟨front, mark, here, behind, frontBlank, repeats, written, rowWritten, rfl⟩, blank, ?_⟩
    exact split.trans ((congrArg (front ++ (mark ++ here) ++ ·) rest).trans (by
      simp only [List.append_assoc]))
  | case11 =>
    rename_i inGroup afterWildcard text start fromOpen times inner shorter opened body _ _ _ closed
      behind field grouped free others _ ihBody ih
    cases read
    obtain ⟨front, mark, frontBlank, repeats, fits, split⟩ := readOpening_written opened
    obtain ⟨rfl, nonempty, size, _⟩ := readGroup_eq_ok.mp grouped
    obtain ⟨bodyEnds, bodyFits, bodyText, bodyBlanks, bodyWritten, bodyBlank, bodySplit⟩ :=
      ihBody ‹_›
    obtain ⟨ends, othersFit, rowText, blanks, rowWritten, blank, rest⟩ := ih ‹_›
    -- What ends the body closes the group, and the row goes on behind it.
    obtain rfl := bodyEnds _ _ closed
    refine ⟨ends, forall_rowParts_cons.mpr ⟨⟨fits, size⟩, bodyFits, othersFit⟩, _, blanks,
      ⟨front, mark, '(' :: (bodyText ++ bodyBlanks ++ [')']), rowText, frontBlank, repeats,
        ⟨nonempty, bodyText, bodyBlanks, bodyWritten, bodyBlank, rfl⟩, rowWritten, rfl⟩, blank, ?_⟩
    calc text = front ++ (mark ++ '(' :: inner) := split
      _ = front ++ (mark ++ '(' :: (bodyText ++ bodyBlanks ++ body.rest)) :=
        congrArg (fun inner => front ++ (mark ++ '(' :: inner)) bodySplit
      _ = front ++ (mark ++ '(' :: (bodyText ++ bodyBlanks
            ++ ')' :: (rowText ++ blanks ++ others.rest))) :=
        congrArg (fun last => front ++ (mark ++ '(' :: (bodyText ++ bodyBlanks ++ last)))
          (closed.trans (congrArg (')' :: ·) rest))
      _ = _ := by simp

/-- Reading finds the end of a row behind blanks. -/
theorem readOpening_stop (inGroup : Bool) {blanks rest : List Char} (blank : Blanks blanks)
    (ends : RowEnd rest) : ∃ opening, readOpening inGroup (blanks ++ rest) = .ok opening ∧
      match opening with
      | .stop last _ => last = rest
      | _ => False := by
  -- Behind the blanks the text is empty or begins with the parenthesis.
  have skipped := skipBlank_append blank ends.stops
  have stops : (Text.skipBlank (blanks ++ rest)).isEmpty = true ∨
      (Text.skipBlank (blanks ++ rest)).head? = some ')' := by
    rw [skipped]
    cases rest with
    | nil => exact .inl rfl
    | cons c rest => exact .inr (congrArg some (ends c rest rfl))
  unfold readOpening
  dsimp only
  rw [if_pos stops]
  exact ⟨_, rfl, skipped⟩

/-- Behind blanks, reading goes on with the repeat of a field and with what is repeated. -/
theorem readOpening_field (inGroup : Bool) {blanks mark : List Char} {times : Repeat} {c : Char}
    (blank : Blanks blanks) (repeats : times.Written mark) (repeatable : Repeatable c)
    (fits : ∀ n, times = .count n → n ≤ maxSize) (outside : times = .wildcard → inGroup = false)
    (rest : List Char) :
    ∃ start shorter, readOpening inGroup (blanks ++ (mark ++ c :: rest)) =
      if c = '(' then .ok (.group start (c :: rest) times rest shorter)
      else match readLeaf start (c :: rest) times c with
        | .error blemish => .error blemish
        | .ok field => .ok (.leaf start field rest shorter) := by
  -- No test in front of the letter fails: there is a character, it ends no row, and the repeat may
  -- stand here.
  obtain ⟨first, others, begins, opens⟩ := repeats.begins repeatable rest
  have skipped : Text.skipBlank (blanks ++ (mark ++ c :: rest)) = mark ++ c :: rest := by
    refine skipBlank_append blank fun d tail same => ?_
    rw [begins] at same
    cases same
    exact opens.1
  have goesOn : ¬ ((Text.skipBlank (blanks ++ (mark ++ c :: rest))).isEmpty = true ∨
      (Text.skipBlank (blanks ++ (mark ++ c :: rest))).head? = some ')') := by
    rw [skipped, begins]
    simp [opens.2.1]
  have readTimes := readRepeat_written repeats fits repeatable rest
  rw [← skipped] at readTimes
  unfold readOpening
  dsimp only
  rw [if_neg goesOn]
  split
  · rename_i failed
    cases readTimes.symm.trans failed
  · rename_i read
    cases readTimes.symm.trans read
    have shorter : rest.length < (blanks ++ (mark ++ c :: rest)).length := by
      simp only [List.length_append, List.length_cons]
      omega
    -- The last test is whether a wildcard stands in a group.
    rw [if_neg]
    · exact ⟨_, shorter, rfl⟩
    · rintro ⟨wildcard, inside⟩
      cases inside.symm.trans (outside (Repeat.isWildcard_iff.mp wildcard))

/-- A field in front of a row that is read is read together with it. -/
def FieldRead (field : Field) : Prop :=
  ∀ {inGroup blanks mark here text fields last}, Blanks blanks → field.times.Written mark →
    field.Written here → field.Sound → field.Fits → (∀ part ∈ field.inside, part.Fits) →
    (field.times = .wildcard → inGroup = false ∧ field.isPadding = false) →
    (∃ row, readRow inGroup field.times.isWildcard text = .ok row ∧ row.fields = fields ∧
      row.rest = last) →
    ∃ row, readRow inGroup false (blanks ++ (mark ++ here) ++ text) = .ok row ∧
      row.fields = field :: fields ∧ row.rest = last

/-- A row that is written and sound is read, whatever ends it. -/
def RowRead (fields : List Field) : Prop :=
  ∀ inGroup afterWildcard {text blanks rest}, RowWritten fields text → Blanks blanks →
    RowEnd rest → RowSound inGroup fields → (∀ part ∈ rowParts fields, part.Fits) →
    (afterWildcard = true → fields = []) →
    ∃ row, readRow inGroup afterWildcard (text ++ blanks ++ rest) = .ok row ∧
      row.fields = fields ∧ row.rest = rest

/-- A field that is written as one letter is read together with the row behind it. -/
theorem leaf_read {field : Field}
    (letters : ∀ here, field.Written here → ∃ letter, here = [letter] ∧ letter ≠ '(') :
    FieldRead field := by
  -- Nothing is left of the field behind its letter, so the row goes on there.
  intro inGroup blanks mark here text fields last blank repeats written _ fits _ outside behind
  obtain ⟨row, read, rfl, rfl⟩ := behind
  obtain ⟨letter, rfl, noGroup⟩ := letters here written
  obtain ⟨c, rest, begins, repeatable⟩ := written.begins
  cases begins
  obtain ⟨start, shorter, opened⟩ := readOpening_field inGroup blank repeats repeatable
    fits.1 (fun wildcard => (outside wildcard).1) text
  rw [if_neg noGroup, (readLeaf_eq_ok noGroup).mpr
    ⟨written, rfl, fits.2, fun wildcard => (outside wildcard).2⟩] at opened
  have split : blanks ++ (mark ++ [letter]) ++ text = blanks ++ (mark ++ letter :: text) := by simp
  rw [split, readRow, opened]
  simp only [Bool.false_eq_true, if_false, read]
  exact ⟨_, rfl, rfl, rfl⟩

/-- A group is read, its body between the parentheses, together with the row behind it. -/
theorem group_read {body : List Field} (bodyRead : RowRead body) (times : Repeat) :
    FieldRead (.group body times) := by
  -- The body is read up to the closing parenthesis, and the row goes on behind that.
  intro inGroup blanks mark here text fields last blank repeats written sound fits bodyFits outside
    behind
  obtain ⟨row, read, rfl, rfl⟩ := behind
  obtain ⟨nonempty, bodySound, growing⟩ := sound
  obtain ⟨_, inner, bodyBlanks, bodyWritten, bodyBlank, rfl⟩ := written
  obtain ⟨start, shorter, opened⟩ := readOpening_field inGroup blank repeats
    (by decide : Repeatable '(') fits.1 (fun wildcard => (outside wildcard).1)
    (inner ++ bodyBlanks ++ ')' :: text)
  rw [if_pos rfl] at opened
  obtain ⟨bodyRow, readBody, rfl, ended⟩ := bodyRead true false bodyWritten bodyBlank
    (RowEnd.close text) bodySound bodyFits (by simp)
  have split : blanks ++ (mark ++ '(' :: (inner ++ bodyBlanks ++ [')'])) ++ text
      = blanks ++ (mark ++ '(' :: (inner ++ bodyBlanks ++ ')' :: text)) := by simp
  -- The reader goes through the body first, and looks at what ended it.
  rw [split, readRow, opened]
  simp only [readBody]
  split
  · rename_i empty
    cases ended.symm.trans empty
  · rename_i closed
    cases ended.symm.trans closed
    have grouped : readGroup start ('(' :: (inner ++ bodyBlanks ++ ')' :: text)) times
        bodyRow.fields = .ok (.group bodyRow.fields times) :=
      readGroup_eq_ok.mpr ⟨rfl, nonempty, fits.2, growing⟩
    have others : readRow inGroup times.isWildcard text = .ok row := read
    simp only [Field.times, grouped, others, Bool.false_eq_true, if_false]
    exact ⟨_, rfl, rfl, rfl⟩

/-- Every row that is written and sound is read. -/
theorem row_read : ∀ fields, RowRead fields := by
  refine (Field.row_induction (P := FieldRead) ?_ ?_ ?_
    (fun body times row => group_read row times) ?_ ?_).2
  · -- No letter of a primitive opens a group, and neither do those of strings and runs.
    intro kind times
    refine leaf_read ?_
    rintro here ⟨letter, names, rfl⟩
    refine ⟨letter, rfl, ?_⟩
    rintro rfl
    cases names
  · intro times
    refine leaf_read ?_
    rintro here rfl
    exact ⟨'S', rfl, by decide⟩
  · intro length
    refine leaf_read ?_
    rintro here rfl
    exact ⟨'X', rfl, by decide⟩
  · -- An empty row is written as nothing, so that only its end is read.
    rintro inGroup afterWildcard text blanks rest rfl blank ends _ _ _
    obtain ⟨opening, opened, stops⟩ := readOpening_stop inGroup blank ends
    rw [List.nil_append, readRow, opened]
    cases opening with
    | stop => exact ⟨_, rfl, rfl, stops⟩
    | leaf | group => exact stops.elim
  · intro field others fieldRead othersRead inGroup afterWildcard text blanks rest written blank
      ends sound fits last
    obtain ⟨front, mark, here, row, frontBlank, repeats, fieldWritten, rowWritten, rfl⟩ := written
    obtain ⟨fieldSound, allowed, othersSound⟩ := sound
    obtain ⟨fieldFits, inside, othersFit⟩ := forall_rowParts_cons.mp fits
    have free : afterWildcard = false := by
      cases afterWildcard with
      | false => rfl
      | true => cases last rfl
    -- Behind a wildcard there are no others, so the rest is read too.
    have behind := othersRead inGroup field.times.isWildcard rowWritten blank ends
      othersSound othersFit fun wildcard => (allowed (Repeat.isWildcard_iff.mp wildcard)).2.2
    rw [free, List.append_assoc, List.append_assoc, ← List.append_assoc row]
    exact fieldRead frontBlank repeats fieldWritten fieldSound fieldFits inside
      (fun wildcard => ⟨(allowed wildcard).1, (allowed wildcard).2.1⟩) behind

/-- What reading a text does once its byte order is known. -/
def readFields (text : List Char) (order : ByteOrder) (rest : List Char) :
    Except Blemish (ByteOrder × List Field) :=
  match readRow false false rest with
  | .error blemish => .error blemish
  | .ok row =>
    if !row.rest.isEmpty then .error ⟨.unmatchedClose, row.rest⟩
    else if (Field.totalMinSize row.fields).isNone then .error ⟨.formatTooLarge, text⟩
    else if (checkedArity row.fields).isNone then .error ⟨.tooManyArguments, text⟩
    else .ok (order, row.fields)

/-- The byte order of a text, and what is left for its fields. -/
def orderMark (text : List Char) : ByteOrder × List Char :=
  match Text.skipBlank text with
  | mark :: rest =>
    match ByteOrder.ofMark? mark with
    | some order => (order, rest)
    | none => (.little, Text.skipBlank text)
  | [] => (.little, Text.skipBlank text)

/-- A text is its byte order and its fields. -/
theorem readText_eq (text : List Char) :
    readText text = readFields text (orderMark text).1 (orderMark text).2 := rfl

/-- A mark that comes first is the byte order, and the fields are behind it. -/
theorem orderMark_marked {text rest : List Char} {mark : Char} {order : ByteOrder}
    (begins : Text.skipBlank text = mark :: rest) (names : ByteOrder.ofMark? mark = some order) :
    orderMark text = (order, rest) := by
  simp only [orderMark, begins, names]

/-- Without a mark all of the text is fields. -/
theorem orderMark_implied {text : List Char}
    (plain : ∀ c rest, Text.skipBlank text = c :: rest → ByteOrder.ofMark? c = none) :
    orderMark text = (.little, Text.skipBlank text) := by
  -- A mark would be read as such.
  unfold orderMark
  split
  · rename_i mark rest begins
    simp only [plain mark rest begins]
  · rfl

/-- Fields are read from a text exactly when they are written there and admissible. -/
theorem readFields_eq_ok {text rest : List Char} {order read : ByteOrder} {fields : List Field} :
    readFields text order rest = .ok (read, fields) ↔
      read = order ∧ (∃ row behind, RowWritten fields row ∧ Blanks behind ∧ rest = row ++ behind) ∧
        Admissible fields := by
  -- Both directions meet in the row: one is read from what is written, the other the reverse.
  constructor
  · -- The tests behind the row are those for sizes and arguments of the whole.
    intro ok
    unfold readFields at ok
    split at ok
    · cases ok
    · rename_i row rowRead
      split_ifs at ok with closing unsized uncounted
      cases ok
      obtain ⟨ends, fits, written, blanks, rowWritten, blank, split⟩ := readRow_written rowRead
      have ended : row.rest = [] := by simpa using closing
      rw [ended, List.append_nil] at split
      refine ⟨rfl, ⟨written, blanks, rowWritten, blank, split⟩, ?_⟩
      rw [admissible_iff rowWritten]
      exact ⟨(readRow_sound rowRead).1, fits, by simpa [Option.isSome_iff_ne_none] using unsized,
        by simpa [Option.isSome_iff_ne_none] using uncounted⟩
  · rintro ⟨rfl, ⟨row, behind, rowWritten, blank, rfl⟩, admissible⟩
    obtain ⟨sound, fits, size, arguments⟩ := (admissible_iff rowWritten).mp admissible
    have whole := row_read fields false false rowWritten blank RowEnd.nil sound fits (by simp)
    rw [List.append_nil] at whole
    obtain ⟨read, rowRead, rfl, ended⟩ := whole
    have sized : (Field.totalMinSize read.fields).isNone = false := by
      simpa [Option.isSome_iff_ne_none] using size
    have counted : (checkedArity read.fields).isNone = false := by
      simpa [Option.isSome_iff_ne_none] using arguments
    unfold readFields
    simp only [rowRead, ended, sized, counted, List.isEmpty_nil, Bool.not_true, Bool.false_eq_true,
      if_false]

end Format

/-- Behind the blanks of its first field a row is written too. -/
theorem RowWritten.skipBlank {fields : List Field} {row tail : List Char}
    (written : RowWritten fields row) (blank : Blanks tail) :
    ∃ core behind, RowWritten fields core ∧ Blanks behind ∧
      Text.skipBlank (row ++ tail) = core ++ behind := by
  -- Only the blanks in front of the first field are lost, and a field needs none.
  cases fields with
  | nil =>
    obtain rfl := written
    exact ⟨[], [], rfl, Blanks.nil, skipBlank_blanks blank⟩
  | cons field others =>
    obtain ⟨front, times, here, rest, frontBlank, repeats, fieldWritten, restWritten, rfl⟩ :=
      written
    refine ⟨times ++ here ++ rest, tail, ⟨[], times, here, rest, Blanks.nil, repeats, fieldWritten,
      restWritten, rfl⟩, blank, ?_⟩
    rw [List.append_assoc _ rest, skipBlank_written frontBlank repeats fieldWritten,
      List.append_assoc _ rest]

namespace Format

/-- A text is read as the byte order and the fields that it is written for. -/
theorem readText_eq_ok {text : List Char} {order : ByteOrder} {fields : List Field} :
    readText text = .ok (order, fields) ↔ Written order fields text ∧ Admissible fields := by
  obtain ⟨front, blank, split⟩ := exists_blanks text
  constructor
  · intro read
    -- The first character that is no blank is a mark, or the fields begin there.
    cases marked : (Text.skipBlank text).head?.bind ByteOrder.ofMark? with
    | some named =>
      obtain ⟨mark, begins, names⟩ := Option.bind_eq_some_iff.mp marked
      obtain ⟨rest, begins⟩ := List.head?_eq_some_iff.mp begins
      rw [readText_eq, orderMark_marked begins names, readFields_eq_ok] at read
      obtain ⟨rfl, ⟨row, behind, written, behindBlank, rfl⟩, admissible⟩ := read
      refine ⟨⟨front, [mark], row, behind, blank, .marked names, written, behindBlank, ?_⟩,
        admissible⟩
      rw [begins] at split
      simpa using split
    | none =>
      have plain : ∀ c rest, Text.skipBlank text = c :: rest → ByteOrder.ofMark? c = none := by
        intro c rest begins
        simpa [begins] using marked
      rw [readText_eq, orderMark_implied plain, readFields_eq_ok] at read
      obtain ⟨rfl, ⟨row, behind, written, behindBlank, begins⟩, admissible⟩ := read
      refine ⟨⟨front, [], row, behind, blank, .implied, written, behindBlank, ?_⟩, admissible⟩
      rw [show Text.skipBlank text = row ++ behind from begins] at split
      simpa using split
  · rintro ⟨⟨front, mark, row, behind, blank, marked, rowWritten, behindBlank, rfl⟩, admissible⟩
    -- Without a mark the order is little-endian.
    cases marked with
    | implied =>
      -- The blanks in front are taken for those of the first field.
      obtain ⟨whole, tail, written, tailBlank, absorbed⟩ :=
        rowWritten.blanks_append blank behindBlank
      rw [List.append_nil, absorbed, readText_eq,
        orderMark_implied fun c rest => ofMark?_row written tailBlank, readFields_eq_ok]
      exact ⟨rfl, written.skipBlank tailBlank, admissible⟩
    | marked names =>
      rw [readText_eq, orderMark_marked (skipBlank_mark blank names row behind) names,
        readFields_eq_ok]
      exact ⟨rfl, ⟨row, behind, rowWritten, behindBlank, rfl⟩, admissible⟩

/-- A format is read from a text exactly when the text is written for it and it is admissible, and
no text is written for two formats. -/
theorem parse_iff_written (source : String) :
    (∀ format, parse source = .ok format ↔
      format.source = source ∧ Written format.order format.fields source.toList ∧
        Admissible format.fields) ∧
    ∀ order others fields otherFields, Written order fields source.toList →
      Written others otherFields source.toList → order = others ∧ fields = otherFields := by
  -- Only the text is kept beside what was read from it.
  refine ⟨fun format => ?_, fun _ _ _ _ written => written.unique⟩
  obtain ⟨text, order, fields⟩ := format
  unfold parse
  constructor
  · -- A format is what was read, under the text that it was read from.
    intro parsed
    split at parsed
    · cases parsed
    · rename_i read
      cases parsed
      exact ⟨rfl, readText_eq_ok.mp read⟩
  · rintro ⟨rfl, written⟩
    simp only [readText_eq_ok.mpr written]

/-- Big-endian pairs in parentheses, and strings behind them. -/
theorem parse_pairs :
    parse " >2(?B) *S" = .ok ⟨" >2(?B) *S", .big,
      [.group [.primitive .bool .once, .primitive .uint8 .once] (.count 2), .text .wildcard]⟩ ∧
    ∀ order fields, Written order fields " >2(?B) *S".toList → order = .big ∧ fields =
      [.group [.primitive .bool .once, .primitive .uint8 .once] (.count 2), .text .wildcard] := by
  obtain ⟨parsed, unique⟩ := parse_iff_written " >2(?B) *S"
  have blank : Blanks [' '] := by
    simp only [Blanks, List.forall_mem_singleton]
    decide
  have digit : ∀ digit ∈ ['2'], digit.isDigit = true := by
    simp only [List.forall_mem_singleton]
    decide
  -- The text is written from its parts.
  have pair : RowWritten [.primitive .bool .once, .primitive .uint8 .once] ['?', 'B'] :=
    ⟨[], [], ['?'], ['B'], Blanks.nil, .once, ⟨'?', rfl, rfl⟩,
      ⟨[], [], ['B'], [], Blanks.nil, .once, ⟨'B', rfl, rfl⟩, rfl, rfl⟩, rfl⟩
  have strings : RowWritten [.text .wildcard] [' ', '*', 'S'] :=
    ⟨[' '], ['*'], ['S'], [], blank, .wildcard, rfl, rfl, rfl⟩
  have row : RowWritten [.group [.primitive .bool .once, .primitive .uint8 .once] (.count 2),
      .text .wildcard] "2(?B) *S".toList :=
    ⟨[], ['2'], "(?B)".toList, " *S".toList, Blanks.nil, .count (by simp) digit,
      ⟨by simp, ['?', 'B'], [], pair, Blanks.nil, rfl⟩, strings, rfl⟩
  have written : Written .big [.group [.primitive .bool .once, .primitive .uint8 .once] (.count 2),
      .text .wildcard] " >2(?B) *S".toList :=
    ⟨[' '], ['>'], "2(?B) *S".toList, [], blank, .marked rfl, row, Blanks.nil, rfl⟩
  refine ⟨(parsed _).mpr ⟨rfl, written, ?_⟩, fun _ _ other => unique _ _ _ _ other written⟩
  constructor <;> simp [rowParts, Field.inside, Field.times, Field.isPadding, Field.minSize,
    Field.totalMinSize, Repeat.count?, Primitive.width, checkedSize, maxSize, checkedArity,
    Arity.checkedAdd, Field.arity]

end Format

end BoardRpc
