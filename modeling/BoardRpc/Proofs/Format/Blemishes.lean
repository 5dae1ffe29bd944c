import BoardRpc.Proofs.Format.Reading

/-! Where a text is no format: what is refused is found at a byte position of the text at which a
character begins, what stands there shows the defect, and the message quotes the text from there
on. -/

namespace BoardRpc.Format

/-- Whether a defect is one of all fields together, which is found in the text as a whole. -/
def Defect.IsOfWhole (defect : Defect) : Prop :=
  defect = .formatTooLarge ∨ defect = .tooManyArguments

/-- The characters that show a defect where it is found: the parenthesis, the star, the digit or the
letter that is out of place, or the first character of a field. A defect of the whole is shown by
none. -/
def Defect.ShownBy : Defect → Char → Prop
  | .unmatchedClose, c => c = ')'
  | .unmatchedOpen, c | .emptyGroup, c => c = '('
  | .wildcardInGroup, c | .wildcardWithCount, c | .wildcardAlone, c | .wildcardPadding, c => c = '*'
  | .countAlone, c | .countTooLarge, c => c.isDigit = true
  | .unknownLetter letter, c => c = letter
  | .wildcardNotLast, c | .fieldTooLarge, c | .repeatedNothing, c =>
    Text.isBlank c = false ∧ c ≠ ')'
  | .formatTooLarge, _ | .tooManyArguments, _ => False

/-- A blemish that is found in a text: the text ends with its rest, which begins with a character
that shows the defect. -/
structure Blemish.FoundIn (text : List Char) (blemish : Blemish) : Prop where
  suffix : blemish.rest <:+ text
  shown : ∃ c ∈ blemish.rest.head?, blemish.defect.ShownBy c

/-- What is found in the end of a text is found in the text. -/
theorem Blemish.FoundIn.within {inner text : List Char} {blemish : Blemish}
    (found : blemish.FoundIn inner) (suffix : inner <:+ text) : blemish.FoundIn text :=
  ⟨found.suffix.trans suffix, found.shown⟩

/-- Something is left where a blemish is found. -/
theorem Blemish.FoundIn.nonempty {text : List Char} {blemish : Blemish}
    (found : blemish.FoundIn text) : blemish.rest ≠ [] := by
  -- A character that shows the defect is one.
  obtain ⟨c, begins, _⟩ := found.shown
  intro empty
  cases empty ▸ begins

/-- The place of a field in a text, from its repeat on and from what is repeated on. -/
structure Placed (text start fromLetter : List Char) (times : Repeat) : Prop where
  suffix : start <:+ text
  begins : ∃ c ∈ start.head?, Text.isBlank c = false ∧ c ≠ ')'
  repeats : ∃ mark, times.Written mark ∧ start = mark ++ fromLetter

namespace Placed

variable {text start fromLetter : List Char} {times : Repeat}

/-- From what is repeated on there is an end of the text. -/
theorem letter_suffix (place : Placed text start fromLetter times) : fromLetter <:+ text := by
  -- Behind its repeat, what is left of the field's text still ends it.
  obtain ⟨mark, _, split⟩ := place.repeats
  exact List.IsSuffix.trans ⟨mark, split.symm⟩ place.suffix

/-- Behind the character that is repeated there is an end of the text. -/
theorem behind {c : Char} {rest : List Char} (place : Placed text start (c :: rest) times) :
    rest <:+ text :=
  (List.suffix_cons c rest).trans place.letter_suffix

/-- A wildcard's field begins with the star. -/
theorem star (place : Placed text start fromLetter .wildcard) : start.head? = some '*' := by
  -- The mark of a wildcard is the star, and the field begins with its mark.
  obtain ⟨mark, written, rfl⟩ := place.repeats
  cases written
  rfl

/-- Where nothing is repeated, a star or a digit was read. -/
theorem alone (place : Placed text start [] times) :
    Blemish.FoundIn text ⟨if times.isWildcard then .wildcardAlone else .countAlone, start⟩ := by
  -- The repeat is all that is left of the text, and it is not nothing, as a field begins there.
  obtain ⟨mark, written, split⟩ := place.repeats
  rw [List.append_nil] at split
  subst split
  refine ⟨place.suffix, ?_⟩
  cases written with
  | once =>
    obtain ⟨c, here, _⟩ := place.begins
    cases here
  | count nonempty digits =>
    obtain ⟨digit, others, rfl⟩ := List.exists_cons_of_ne_nil nonempty
    exact ⟨digit, rfl, digits digit (by simp)⟩
  | wildcard => exact ⟨'*', rfl, rfl⟩

end Placed

/-- What is refused of a repeat is found where the repeat begins. -/
theorem readRepeat_blemished {text : List Char} {blemish : Blemish}
    (failed : readRepeat text = .error blemish) : blemish.FoundIn text := by
  -- A star may not stand in front of a digit, and digits may be too many.
  unfold readRepeat at failed
  split at failed
  · split at failed
    · cases failed
      exact ⟨List.suffix_refl _, '*', rfl, rfl⟩
    · cases failed
  · dsimp only at failed
    split at failed
    · cases failed
    · rename_i digits
      split at failed
      · cases failed
      · cases failed
        refine ⟨List.suffix_refl _, ?_⟩
        -- There are digits in front of the text, so its first character is one.
        cases text with
        | nil => exact absurd rfl digits
        | cons c rest =>
          refine ⟨c, rfl, ?_⟩
          by_contra other
          exact digits (by rw [List.takeWhile_cons_of_neg other]; rfl)

/-- A size that cannot be kept is found where the field begins. -/
theorem sized_blemished {text start fromLetter : List Char} {times : Repeat} {field : Field}
    {blemish : Blemish} (place : Placed text start fromLetter times)
    (failed : sized start field = .error blemish) : blemish.FoundIn text := by
  -- There is one way to fail, and it tells the start of the field.
  unfold sized at failed
  split at failed
  · cases failed
    exact ⟨place.suffix, place.begins⟩
  · cases failed

/-- What is refused of a leaf is found at its repeat or at its letter. -/
theorem readLeaf_blemished {text start rest : List Char} {times : Repeat} {letter : Char}
    {blemish : Blemish} (place : Placed text start (letter :: rest) times)
    (failed : readLeaf start (letter :: rest) times letter = .error blemish) :
    blemish.FoundIn text := by
  -- Only a stranger is told by its letter.
  unfold readLeaf at failed
  split at failed
  · exact sized_blemished place failed
  · exact sized_blemished place failed
  · split at failed
    · split at failed
      · rename_i padding
        cases failed
        -- Padding is refused where its star stands.
        obtain rfl := Repeat.isWildcard_iff.mp padding.2
        exact ⟨place.suffix, '*', place.star, rfl⟩
      · exact sized_blemished place failed
    · cases failed
      exact ⟨place.letter_suffix, letter, rfl, rfl⟩

/-- What is refused of a group is found at its repeat or at its parenthesis. -/
theorem readGroup_blemished {text start inner : List Char} {times : Repeat} {body : List Field}
    {blemish : Blemish} (place : Placed text start ('(' :: inner) times)
    (failed : readGroup start ('(' :: inner) times body = .error blemish) :
    blemish.FoundIn text := by
  -- Only a missing body is told by the parenthesis.
  unfold readGroup at failed
  split at failed
  · cases failed
    exact ⟨place.letter_suffix, '(', rfl, rfl⟩
  · split at failed
    · -- Sizes and empty bodies are told with the start of the field.
      rename_i size
      cases failed
      exact sized_blemished place size
    · split at failed
      · cases failed
        exact ⟨place.suffix, place.begins⟩
      · cases failed

/-- Behind blanks, what ends no row begins a field. -/
theorem skipBlank_begins {text : List Char}
    (goesOn : ¬ ((Text.skipBlank text).isEmpty = true ∨ (Text.skipBlank text).head? = some ')')) :
    ∃ c ∈ (Text.skipBlank text).head?, Text.isBlank c = false ∧ c ≠ ')' := by
  -- The first character that is left stopped the skipping.
  obtain ⟨goes, noClose⟩ := not_or.mp goesOn
  have nonempty : Text.skipBlank text ≠ [] := by simpa using goes
  refine ⟨_, List.head_mem_head? nonempty, List.head_dropWhile_not Text.isBlank nonempty, ?_⟩
  intro close
  exact noClose (close ▸ List.head?_eq_some_head nonempty)

/-- What comes next in a text is found there: the end of the row, a field, or what is refused in
front of them. -/
theorem readOpening_placed {inGroup : Bool} {text : List Char}
    {result : Except Blemish (Opening text)} (read : readOpening inGroup text = result) :
    match result with
    | .error blemish => blemish.FoundIn text
    | .ok (.stop rest _) => rest <:+ text
    | .ok (.leaf start _ rest _) => ∃ letter times, Placed text start (letter :: rest) times
    | .ok (.group start fromOpen times inner _) =>
      fromOpen = '(' :: inner ∧ Placed text start fromOpen times := by
  -- All of the tests are made on the text behind the blanks.
  have suffix := Text.skipBlank_suffix text
  unfold readOpening at read
  dsimp only at read
  split at read
  · subst read
    exact suffix
  · rename_i goesOn
    have begins := skipBlank_begins goesOn
    split at read
    · rename_i failed
      subst read
      exact (readRepeat_blemished failed).within suffix
    · rename_i times fromLetter readTimes
      -- The repeat was read, so a field has its place here.
      obtain ⟨mark, written, split, _⟩ := readRepeat_ok readTimes
      have place : Placed text (Text.skipBlank text) fromLetter times :=
        ⟨suffix, begins, mark, written, split⟩
      split at read
      · -- A wildcard in a group is told by its star.
        rename_i inside
        subst read
        obtain rfl := Repeat.isWildcard_iff.mp inside.1
        exact ⟨suffix, '*', place.star, rfl⟩
      · split at read
        · subst read
          -- Nothing stands behind the repeat.
          exact place.alone
        · rename_i letter rest _ _
          split at read
          · rename_i opens
            subst read opens
            exact ⟨rfl, place⟩
          · split at read
            · rename_i failed
              subst read
              exact readLeaf_blemished place failed
            · subst read
              exact ⟨letter, times, place⟩

/-- What is left behind a row ends its text. -/
theorem readRow_suffix {inGroup afterWildcard : Bool} {text : List Char} {row : Row text}
    (read : readRow inGroup afterWildcard text = .ok row) : row.rest <:+ text := by
  -- In front of it is what was written for the row.
  obtain ⟨_, _, written, blanks, _, _, split⟩ := readRow_written read
  exact ⟨written ++ blanks, split.symm⟩

/-- What is refused of a row is found in its text. -/
theorem readRow_blemished {inGroup afterWildcard : Bool} {text : List Char} {blemish : Blemish}
    (failed : readRow inGroup afterWildcard text = .error blemish) : blemish.FoundIn text := by
  -- The induction follows the reader: what a field or a body leaves ends the text, so that whatever
  -- is found behind it is found in the text.
  fun_induction readRow inGroup afterWildcard text with
  | case2 | case5 | case11 => cases failed
  | case1 inGroup afterWildcard text found opened =>
    cases failed
    exact readOpening_placed opened
  | case3 inGroup text start field rest shorter opened =>
    cases failed
    obtain ⟨letter, times, place⟩ := readOpening_placed opened
    exact ⟨place.suffix, place.begins⟩
  | case4 inGroup afterWildcard text start field rest shorter opened free found others ih =>
    cases failed
    obtain ⟨letter, times, place⟩ := readOpening_placed opened
    exact (ih others).within place.behind
  | case6 inGroup afterWildcard text start fromOpen times inner shorter opened found body ih =>
    cases failed
    obtain ⟨rfl, place⟩ := readOpening_placed opened
    exact (ih body).within place.behind
  | case7 inGroup afterWildcard text start fromOpen times inner shorter opened =>
    cases failed
    obtain ⟨rfl, place⟩ := readOpening_placed opened
    exact ⟨place.letter_suffix, '(', rfl, rfl⟩
  | case8 =>
    rename_i inGroup afterWildcard text start fromOpen times inner shorter opened body _ close rest
      closed behind found grouped ih
    cases failed
    obtain ⟨rfl, place⟩ := readOpening_placed opened
    exact readGroup_blemished place grouped
  | case9 =>
    rename_i inGroup text start fromOpen times inner shorter opened body _ close rest closed behind
      field grouped ih
    cases failed
    obtain ⟨rfl, place⟩ := readOpening_placed opened
    exact ⟨place.suffix, place.begins⟩
  | case10 =>
    rename_i inGroup afterWildcard text start fromOpen times inner shorter opened body bodyRead
      close rest closed behind field grouped free found others ihBody ih
    cases failed
    obtain ⟨rfl, place⟩ := readOpening_placed opened
    have bodySuffix : close :: rest <:+ inner := closed ▸ readRow_suffix bodyRead
    exact (ih others).within
      (((List.suffix_cons close rest).trans bodySuffix).trans place.behind)

/-- What is left behind the byte order ends the text. -/
theorem orderMark_suffix (text : List Char) : (orderMark text).2 <:+ text := by
  -- A mark is left out where one is found.
  have skipped := Text.skipBlank_suffix text
  unfold orderMark
  split
  · rename_i mark rest begins
    split
    · exact ((List.suffix_cons mark rest).trans (begins ▸ List.suffix_refl _)).trans skipped
    · exact skipped
  · exact skipped

/-- What is refused of a text is found in it, or is the whole of a text that is not empty. -/
theorem readText_blemished {text : List Char} {blemish : Blemish}
    (failed : readText text = .error blemish) :
    blemish.FoundIn text ∨ blemish.rest = text ∧ text ≠ [] ∧ blemish.defect.IsOfWhole := by
  have nonempty : text ≠ [] := by
    -- The empty text is a format.
    rintro rfl
    have empty : readText [] = .ok (.little, []) := by cbv
    cases empty.symm.trans failed
  rw [readText_eq] at failed
  -- A row was refused; or something is left behind it; or all fields together are too much.
  unfold readFields at failed
  split at failed
  · rename_i found
    cases failed
    exact .inl ((readRow_blemished found).within (orderMark_suffix text))
  · rename_i row rowRead
    obtain ⟨ends, _⟩ := readRow_written rowRead
    split_ifs at failed with closing unsized uncounted
    · cases failed
      obtain ⟨c, rest, begins⟩ := List.exists_cons_of_ne_nil (by simpa using closing)
      refine .inl ⟨(readRow_suffix rowRead).trans (orderMark_suffix text), c, ?_, ?_⟩
      · simp [begins]
      · exact ends c rest begins
    · cases failed
      exact .inr ⟨rfl, nonempty, .inl rfl⟩
    · cases failed
      exact .inr ⟨rfl, nonempty, .inr rfl⟩

/-- The length of a text is that of its bytes. -/
theorem byteLength_eq (text : List Char) : byteLength text = (String.ofList text).utf8ByteSize := by
  rw [String.utf8ByteSize_ofList]
  induction text with
  | nil => rfl
  | cons c rest ih => rw [byteLength, String.utf8Len_cons, ih, Nat.add_comm]

/-- A text that is not empty has bytes. -/
theorem byteLength_pos {text : List Char} (nonempty : text ≠ []) : 0 < byteLength text := by
  obtain ⟨c, rest, rfl⟩ := List.exists_cons_of_ne_nil nonempty
  rw [byteLength]
  have := c.utf8Size_pos
  omega

/-- Where the end of a text begins there is a boundary between characters, and what is sliced off
from there on is that end. -/
theorem slice_of_suffix {source : String} {rest : List Char} (suffix : rest <:+ source.toList) :
    ∃ position, ∃ boundary : String.Pos.Raw.IsValid source ⟨position⟩,
      position = byteLength source.toList - byteLength rest ∧
      position + byteLength rest = source.utf8ByteSize ∧
      (source.sliceFrom ⟨⟨position⟩, boundary⟩).copy = String.ofList rest := by
  obtain ⟨front, split⟩ := suffix
  -- The position is the length of what stands in front, which is a text of its own.
  have whole : source = String.ofList front ++ String.ofList rest := by
    rw [← String.ofList_append, split, String.ofList_toList]
  have size : source.utf8ByteSize = (String.ofList front).utf8ByteSize + byteLength rest := by
    rw [byteLength_eq, ← String.utf8ByteSize_append, ← whole]
  -- A text in front of another ends at a boundary.
  refine ⟨(String.ofList front).utf8ByteSize,
    String.Pos.Raw.isValid_iff_exists_append.mpr ⟨_, _, whole, rfl⟩, ?_, size.symm,
    String.Pos.Splits.copy_sliceFrom_eq ⟨whole, rfl⟩⟩
  rw [byteLength_eq, String.ofList_toList, size, Nat.add_sub_cancel]

/-- The slice of the first characters of a text has just these. -/
theorem copy_take (text : String) (n : Nat) :
    (text.take n).copy = String.ofList (text.toList.take n) := by
  rw [String.take, String.Slice.take_eq_sliceTo,
    (String.Slice.splits_nextn_startPos _ n).copy_sliceTo_eq, String.copy_toSlice]

/-- A blemish in front of some text is reported with its place and with the first characters. -/
theorem report_eq (source : String) (defect : Defect) {rest : List Char} (nonempty : rest ≠ []) :
    Blemish.report source ⟨defect, rest⟩ = ⟨source,
      .malformed (byteLength source.toList - byteLength rest)
        s!"{defect.message} (near {Text.quoted ((String.ofList rest).take 8).copy})"⟩ := by
  -- Only a snippet of no characters would be left out.
  have snippet : (rest.take 8).isEmpty = false := by simpa using nonempty
  rw [copy_take, String.toList_ofList]
  simp only [Blemish.report, snippetLength, snippet, Bool.false_eq_true, if_false]

/-- A text that is no format is refused together with a byte position in front of its end: there a
character begins that shows the defect, or all of the text is at fault. The message quotes the
first eight characters from there on. -/
theorem parse_error_placed {source : String} {error : FormatError}
    (failed : parse source = .error error) :
    ∃ (defect : Defect) (position : Nat) (behind : String),
      ∃ boundary : String.Pos.Raw.IsValid source ⟨position⟩,
        (source.sliceFrom ⟨⟨position⟩, boundary⟩).copy = behind ∧
        position < source.utf8ByteSize ∧
        (position = 0 ∧ defect.IsOfWhole ∨ ∃ c ∈ behind.toList.head?, defect.ShownBy c) ∧
        error = ⟨source, .malformed position
          s!"{defect.message} (near {Text.quoted (behind.take 8).copy})"⟩ := by
  unfold parse at failed
  split at failed
  · rename_i blemish refused
    cases failed
    -- Either way the rest of the blemish is an end of the text, and it is not empty.
    obtain ⟨suffix, nonempty, shown⟩ : blemish.rest <:+ source.toList ∧ blemish.rest ≠ [] ∧
        (blemish.rest = source.toList ∧ blemish.defect.IsOfWhole ∨
          ∃ c ∈ blemish.rest.head?, blemish.defect.ShownBy c) := by
      rcases readText_blemished refused with here | ⟨whole, notEmpty, ofWhole⟩
      · exact ⟨here.suffix, here.nonempty, .inr here.shown⟩
      · exact ⟨whole ▸ List.suffix_refl _, whole ▸ notEmpty, .inl ⟨whole, ofWhole⟩⟩
    obtain ⟨position, boundary, place, size, slice⟩ := slice_of_suffix suffix
    have bytes := byteLength_pos nonempty
    refine ⟨blemish.defect, position, _, boundary, slice, by omega, ?_, ?_⟩
    · -- All of the text begins at its first byte.
      rcases shown with ⟨whole, ofWhole⟩ | here
      · rw [whole, Nat.sub_self] at place
        exact .inl ⟨place, ofWhole⟩
      · rw [String.toList_ofList]
        exact .inr here
    · rw [place]
      exact report_eq source _ nonempty
  · cases failed

/-- Characters of several bytes stand in front of an unknown letter, which is one of them too. -/
theorem parse_error_placed_wide :
    parse "\u30002(B ∑≤h∀x∃yz)" = .error ⟨"\u30002(B ∑≤h∀x∃yz)",
      .malformed 7 "unknown type letter '∑' (near \"∑≤h∀x∃yz\")"⟩ ∧
    ∃ (defect : Defect) (behind : String),
      ∃ boundary : String.Pos.Raw.IsValid "\u30002(B ∑≤h∀x∃yz)" ⟨7⟩,
        (String.sliceFrom _ ⟨⟨7⟩, boundary⟩).copy = behind ∧
        7 < "\u30002(B ∑≤h∀x∃yz)".utf8ByteSize ∧ ∃ c ∈ behind.toList.head?, defect.ShownBy c := by
  -- The parser and the message are evaluated apart: one on characters, the other on bytes.
  have read : readText "\u30002(B ∑≤h∀x∃yz)".toList
      = .error ⟨.unknownLetter '∑', "∑≤h∀x∃yz)".toList⟩ := by cbv
  have reported : Blemish.report "\u30002(B ∑≤h∀x∃yz)" ⟨.unknownLetter '∑', "∑≤h∀x∃yz)".toList⟩
      = ⟨"\u30002(B ∑≤h∀x∃yz)", .malformed 7 "unknown type letter '∑' (near \"∑≤h∀x∃yz\")"⟩ := by
    decide +kernel
  have failed : parse "\u30002(B ∑≤h∀x∃yz)" = .error ⟨"\u30002(B ∑≤h∀x∃yz)",
      .malformed 7 "unknown type letter '∑' (near \"∑≤h∀x∃yz\")"⟩ := by
    rw [parse, read]
    exact congrArg Except.error reported
  -- The position that the theorem gives is the one in the message.
  obtain ⟨defect, position, behind, boundary, slice, size, shown, same⟩ :=
    parse_error_placed failed
  obtain ⟨rfl, _⟩ := FormatFault.malformed.inj (congrArg FormatError.fault same)
  refine ⟨failed, defect, behind, boundary, slice, size, ?_⟩
  rcases shown with ⟨⟨⟩, _⟩ | here
  exact here

end BoardRpc.Format
