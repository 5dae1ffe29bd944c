import BoardRpc.Format.Parser
import Mathlib

/-! Sound formats: what reading a format guarantees of its fields. -/

namespace BoardRpc

/-- Only a wildcard has no count. -/
theorem Repeat.eq_wildcard {times : Repeat} (uncounted : times.count? = none) :
    times = .wildcard := by
  -- The other two repeats are counts.
  cases times <;> first | rfl | cases uncounted

/-- Only the wildcard takes all that remains. -/
theorem Repeat.isWildcard_iff {times : Repeat} :
    times.isWildcard = true ↔ times = .wildcard := by
  cases times <;> simp [Repeat.isWildcard]

/-- What holds of leaves, and passes from a body to its group and from the parts of a row to the
row, holds of all fields and of all rows. -/
theorem Field.row_induction {P : Field → Prop} {Q : List Field → Prop}
    (primitive : ∀ kind times, P (.primitive kind times))
    (text : ∀ times, P (.text times)) (raw : ∀ length, P (.raw length))
    (group : ∀ body times, Q body → P (.group body times))
    (nil : Q []) (cons : ∀ field others, P field → Q others → Q (field :: others)) :
    (∀ field, P field) ∧ ∀ fields, Q fields :=
  -- Fields hold rows and rows hold fields, so both are treated at once.
  ⟨fun field => Field.rec primitive text raw group nil cons field,
    fun fields => Field.rec_1 primitive text raw group nil cons fields⟩

mutual

/-- A field whose groups have bodies, no wildcards inside, and repeat no body that may be empty. -/
def Field.Sound : Field → Prop
  | .primitive _ _ | .text _ | .raw _ => True
  | .group body times =>
    body ≠ [] ∧ RowSound true body ∧ (times ≠ .once → Field.totalMinSize body ≠ some 0)

/-- A row of such fields, where only the last may take all that remains: no padding, and nothing
inside a group. -/
def RowSound : Bool → List Field → Prop
  | _, [] => True
  | inGroup, field :: others =>
    field.Sound ∧
      (field.times = .wildcard → inGroup = false ∧ field.isPadding = false ∧ others = []) ∧
      RowSound inGroup others

end

/-- A format as reading accepts it: its fields are sound, and its size and its arguments can be
counted. -/
structure Format.Sound (format : Format) : Prop where
  fields : RowSound false format.fields
  size : (Field.totalMinSize format.fields).isSome
  arguments : (checkedArity format.fields).isSome

namespace Format

/-- A field whose size can be kept is passed on as it is. -/
theorem sized_ok {start : List Char} {field read : Field} (ok : sized start field = .ok read) :
    read = field := by
  -- The only other way out is an error.
  unfold sized at ok
  split at ok <;> cases ok
  rfl

/-- A leaf is no group, and no padding that takes all that remains. -/
theorem readLeaf_ok {start fromLetter : List Char} {times : Repeat} {letter : Char} {field : Field}
    (read : readLeaf start fromLetter times letter = .ok field) :
    field.Sound ∧ field.times = times ∧ (times = .wildcard → field.isPadding = false) := by
  -- Strings and runs of bytes have letters of their own, and all others are primitives.
  unfold readLeaf at read
  split at read
  · obtain rfl := sized_ok read
    exact ⟨by simp [Field.Sound], rfl, fun _ => rfl⟩
  · obtain rfl := sized_ok read
    exact ⟨by simp [Field.Sound], rfl, fun _ => rfl⟩
  · split at read
    · rename_i kind _
      split at read
      · cases read
      · rename_i noPadding
        obtain rfl := sized_ok read
        refine ⟨by simp [Field.Sound], rfl, ?_⟩
        -- A wildcard in front of padding is refused, so the letter is not that of padding.
        rintro rfl
        cases kind <;> simp_all [Field.isPadding, Repeat.isWildcard]
    · cases read

/-- A group that is accepted has a body, and repeats none that may be empty. -/
theorem readGroup_ok {start fromOpen : List Char} {times : Repeat} {body : List Field}
    {field : Field} (read : readGroup start fromOpen times body = .ok field) :
    field = .group body times ∧ body ≠ [] ∧
      (times ≠ .once → Field.totalMinSize body ≠ some 0) := by
  -- An empty body, a size that cannot be kept and a repeat of nothing are refused in turn.
  unfold readGroup at read
  split at read
  · cases read
  · rename_i nonempty
    split at read
    · cases read
    · rename_i kept size
      obtain rfl := sized_ok size
      split at read
      · cases read
      · rename_i repeats
        cases read
        exact ⟨rfl, by simpa using nonempty, by tauto⟩

/-- What is read in front of the next field, once it is not the end: a repeat that may stand
there, and behind it a letter. -/
theorem readOpening_ok {inGroup : Bool} {text : List Char} {opening : Opening text}
    (read : readOpening inGroup text = .ok opening) :
    match opening with
    | .stop _ _ => True
    | .leaf _ field _ _ => field.Sound ∧
        (field.times = .wildcard → inGroup = false ∧ field.isPadding = false)
    | .group _ _ times _ _ => times = .wildcard → inGroup = false := by
  unfold readOpening at read
  dsimp only at read
  -- The text ends, or a group is closed, or a repeat stands in front of a letter.
  split at read
  · cases read; trivial
  · split at read
    · cases read
    · split at read
      · cases read
      · rename_i times _ _ allowed
        -- A wildcard got past its check, so this is no group's body.
        have outside : times = .wildcard → inGroup = false := by
          rintro rfl
          simpa [Repeat.isWildcard] using allowed
        split at read
        · cases read
        · split at read
          · cases read; exact outside
          · split at read
            · cases read
            · rename_i leaf
              cases read
              obtain ⟨sound, rfl, noPadding⟩ := readLeaf_ok leaf
              exact ⟨sound, fun wildcard => ⟨outside wildcard, noPadding wildcard⟩⟩

/-- A row that is read is sound, and it is empty behind a wildcard. -/
theorem readRow_sound {inGroup afterWildcard : Bool} {text : List Char} {row : Row text}
    (read : readRow inGroup afterWildcard text = .ok row) :
    RowSound inGroup row.fields ∧ (afterWildcard = true → row.fields = []) := by
  -- The induction follows the reader: a body comes first, then what follows its group.
  fun_induction readRow inGroup afterWildcard text with
  | case1 | case3 | case4 | case6 | case7 | case8 | case9 | case10 => cases read
  | case2 => cases read; simp [RowSound]
  | case5 inGroup afterWildcard text start field rest shorter opened free others _ ih =>
    cases read
    -- A leaf is sound by itself, and behind a wildcard there is nothing.
    obtain ⟨sound, allowed⟩ := readOpening_ok opened
    obtain ⟨othersSound, last⟩ := ih ‹_›
    refine ⟨⟨sound, fun wildcard => ?_, othersSound⟩, by simp [free]⟩
    obtain ⟨outside, noPadding⟩ := allowed wildcard
    exact ⟨outside, noPadding, last (by simp [wildcard, Repeat.isWildcard])⟩
  | case11 =>
    rename_i inGroup afterWildcard text start fromOpen times inner shorter opened body _ _ _ _
      behind field closed free others _ ihBody ih
    cases read
    -- A group adds what is known of its body, which was read as the inside of a group.
    have allowed := readOpening_ok opened
    obtain ⟨rfl, nonempty, growing⟩ := readGroup_ok closed
    obtain ⟨othersSound, last⟩ := ih ‹_›
    refine ⟨⟨⟨nonempty, (ihBody ‹_›).1, growing⟩, fun wildcard => ?_, othersSound⟩, by simp [free]⟩
    have repeats : times = .wildcard := wildcard
    exact ⟨allowed repeats, rfl, last (by rw [repeats]; rfl)⟩

/-- Every format that is read is sound. -/
theorem parse_sound {source : String} {format : Format} (parsed : parse source = .ok format) :
    format.Sound := by
  unfold parse at parsed
  split at parsed
  · cases parsed
  · rename_i order fields read
    cases parsed
    -- The fields are a row outside of any group, and both totals were checked behind it.
    unfold readText at read
    dsimp only at read
    split at read
    · cases read
    · rename_i row rowRead
      split_ifs at read with _ unsized uncounted
      cases read
      obtain ⟨sound, _⟩ := readRow_sound rowRead
      exact ⟨sound, by simpa [Option.isSome_iff_ne_none] using unsized,
        by simpa [Option.isSome_iff_ne_none] using uncounted⟩

end Format

end BoardRpc
