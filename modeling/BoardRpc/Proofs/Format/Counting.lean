import BoardRpc.Proofs.Codec.Restore
import BoardRpc.Proofs.Format.Admissible

/-! Counting arguments against bytes: every argument takes a byte at least, unless it is a run or a
group that may be empty, so that a size that can be kept almost bounds the number of arguments. -/

namespace BoardRpc

/-- The fewest arguments of a field. -/
def Arity.least : Arity → Nat
  | .exact n | .atLeast n => n

/-- The fewest arguments of fields in a row, however large their number is. -/
def argumentsOf (fields : List Field) : Nat := (fields.map fun field => field.arity.least).sum

/-- Whether a field is one argument that may take no bytes. Only runs and groups are. -/
def Field.isHollow : Field → Bool
  | .primitive _ _ | .text _ => false
  | .raw length => (Field.raw length).minSize == some 0
  | .group body times => (Field.group body times).minSize == some 0

namespace Field

variable {field : Field} {fields : List Field} {size : Nat}

/-- A single argument has a byte to stand for it, unless it is hollow. -/
theorem one_le_size_or_hollow {hollow : Bool} (told : hollow = (field.minSize == some 0))
    (sized : field.minSize = some size) : 1 ≤ size + hollow.toNat := by
  -- A size of nothing is what makes the field hollow.
  rw [told, sized]
  cases size with
  | zero => exact Nat.le_refl 1
  | succ less => omega

/-- A field that repeats a known number of times has a known number of arguments: at most as many
as it has bytes, and one more if it is hollow. -/
theorem arguments_le_size (narrow : field.times ≠ .wildcard) (sized : field.minSize = some size) :
    ∃ n, field.arity = .exact n ∧ n ≤ size + field.isHollow.toNat := by
  obtain ⟨n, counted⟩ := Codec.arity_exact narrow
  refine ⟨n, counted, ?_⟩
  cases field with
  | primitive kind times =>
    by_cases padding : kind = .pad
    · -- Padding takes no argument at all.
      subst padding
      cases counted
      exact Nat.zero_le _
    · -- Every value takes its width, which is one byte at least.
      obtain ⟨rfl, _⟩ := checkedSize_some sized
      rw [Codec.arity_primitive padding] at counted
      have positive := kind.width_pos
      cases times with
      | once =>
        cases counted
        simp only [Repeat.count?, Option.getD_some]
        omega
      | count m =>
        cases counted
        simp only [Repeat.count?, Option.getD_some]
        have := Nat.le_mul_of_pos_left n positive
        omega
      | wildcard => exact absurd rfl narrow
  | text times =>
    -- Every string takes its zero byte.
    cases sized
    cases times with
    | once | count =>
      cases counted
      exact Nat.le_add_right _ _
    | wildcard => exact absurd rfl narrow
  -- A run is one argument, and so is a group.
  | raw length =>
    cases counted
    exact one_le_size_or_hollow rfl sized
  | group body times =>
    cases counted
    exact one_le_size_or_hollow rfl sized

/-- The arguments of a row that repeats nothing without end are counted exactly, as long as their
number can be kept. -/
theorem checkedArity_eq (narrow : ∀ field ∈ fields, field.times ≠ .wildcard) :
    checkedArity fields
      = if argumentsOf fields ≤ maxSize then some (.exact (argumentsOf fields)) else none := by
  -- Sums only grow, so that a sum on the way is kept if the whole one is.
  have onward : ∀ before, before ≤ maxSize →
      fields.foldlM (fun (total : Arity) field => total.checkedAdd field.arity) (.exact before)
        = if before + argumentsOf fields ≤ maxSize
          then some (.exact (before + argumentsOf fields)) else none := by
    induction fields with
    | nil =>
      intro before kept
      have whole : before + argumentsOf [] = before := rfl
      rw [whole, if_pos kept]
      rfl
    | cons field others ih =>
      intro before _
      obtain ⟨n, counted⟩ := Codec.arity_exact (narrow field (.head _))
      have total : before + argumentsOf (field :: others) = before + n + argumentsOf others := by
        simp only [argumentsOf, List.map_cons, List.sum_cons, counted, Arity.least, Nat.add_assoc]
      have step : (Arity.exact before).checkedAdd field.arity
          = (checkedSize (before + n)).map .exact := by
        rw [counted]
        rfl
      rw [List.foldlM_cons, step, total, checkedSize]
      by_cases kept : before + n ≤ maxSize
      · rw [if_pos kept]
        exact ih (fun field here => narrow field (.tail _ here)) (before + n) kept
      · have tooMany : ¬ before + n + argumentsOf others ≤ maxSize := by omega
        rw [if_neg kept, if_neg tooMany]
        rfl
  -- At first nothing has been counted.
  have whole := onward 0 (Nat.zero_le _)
  rw [Nat.zero_add] at whole
  exact whole

/-- The arguments of a row that repeats nothing without end are at most as many as it has bytes, and
one more for each of its hollow fields. -/
theorem argumentsOf_le_size (narrow : ∀ field ∈ fields, field.times ≠ .wildcard)
    (sized : totalMinSize fields = some size) :
    argumentsOf fields ≤ size + fields.countP isHollow := by
  -- Bytes and hollow fields add up over the row as the arguments do.
  induction fields generalizing size with
  | nil => exact Nat.zero_le _
  | cons field others ih =>
    obtain ⟨first, rest, hereSized, restSized, rfl, _⟩ := totalMinSize_cons sized
    obtain ⟨n, counted, bound⟩ := arguments_le_size (narrow field (.head _)) hereSized
    have others_le := ih (fun field here => narrow field (.tail _ here)) restSized
    have total : argumentsOf (field :: others) = n + argumentsOf others := by
      simp only [argumentsOf, List.map_cons, List.sum_cons, counted, Arity.least]
    have hollow : (field :: others).countP isHollow
        = others.countP isHollow + field.isHollow.toNat := by
      rw [List.countP_cons]
      cases field.isHollow <;> rfl
    omega

/-- The size of a row is kept only if it can be. -/
theorem totalMinSize_le (sized : totalMinSize fields = some size) : size ≤ maxSize := by
  -- The sum of a row is tested when its first field is added.
  cases fields with
  | nil =>
    cases sized
    exact Nat.zero_le _
  | cons field others =>
    obtain ⟨first, rest, _, _, rfl, fits⟩ := totalMinSize_cons sized
    exact fits

/-- In a group nothing is repeated without end. -/
theorem narrow_of_sound (sound : RowSound true fields) :
    ∀ field ∈ fields, field.times ≠ .wildcard := by
  -- A field without end would have to stand outside of all groups.
  induction fields with
  | nil => simp
  | cons field others ih =>
    obtain ⟨_, outside, othersSound⟩ := sound
    intro part here wildcard
    rcases List.mem_cons.mp here with rfl | there
    · cases (outside wildcard).1
    · exact ih othersSound part there wildcard

end Field

/-- The bodies of groups are sound and have a size that can be kept, at every depth. -/
def BodiesSized (parts : List Field) : Prop :=
  ∀ body times, .group body times ∈ parts →
    RowSound true body ∧ (Field.totalMinSize body).isSome

/-- What is known of a format's fields passes to the bodies of all groups among them. -/
theorem bodies_sized :
    (∀ field : Field, field.Sound → field.minSize.isSome → BodiesSized (field :: field.inside)) ∧
    ∀ fields inGroup, RowSound inGroup fields → (Field.totalMinSize fields).isSome →
      BodiesSized (rowParts fields) := by
  -- By induction on fields and rows, as groups have bodies and these have groups.
  refine Field.row_induction ?_ ?_ ?_ ?_ ?_ ?_
  -- Numbers, strings and runs have no group inside.
  · intro kind times _ _ body outer here
    cases List.mem_singleton.mp here
  · intro times _ _ body outer here
    cases List.mem_singleton.mp here
  · intro length _ _ body outer here
    cases List.mem_singleton.mp here
  · intro inner times row sound sized body outer here
    -- The size of a group is kept only if that of its body is.
    obtain ⟨_, innerSound, _⟩ := sound
    obtain ⟨size, total⟩ := Option.isSome_iff_exists.mp sized
    obtain ⟨each, innerSized, _⟩ := minSize_group total
    have kept : (Field.totalMinSize inner).isSome := by rw [innerSized]; rfl
    rcases List.mem_cons.mp here with same | deeper
    · -- This very group, or one somewhere in its body.
      cases same
      exact ⟨innerSound, kept⟩
    · exact row true innerSound kept body outer deeper
  · intro inGroup _ _ body outer here
    cases here
  · intro field others fieldBodies othersBodies inGroup sound sized body outer here
    obtain ⟨fieldSound, _, othersSound⟩ := sound
    obtain ⟨size, total⟩ := Option.isSome_iff_exists.mp sized
    obtain ⟨first, rest, hereSized, restSized, _⟩ := totalMinSize_cons total
    have hereKept : field.minSize.isSome := by rw [hereSized]; rfl
    have restKept : (Field.totalMinSize others).isSome := by rw [restSized]; rfl
    rw [rowParts, ← List.cons_append] at here
    -- A group stands in the first field, or in one behind it.
    rcases List.mem_append.mp here with inside | behind
    · exact fieldBodies fieldSound hereKept body outer inside
    · exact othersBodies inGroup othersSound restKept body outer behind

namespace Format

/-- In a format that can be read, the arguments of the whole are counted. The arguments of the body
of a group, at whatever depth, are counted exactly as long as their number can be kept. That number
is at most the size of the body, which can be kept, and one more for each run or group in the body
that may be empty; so a body without any of these is always counted. -/
theorem bodies_counted {source : String} {format : Format} (parsed : parse source = .ok format) :
    (checkedArity format.fields).isSome ∧
    ∀ body times, .group body times ∈ rowParts format.fields →
      checkedArity body = (if argumentsOf body ≤ maxSize then some (.exact (argumentsOf body))
        else none) ∧
      (∃ size, Field.totalMinSize body = some size ∧ size ≤ maxSize ∧
        argumentsOf body ≤ size + body.countP Field.isHollow) ∧
      ((∀ field ∈ body, field.isHollow = false) →
        checkedArity body = some (.exact (argumentsOf body))) := by
  obtain ⟨fieldsSound, size, counted⟩ := parse_sound parsed
  refine ⟨counted, fun body times here => ?_⟩
  obtain ⟨bodySound, bodySized⟩ :=
    bodies_sized.2 format.fields false fieldsSound size body times here
  -- In a body nothing is repeated without end, so that all arguments are counted.
  have narrow := Field.narrow_of_sound bodySound
  obtain ⟨least, total⟩ := Option.isSome_iff_exists.mp bodySized
  have bound := Field.argumentsOf_le_size narrow total
  have exactly := Field.checkedArity_eq narrow
  have fits : least ≤ maxSize := Field.totalMinSize_le total
  refine ⟨exactly, ⟨least, total, fits, bound⟩, fun solid => ?_⟩
  -- Without hollow fields there are no more arguments than bytes.
  have none : body.countP Field.isHollow = 0 := by
    rw [List.countP_eq_zero]
    intro field there hollow
    cases (solid field there).symm.trans hollow
  have kept : argumentsOf body ≤ maxSize := by omega
  rw [exactly, if_pos kept]

/-- Two strings and an empty run are three arguments of the body that they make up, in a group
within a group. -/
theorem bodies_counted_nested : ∃ format body, parse "(B(2S0X))" = .ok format ∧
    .group body .once ∈ rowParts format.fields ∧ checkedArity body = some (.exact 3) := by
  have parsed : parse "(B(2S0X))" = .ok ⟨"(B(2S0X))", .little, [.group [.primitive .uint8 .once,
      .group [.text (.count 2), .raw (.count 0)] .once] .once]⟩ := by cbv
  have inside : Field.group [.text (.count 2), .raw (.count 0)] .once
      ∈ rowParts [.group [.primitive .uint8 .once,
        .group [.text (.count 2), .raw (.count 0)] .once] .once] := by
    simp [rowParts, Field.inside]
  -- The theorem counts the body wherever it stands; the limit is far away.
  obtain ⟨counted, _⟩ := (bodies_counted parsed).2 _ _ inside
  exact ⟨_, _, parsed, inside, counted.trans (if_pos (by decide))⟩

/-- As many single bytes as can be counted, with an empty run behind them, make a body with one
argument too many. -/
theorem body_not_counted : ∃ format body,
    parse "(18446744073709551615B0X)" = .ok format ∧ .group body .once ∈ rowParts format.fields ∧
      Field.totalMinSize body = some maxSize ∧ checkedArity body = none := by
  have parsed : parse "(18446744073709551615B0X)" = .ok ⟨"(18446744073709551615B0X)", .little,
      [.group [.primitive .uint8 (.count 18446744073709551615), .raw (.count 0)] .once]⟩ := by cbv
  exact ⟨_, _, parsed, .head _, by decide, by decide⟩

end Format

end BoardRpc
