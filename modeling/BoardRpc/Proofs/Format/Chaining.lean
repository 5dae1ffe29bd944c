import BoardRpc.Proofs.Format.Admissible
import BoardRpc.Proofs.Format.Extent

/-! Extents one behind the other: rows of fields and repeated entries are made of the same step, so
that what holds of their leaves and passes through that step holds of all fields. -/

namespace BoardRpc

/-- What is found behind so many bytes, as seen from in front of them. -/
def seenAcross (size : Nat) : Except Shortfall Nat → Except Shortfall Nat
  | .error shortfall => .error (shortfall.before size)
  | .ok others => .ok (size + others)

/-- One extent, and another one behind it. -/
def chained (first others : Bytes → Except Shortfall Nat) (data : Bytes) : Except Shortfall Nat :=
  (first data).bind fun size => seenAcross size (others (data.drop size))

/-- The extent of entries in a row, each of which is looked for, whatever those before it took. -/
def everyExtent (entry : Bytes → Except Shortfall Nat) : Nat → Bytes → Except Shortfall Nat
  | 0, _ => .ok 0
  | count + 1, data =>
    (entry data).bind fun size => seenAcross size (everyExtent entry count (data.drop size))

section Chains

variable {first others entry : Bytes → Except Shortfall Nat} {data : Bytes} {size : Nat}

/-- What stands behind an extent that is found is seen across it. -/
theorem chained_found (found : first data = .ok size) :
    chained first others data = seenAcross size (others (data.drop size)) := by
  rw [chained, found]
  rfl

/-- Behind an extent that falls short nothing is looked for. -/
theorem chained_short {shortfall : Shortfall} (missing : first data = .error shortfall) :
    chained first others data = .error shortfall := by
  rw [chained, missing]
  rfl

/-- Two extents are found if the first is, and the other behind it. -/
theorem chained_ok (found : chained first others data = .ok size) :
    ∃ front back, first data = .ok front ∧ others (data.drop front) = .ok back ∧
      size = front + back := by
  -- There is no extent behind one that falls short, so both must have been found.
  cases here : first data with
  | error shortfall =>
    rw [chained_short here] at found
    cases found
  | ok front =>
    rw [chained_found here] at found
    cases there : others (data.drop front) with
    | error shortfall =>
      rw [there] at found
      cases found
    | ok back =>
      rw [there] at found
      cases found
      exact ⟨front, back, rfl, there, rfl⟩

/-- A row is its first field and the others behind it. -/
theorem rowExtent_chained (field : Field) (others : List Field) :
    rowExtent (field :: others) = chained field.extent (rowExtent others) := by
  funext data
  -- The definition of a row decides in the same order, first here and then behind.
  cases here : field.extent data with
  | error shortfall =>
    rw [chained_short here]
    simp only [rowExtent, here]
  | ok size =>
    rw [chained_found here]
    simp only [rowExtent, here]
    cases rowExtent others (data.drop size) <;> rfl

/-- Where one entry takes nothing, any number of them do. -/
theorem everyExtent_empty (empty : entry data = .ok 0) (count : Nat) :
    everyExtent entry count data = .ok 0 := by
  -- The data is the same for each entry, as none before it has taken any.
  induction count with
  | zero => rfl
  | succ count ih =>
    show chained entry (everyExtent entry count) data = .ok 0
    rw [chained_found empty, List.drop_zero, ih]
    rfl

/-- Stopping at an entry that takes nothing finds what looking for every entry finds. -/
theorem repeatExtent_eq_everyExtent (entry : Bytes → Except Shortfall Nat) (count : Nat) :
    repeatExtent entry count = everyExtent entry count := by
  -- By induction on the entries that are left, for whatever data they stand in.
  induction count with
  | zero => rfl
  | succ count ih =>
    funext data
    show _ = chained entry (everyExtent entry count) data
    cases here : entry data with
    | error shortfall =>
      rw [chained_short here]
      simp only [repeatExtent, here]
    | ok size =>
      rw [chained_found here]
      cases size with
      | zero =>
        -- The walk stops here, and from here on nothing is taken.
        rw [List.drop_zero, everyExtent_empty here]
        simp only [repeatExtent, here]
        rfl
      | succ less =>
        rw [← ih]
        simp only [repeatExtent, here]
        cases repeatExtent entry count (data.drop (less + 1)) <;> rfl

/-- One more entry is the first of them, and the others behind it. -/
theorem repeatExtent_chained (entry : Bytes → Except Shortfall Nat) (count : Nat) :
    repeatExtent entry (count + 1) = chained entry (repeatExtent entry count) := by
  -- The walk that looks for every entry is a chain by definition.
  rw [repeatExtent_eq_everyExtent, repeatExtent_eq_everyExtent]
  rfl

end Chains

section Induction

variable {P : (Bytes → Except Shortfall Nat) → Prop}

/-- What holds of an entry, and passes to extents one behind the other, holds of repeated
entries. -/
theorem repeatExtent_induction (nothing : P fun _ => .ok 0)
    (chain : ∀ {first others}, P first → P others → P (chained first others))
    {entry : Bytes → Except Shortfall Nat} (each : P entry) (count : Nat) :
    P (repeatExtent entry count) := by
  -- By induction on the entries: one more of them is one more link of the chain.
  induction count with
  | zero => exact nothing
  | succ count ih =>
    rw [repeatExtent_chained]
    exact chain each ih

/-- What holds of runs and strings, and passes to extents one behind the other, holds of all fields
and of all rows. Where a field takes all that remains, it has to hold of that too. -/
theorem extent_induction (fixed : ∀ length, P (fixedExtent length)) (string : P stringExtent)
    (nothing : P fun _ => .ok 0)
    (chain : ∀ {first others}, P first → P others → P (chained first others)) :
    (∀ field : Field, (∀ part ∈ field :: field.inside, part.times = .wildcard →
      P fun data => .ok data.length) → P field.extent) ∧
    ∀ fields : List Field, (∀ part ∈ rowParts fields, part.times = .wildcard →
      P fun data => .ok data.length) → P (rowExtent fields) := by
  -- Without a count a field takes what is left, and with one it is a run or repeated entries.
  apply Field.row_induction
  · -- A slot, strings, a run and a group in this order, and after them the two kinds of rows.
    intro kind times rest
    cases counted : times.count? with
    | none => simpa only [Field.extent, counted] using rest _ (.head _) (Repeat.eq_wildcard counted)
    | some count => simpa only [Field.extent, counted] using fixed (kind.width * count)
  · intro times rest
    cases counted : times.count? with
    | none => simpa only [Field.extent, counted] using rest _ (.head _) (Repeat.eq_wildcard counted)
    | some count =>
      simpa only [Field.extent, counted] using repeatExtent_induction nothing chain string count
  · intro length rest
    cases counted : length.count? with
    | none => simpa only [Field.extent, counted] using rest _ (.head _) (Repeat.eq_wildcard counted)
    | some count => simpa only [Field.extent, counted] using fixed count
  · intro body times row rest
    -- What is said of the parts inside a group is said of its row.
    obtain ⟨here, inside⟩ := List.forall_mem_cons.mp rest
    cases counted : times.count? with
    | none => simpa only [Field.extent, counted] using here (Repeat.eq_wildcard counted)
    | some count =>
      simpa only [Field.extent, counted] using
        repeatExtent_induction nothing chain (row inside) count
  · intro _
    exact nothing
  · intro field others fieldHolds othersHold rest
    obtain ⟨here, inside, behind⟩ := forall_rowParts_cons.mp rest
    rw [rowExtent_chained]
    exact chain (fieldHolds (List.forall_mem_cons.mpr ⟨here, inside⟩)) (othersHold behind)

/-- Where no part takes all that remains, nothing has to hold of that. -/
theorem extent_induction_narrow (fixed : ∀ length, P (fixedExtent length)) (string : P stringExtent)
    (nothing : P fun _ => .ok 0)
    (chain : ∀ {first others}, P first → P others → P (chained first others)) :
    (∀ field : Field, (∀ part ∈ field :: field.inside, part.times ≠ .wildcard) → P field.extent) ∧
    ∀ fields : List Field, (∀ part ∈ rowParts fields, part.times ≠ .wildcard) →
      P (rowExtent fields) := by
  -- A part that takes all that remains is excluded, so there is nothing to show of it.
  obtain ⟨ofField, ofRow⟩ := extent_induction fixed string nothing chain
  exact ⟨fun field narrow => ofField field fun part inside wild => absurd wild (narrow part inside),
    fun fields narrow => ofRow fields fun part inside wild => absurd wild (narrow part inside)⟩

end Induction

end BoardRpc
