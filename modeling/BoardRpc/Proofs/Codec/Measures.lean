import BoardRpc.Proofs.Codec.Positions
import BoardRpc.Proofs.Format.Locality

/-! Measures: every extent lies in its payload or tells what there is of it, so that the extents by
positions are the extents. -/

namespace BoardRpc

/-- A size within the payload, or a shortfall that tells how much there is and can be kept. -/
def Measured (data : Bytes) : Except Shortfall Nat → Prop
  | .ok size => size ≤ data.length
  | .error shortfall => shortfall.needed ≤ maxSize ∧ shortfall.available = data.length

/-- An extent that measures every payload whose length can be kept with one to spare. -/
def Measures (extent : Bytes → Except Shortfall Nat) : Prop :=
  ∀ data, data.length < maxSize → Measured data (extent data)

section Measures

variable {data : Bytes} {size : Nat} {entry : Bytes → Except Shortfall Nat}

/-- What stands from a position on is no longer than all there is. -/
theorem drop_fits {α : Type} {items : List α} (fits : items.length < maxSize) (position : Nat) :
    (items.drop position).length < maxSize := by
  rw [List.length_drop]
  exact Nat.lt_of_le_of_lt (Nat.sub_le _ _) fits

/-- Nor is what stands in front of it. -/
theorem take_fits {α : Type} {items : List α} (fits : items.length < maxSize) (position : Nat) :
    (items.take position).length < maxSize := by
  rw [List.length_take]
  exact Nat.lt_of_le_of_lt (Nat.min_le_right _ _) fits

/-- What is found lies in the payload. -/
theorem Measures.within (measures : Measures entry) (fits : data.length < maxSize)
    (found : entry data = .ok size) : size ≤ data.length := by
  have measured := measures data fits
  rwa [found] at measured

/-- What is measured behind some bytes is measured across them. -/
theorem Measured.across {result : Except Shortfall Nat} (within : size ≤ data.length)
    (behind : Measured (data.drop size) result) : Measured data (seenAcross size result) := by
  -- The bytes that are looked across are both needed and there.
  cases result with
  | error shortfall =>
    obtain ⟨_, available⟩ := behind
    rw [List.length_drop] at available
    refine ⟨Nat.min_le_right _ _, ?_⟩
    simp only [Shortfall.before, available]
    omega
  | ok others =>
    rw [Measured, List.length_drop] at behind
    simp only [seenAcross, Measured]
    omega

/-- A run of known length measures the payload. -/
theorem fixedExtent_measures (length : Nat) : Measures (fixedExtent length) := by
  -- A length too large to be kept is clamped before it is told.
  intro data _
  unfold fixedExtent
  split
  · rename_i enough
    exact hasAtLeast_iff.mp enough
  · exact ⟨Nat.min_le_right _ _, rfl⟩

/-- A string measures the payload. -/
theorem stringExtent_measures : Measures stringExtent := by
  -- Without a zero byte one byte more is needed than there is.
  intro data fits
  cases found : stringExtent data with
  | ok size => exact (stringExtent_local found).1
  | error shortfall =>
    unfold stringExtent at found
    split at found <;> cases found
    exact ⟨fits, rfl⟩

/-- What takes nothing lies in every payload. -/
theorem nothing_measures : Measures fun _ => .ok 0 := fun _ _ => Nat.zero_le _

/-- All that remains lies in every payload. -/
theorem rest_measures : Measures fun data => .ok data.length := fun _ _ => Nat.le_refl _

/-- Two extents, one behind the other, measure the payload as each of them does. -/
theorem Measures.chained {first others : Bytes → Except Shortfall Nat}
    (firstMeasures : Measures first) (othersMeasure : Measures others) :
    Measures (chained first others) := by
  -- A shortfall of the first is that of both, and otherwise the others decide across it.
  intro data fits
  have measured := firstMeasures data fits
  cases here : first data with
  | error shortfall =>
    rw [here] at measured
    rwa [chained_short here]
  | ok size =>
    rw [here] at measured
    rw [chained_found here]
    exact (othersMeasure (data.drop size) (drop_fits fits size)).across measured

/-- Entries in a row measure the payload as each of them does. -/
theorem repeatExtent_measures (each : Measures entry) (count : Nat) :
    Measures (repeatExtent entry count) :=
  repeatExtent_induction nothing_measures Measures.chained each count

/-- Every field and every row measures the payload. -/
theorem extent_measures :
    (∀ field : Field, Measures field.extent) ∧ ∀ fields : List Field,
      Measures (rowExtent fields) := by
  -- A wildcard takes all there is, and everything else has a count.
  obtain ⟨ofField, ofRow⟩ := extent_induction fixedExtent_measures stringExtent_measures
    nothing_measures Measures.chained
  -- What a wildcard takes lies in the payload too, so that nothing is asked of fields.
  exact ⟨fun field => ofField field fun _ _ _ => rest_measures,
    fun fields => ofRow fields fun _ _ _ => rest_measures⟩

end Measures

namespace Positions

section Access

variable {α : Type} {items : List α} {position size : Nat}

/-- In front of a position that lies within, there is something. -/
theorem front?_of_le (within : position ≤ items.length) :
    front? position items = some (items.take position) := if_pos within

/-- From a position on that lies within, there is something. -/
theorem rest?_of_le (within : position ≤ items.length) :
    rest? position items =
      some ⟨items.drop position, by rw [List.length_drop, Nat.add_sub_cancel' within]⟩ :=
  dif_pos within

/-- What lies within what stands from a position on lies within all there is. -/
theorem next_le (inside : position ≤ items.length) (within : size ≤ (items.drop position).length) :
    position + size ≤ items.length := by
  rw [List.length_drop] at within
  omega

/-- In front of the end there is something left. -/
theorem isEmpty_drop (before : position < items.length) :
    (items.drop position).isEmpty = false := by
  -- Something is dropped short of the end, so something stays.
  rw [List.isEmpty_eq_false_iff, ne_eq, List.drop_eq_nil_iff]
  exact Nat.not_le_of_lt before

/-- A position that lies within can be kept. -/
theorem checkedSize_of_le (within : position ≤ items.length) (fits : items.length < maxSize) :
    checkedSize position = some position := if_pos (Nat.le_of_lt (Nat.lt_of_le_of_lt within fits))

end Access

section Extents

variable {data : Bytes} {position : Nat}

/-- What is found from a position on, counted from the start of the data. -/
def counted (data : Bytes) (position : Nat) : Except Shortfall Nat → Except Shortfall Nat
  | .error shortfall => .error (Shortfall.offset shortfall position data.length)
  | .ok size => .ok (position + size)

/-- What is found from the start on is counted as it is. -/
theorem counted_zero {result : Except Shortfall Nat} (measured : Measured data result) :
    counted data 0 result = result := by
  -- A shortfall tells how much there is, and what it needs can be kept.
  cases result with
  | error shortfall =>
    obtain ⟨needed, available⟩ := shortfall
    obtain ⟨kept, rfl⟩ := measured
    simp only [counted, Shortfall.offset, clampedSize, Nat.add_zero, Nat.min_eq_left kept]
  | ok size => rw [counted, Nat.zero_add]

/-- What is seen across some bytes is counted from behind them. -/
theorem counted_seenAcross (data : Bytes) (position size : Nat) (result : Except Shortfall Nat) :
    counted data position (seenAcross size result) = counted data (position + size) result := by
  -- Clamping twice on the way is clamping once at the end.
  cases result with
  | error shortfall =>
    have clamped : clampedSize (clampedSize (shortfall.needed + size) + position) =
        clampedSize (shortfall.needed + (position + size)) := by
      unfold clampedSize
      omega
    simp only [seenAcross, counted, Shortfall.before, Shortfall.offset, clamped]
  | ok others => simp only [seenAcross, counted, Nat.add_assoc]

/-- What stands behind an extent is counted from where that ends. -/
theorem counted_chained {first others : Bytes → Except Shortfall Nat} {size : Nat}
    (found : first (data.drop position) = .ok size) :
    counted data position (chained first others (data.drop position)) =
      counted data (position + size) (others (data.drop (position + size))) := by
  rw [chained_found found, counted_seenAcross, List.drop_drop]

/-- Entries end where they do in what stands from their position on. -/
theorem entriesEnd_eq {reader? : Bytes → Option (Except Shortfall Nat)}
    {entry : Bytes → Except Shortfall Nat} (measures : Measures entry)
    (each : ∀ rest, rest.length < maxSize → reader? rest = some (entry rest))
    (fits : data.length < maxSize) (count : Nat) (within : position ≤ data.length) :
    entriesEnd reader? data count position =
      some (counted data position (repeatExtent entry count (data.drop position))) := by
  -- The induction is on the entries that are left; the position never leaves the data.
  induction count generalizing position with
  | zero => rfl
  | succ count ih =>
    have shorter := drop_fits fits position
    simp only [entriesEnd, rest?_of_le within, Option.bind_eq_bind, Option.bind_some,
      each _ shorter]
    cases here : entry (data.drop position) with
    -- The entry falls short where it stands, and the shortfall is counted from the start.
    | error shortfall => simp only [repeatExtent, here]; rfl
    | ok size =>
      by_cases empty : size = 0
      · -- An entry that takes nothing ends both loops.
        subst empty
        simp only [repeatExtent, here]; rfl
      · -- The next entry begins within the data.
        have next := next_le within (measures.within shorter here)
        simp only [if_neg empty, checkedSize_of_le next fits, Option.bind_some, ih next,
          repeatExtent_chained, counted_chained here]

/-- Strings end where they do in what stands from their position on. -/
theorem textsEnd_eq (fits : data.length < maxSize) (count : Nat)
    (within : position ≤ data.length) :
    textsEnd data count position =
      some (counted data position (repeatExtent stringExtent count (data.drop position))) := by
  -- Strings are entries, but for a shortfall, which is told of the data as a whole.
  induction count generalizing position with
  | zero => rfl
  | succ count ih =>
    simp only [textsEnd, rest?_of_le within, Option.bind_eq_bind, Option.bind_some]
    cases found : (data.drop position).idxOf? 0 with
    -- No zero byte is left, and one byte more than all the data would be needed.
    | none =>
      have here : stringExtent (data.drop position) =
          .error ⟨(data.drop position).length + 1, (data.drop position).length⟩ := by
        simp only [stringExtent, found]
      have needed : clampedSize ((data.drop position).length + 1 + position) = data.length + 1 := by
        rw [List.length_drop]
        unfold clampedSize
        omega
      have kept : checkedSize (data.length + 1) = some (data.length + 1) := if_pos fits
      simp only [kept, repeatExtent, here, counted, Shortfall.offset, needed]
      rfl
    -- The next string begins behind the zero byte, which lies in the data.
    | some index =>
      have here : stringExtent (data.drop position) = .ok (index + 1) := by
        simp only [stringExtent, found]
      have next := next_le within (stringExtent_local here).1
      simp only [checkedSize_of_le next fits, Option.bind_some, ih next, repeatExtent_chained,
        counted_chained here]

/-- The extent of a field is found by positions. -/
def FieldMeets (field : Field) : Prop :=
  ∀ data : Bytes, data.length < maxSize → extent field data = some (field.extent data)

/-- The same of the end of a row from any position on. -/
def RowMeets (fields : List Field) : Prop :=
  ∀ (data : Bytes) position, data.length < maxSize → position ≤ data.length →
    rowEnd fields data position =
      some (counted data position (rowExtent fields (data.drop position)))

/-- A row ends from the start on where its extent does. -/
theorem RowMeets.zero {fields : List Field} (row : RowMeets fields)
    (fits : data.length < maxSize) : rowEnd fields data 0 = some (rowExtent fields data) := by
  -- From the start on nothing is looked across.
  rw [row data 0 fits (Nat.zero_le _), List.drop_zero,
    counted_zero (extent_measures.2 fields data fits)]

/-- Every extent is found by positions. -/
theorem extent_eq : (∀ field, FieldMeets field) ∧ ∀ fields, RowMeets fields := by
  -- Only strings and groups are walked over, from the start of the data on.
  apply Field.row_induction
  · intro kind times data _
    rw [extent, Field.extent]
    cases times.count? <;> rfl
  · -- Strings without a count take all there is, and no string is looked for.
    intro times data fits
    rw [extent, Field.extent]
    cases times.count? with
    | none => rfl
    | some count =>
      have measured := repeatExtent_measures stringExtent_measures count data fits
      exact (textsEnd_eq fits count (Nat.zero_le _)).trans (congrArg some (counted_zero measured))
  · intro length data _
    rw [extent, Field.extent]
    cases length.count? <;> rfl
  · -- Each entry is a row from the start of what is left.
    intro body times row data fits
    rw [extent, Field.extent]
    cases times.count? with
    | none => rfl
    | some count =>
      have measures : Measures fun rest => rowExtent body rest := extent_measures.2 body
      have measured := repeatExtent_measures measures count data fits
      exact (entriesEnd_eq measures (fun _ shorter => row.zero shorter) fits count
        (Nat.zero_le _)).trans (congrArg some (counted_zero measured))
  · intro data position _ _
    rfl
  · -- The first field is found where it stands, and the others behind it.
    intro field others fieldMeets othersMeet data position fits within
    have shorter := drop_fits fits position
    simp only [rowEnd, rest?_of_le within, Option.bind_eq_bind, Option.bind_some,
      fieldMeets _ shorter]
    cases here : field.extent (data.drop position) with
    -- What falls short here is told of the whole data.
    | error shortfall => simp only [rowExtent, here]; rfl
    | ok size =>
      have next := next_le within ((extent_measures.1 field).within shorter here)
      simp only [checkedSize_of_le next fits, Option.bind_some, othersMeet data _ fits next,
        rowExtent_chained, counted_chained here]

end Extents

end Positions

end BoardRpc
