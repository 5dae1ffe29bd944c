import BoardRpc.Format.Extent
import BoardRpc.Proofs.Format.Sound

/-! Extents of what is known to stand at the front of a payload, and their lower bounds. -/

namespace BoardRpc

/-- A size that can be kept is the size itself. -/
theorem checkedSize_some {n size : Nat} (kept : checkedSize n = some size) :
    size = n ∧ n ≤ maxSize := by
  -- What is too large is not kept at all.
  unfold checkedSize at kept
  split at kept <;> cases kept
  exact ⟨rfl, ‹_›⟩

/-- A run of known length takes its length from any payload that begins with it. -/
theorem fixedExtent_append {data : Bytes} (fits : data.length ≤ maxSize) (tail : Bytes) :
    fixedExtent data.length (data ++ tail) = .ok data.length := by
  -- A length that can be kept is not clamped.
  have clamped : clampedSize data.length = data.length := Nat.min_eq_left fits
  simp [fixedExtent, clamped]

/-- A run that is found is as long as it should be. -/
theorem fixedExtent_ok {length size : Nat} {data : Bytes}
    (found : fixedExtent length data = .ok size) : size = clampedSize length := by
  -- A shortage is an error, so the clamped length is all that can be found.
  unfold fixedExtent at found
  split at found <;> cases found
  rfl

/-- The first zero byte ends the text in front of it. -/
theorem idxOf?_zero {text : Bytes} (nonzero : 0 ∉ text) (tail : Bytes) :
    (text ++ 0 :: tail).idxOf? 0 = some text.length := by
  -- Every byte of the text is passed over, as none is zero.
  induction text with
  | nil => simp [List.idxOf?_cons]
  | cons byte rest ih =>
    simp only [List.mem_cons, not_or] at nonzero
    have other : ¬ byte = 0 := fun same => nonzero.1 same.symm
    simp [List.idxOf?_cons, other, ih nonzero.2]

/-- A string takes its bytes and its zero byte. -/
theorem stringExtent_append {text : Bytes} (nonzero : 0 ∉ text) (tail : Bytes) :
    stringExtent (text ++ 0 :: tail) = .ok (text.length + 1) := by
  simp [stringExtent, idxOf?_zero nonzero]

/-- A string takes at least its zero byte. -/
theorem stringExtent_pos {data : Bytes} {size : Nat} (found : stringExtent data = .ok size) :
    1 ≤ size := by
  -- The index of the zero byte counts the bytes in front of it.
  unfold stringExtent at found
  split at found <;> cases found
  omega

/-- An entry that takes something is followed by the entries behind it. -/
theorem repeatExtent_succ {entry : Bytes → Except Shortfall Nat} {count size others : Nat}
    {data : Bytes} (first : entry data = .ok size) (positive : 0 < size)
    (rest : repeatExtent entry count (data.drop size) = .ok others) :
    repeatExtent entry (count + 1) data = .ok (size + others) := by
  -- The walk stops at an entry of no bytes, which this one is not.
  obtain ⟨less, rfl⟩ := Nat.exists_eq_add_of_le' positive
  simp [repeatExtent, first, rest]

/-- Entries that are found are none, or one that takes nothing, or one followed by others. -/
theorem repeatExtent_ok {entry : Bytes → Except Shortfall Nat} {count size : Nat} {data : Bytes}
    (found : repeatExtent entry count data = .ok size) :
    (count = 0 ∧ size = 0) ∨ (0 < count ∧ entry data = .ok 0 ∧ size = 0) ∨
      ∃ less first others, count = less + 1 ∧ entry data = .ok first ∧ 0 < first ∧
        repeatExtent entry less (data.drop first) = .ok others ∧ size = first + others := by
  -- The three ways in which the walk comes to its end, or goes on.
  cases count with
  | zero =>
    cases found
    exact .inl ⟨rfl, rfl⟩
  | succ less =>
    simp only [repeatExtent] at found
    split at found
    · cases found
    · -- An entry of no bytes ends the walk, however many were to follow.
      rename_i first
      cases found
      exact .inr (.inl ⟨by omega, first, rfl⟩)
    · rename_i first nonzero here
      have positive : 0 < first := Nat.pos_of_ne_zero fun zero => nonzero zero
      split at found
      · cases found
      · rename_i others rest
        cases found
        exact .inr (.inr ⟨less, first, others, rfl, here, positive, rest, rfl⟩)

/-- Entries of a least size take at least that size each. -/
theorem mul_le_repeatExtent {entry : Bytes → Except Shortfall Nat} {least : Nat}
    (bound : ∀ {data size}, entry data = .ok size → least ≤ size) {count size : Nat}
    {data : Bytes} (found : repeatExtent entry count data = .ok size) : least * count ≤ size := by
  -- The entries are walked over one by one, and each adds at least the least size.
  induction count generalizing data size with
  | zero => simp
  | succ count ih =>
    rcases repeatExtent_ok found with
      ⟨none, _⟩ | ⟨_, empty, rfl⟩ | ⟨less, first, others, same, here, _, rest, rfl⟩
    · cases none
    · -- An entry that takes nothing has nothing for its least size.
      have := bound empty
      obtain rfl : least = 0 := by omega
      simp
    · cases same
      have := bound here
      have := ih rest
      rw [Nat.mul_succ]
      omega

/-- The least size of the field can be kept. -/
def Field.Sized (field : Field) : Prop := ∃ size, field.minSize = some size ∧ size ≤ maxSize

/-- The parts of a row whose size can be kept have sizes that can be kept. -/
theorem totalMinSize_cons {field : Field} {others : List Field} {size : Nat}
    (total : Field.totalMinSize (field :: others) = some size) :
    ∃ first rest, field.minSize = some first ∧ Field.totalMinSize others = some rest ∧
      size = first + rest ∧ first + rest ≤ maxSize := by
  -- A row has a size only if both parts have one and their sum can be kept.
  simp only [Field.totalMinSize] at total
  split at total
  · rename_i first rest here there
    obtain ⟨rfl, fits⟩ := checkedSize_some total
    exact ⟨first, rest, here, there, rfl, fits⟩
  · cases total

/-- The body of a group whose size can be kept has a size that can be kept. -/
theorem minSize_group {body : List Field} {times : Repeat} {size : Nat}
    (total : (Field.group body times).minSize = some size) :
    ∃ each, Field.totalMinSize body = some each ∧ size = each * times.count?.getD 0 := by
  -- The size of a group is that of its body as often as it is repeated.
  simp only [Field.minSize] at total
  split at total
  · rename_i each here
    obtain ⟨rfl, _⟩ := checkedSize_some total
    exact ⟨each, here, rfl⟩
  · cases total

/-- A row is found when its first field is found, and the others behind it. -/
theorem rowExtent_cons {field : Field} {others : List Field} {data : Bytes} {size : Nat} :
    rowExtent (field :: others) data = .ok size ↔
      ∃ first rest, field.extent data = .ok first ∧
        rowExtent others (data.drop first) = .ok rest ∧ size = first + rest := by
  -- A shortfall of either part is one of the row.
  simp only [rowExtent]
  constructor
  · intro found
    split at found
    · cases found
    · rename_i first here
      split at found
      · cases found
      · rename_i rest there
        cases found
        exact ⟨first, rest, here, there, rfl⟩
  · rintro ⟨first, rest, here, there, rfl⟩
    simp [here, there]

/-- What is found for a field or a row is at least its least size, if that can be kept. -/
theorem minSize_le_extent :
    (∀ field : Field, ∀ {data : Bytes} {size least : Nat}, field.extent data = .ok size →
      field.minSize = some least → least ≤ maxSize → least ≤ size) ∧
    ∀ fields : List Field, ∀ {data : Bytes} {size least : Nat},
      rowExtent fields data = .ok size → Field.totalMinSize fields = some least → least ≤ size := by
  -- Leaves are measured one by one, and a group by what each of its entries takes.
  apply Field.row_induction
  · -- The least size of elements is what a count asks for, and nothing for a wildcard.
    intro kind times data size least found total fits
    obtain ⟨rfl, _⟩ := checkedSize_some total
    simp only [Field.extent] at found
    split at found
    · rename_i count counted
      rw [counted] at fits ⊢
      rw [fixedExtent_ok found]
      exact Nat.le_min.mpr ⟨Nat.le_refl _, fits⟩
    · rename_i wild
      simp [wild]
  · -- Every string takes at least its zero byte.
    intro times data size least found total _
    cases total
    simp only [Field.extent] at found
    split at found
    · rename_i count counted
      simpa [counted] using mul_le_repeatExtent stringExtent_pos found
    · rename_i wild
      simp [wild]
  · -- A run of bytes is as long as it is declared.
    intro times data size least found total fits
    cases total
    simp only [Field.extent] at found
    split at found
    · rename_i count counted
      rw [counted] at fits ⊢
      rw [fixedExtent_ok found]
      exact Nat.le_min.mpr ⟨Nat.le_refl _, fits⟩
    · rename_i wild
      simp [wild]
  · -- Every entry takes at least the least size of the body.
    intro body times bodyBound data size least found total _
    obtain ⟨each, eachTotal, rfl⟩ := minSize_group total
    simp only [Field.extent] at found
    split at found
    · rename_i count counted
      have bound : ∀ {data size}, rowExtent body data = .ok size → each ≤ size :=
        fun found => bodyBound found eachTotal
      simpa [counted] using mul_le_repeatExtent bound found
    · rename_i wild
      simp [wild]
  · intro data size least found total
    cases total
    exact Nat.zero_le _
  · -- The bounds of the first field and of the others add up.
    intro field others fieldBound othersBound data size least found total
    obtain ⟨first, rest, firstTotal, restTotal, rfl, fits⟩ := totalMinSize_cons total
    obtain ⟨here, there, foundHere, foundThere, rfl⟩ := rowExtent_cons.mp found
    have := fieldBound foundHere firstTotal (by omega)
    have := othersBound foundThere restTotal
    omega

/-- What is found for a row that cannot be empty is not empty. -/
theorem rowExtent_pos {fields : List Field} {data : Bytes} {size : Nat}
    (found : rowExtent fields data = .ok size) (sized : (Field.totalMinSize fields).isSome)
    (growing : Field.totalMinSize fields ≠ some 0) : 0 < size := by
  -- The least size is kept and is not zero.
  obtain ⟨least, total⟩ := Option.isSome_iff_exists.mp sized
  have bound := minSize_le_extent.2 fields found total
  have : least ≠ 0 := by
    rintro rfl
    exact growing total
  omega

/-- What is known of a group passes to its body, and no entry is empty if there may be several. -/
theorem group_body {body : List Field} {times : Repeat} (sound : (Field.group body times).Sound)
    (sized : (Field.group body times).Sized) :
    RowSound true body ∧ (Field.totalMinSize body).isSome ∧
      (times ≠ .once →
        ∀ {data : Bytes} {size : Nat}, rowExtent body data = .ok size → 0 < size) := by
  -- A repeated body has a least size that is not zero, so it never takes nothing.
  obtain ⟨_, bodySound, growing⟩ := sound
  obtain ⟨size, total, _⟩ := sized
  obtain ⟨each, bodyTotal, _⟩ := minSize_group total
  have bodySized : (Field.totalMinSize body).isSome := by simp [bodyTotal]
  exact ⟨bodySound, bodySized, fun repeated _ _ found =>
    rowExtent_pos found bodySized (growing repeated)⟩

end BoardRpc
