import BoardRpc.Proofs.Format.Chaining

/-! Extents depend on no byte behind them, wildcards aside. -/

namespace BoardRpc

/-- An extent that is found lies in the payload, and is found again whatever stands behind it. -/
def Local (extent : Bytes → Except Shortfall Nat) : Prop :=
  ∀ {data size}, extent data = .ok size →
    size ≤ data.length ∧ ∀ tail, extent (data.take size ++ tail) = .ok size

/-- A run is found by its length alone. -/
theorem fixedExtent_local (length : Nat) : Local (fixedExtent length) := by
  -- Only the number of bytes is looked at, and the front has enough of them.
  intro data size found
  obtain rfl := fixedExtent_ok found
  unfold fixedExtent at found ⊢
  split at found
  · rename_i enough
    have within : clampedSize length ≤ data.length := by simpa using enough
    refine ⟨within, fun tail => ?_⟩
    simp [List.length_take_of_le within]
  · cases found

/-- Bytes with a zero byte begin with a text that the first one ends. -/
theorem idxOf?_zero_ok {data : Bytes} {index : Nat} (found : data.idxOf? 0 = some index) :
    ∃ text tail, data = text ++ 0 :: tail ∧ 0 ∉ text ∧ text.length = index := by
  induction data generalizing index with
  -- Without a byte there is no zero byte to find.
  | nil => cases found
  | cons byte rest ih =>
    rw [List.idxOf?_cons] at found
    split at found
    · rename_i zero
      cases found
      exact ⟨[], rest, by simpa using zero, by simp, rfl⟩
    · -- A byte in front of the zero byte belongs to the text.
      rename_i nonzero
      obtain ⟨before, behind, rfl⟩ := Option.map_eq_some_iff.mp found
      obtain ⟨text, tail, rfl, none, rfl⟩ := ih behind
      have other : 0 ≠ byte := fun same => nonzero (by simp [same])
      exact ⟨byte :: text, tail, rfl, by simp [none, other], rfl⟩

/-- A string that is found ends with the first zero byte. -/
theorem stringExtent_ok {data : Bytes} {size : Nat} (found : stringExtent data = .ok size) :
    ∃ text tail, data = text ++ 0 :: tail ∧ 0 ∉ text ∧ size = text.length + 1 := by
  -- The index that was found is where the text ends.
  unfold stringExtent at found
  split at found
  · rename_i index zero
    cases found
    obtain ⟨text, tail, rfl, nonzero, rfl⟩ := idxOf?_zero_ok zero
    exact ⟨text, tail, rfl, nonzero, rfl⟩
  · cases found

/-- A string is found by its bytes and its zero byte. -/
theorem stringExtent_local : Local stringExtent := by
  -- The front is cut behind the zero byte, so the same zero byte is found in it.
  intro data size found
  obtain ⟨text, behind, rfl, nonzero, rfl⟩ := stringExtent_ok found
  refine ⟨by simp, fun tail => ?_⟩
  have front : (text ++ 0 :: behind).take (text.length + 1) = text ++ [0] := by
    simp [List.take_append]
  rw [front, List.append_assoc]
  exact stringExtent_append nonzero tail

/-- What takes nothing is found in any payload. -/
theorem nothing_local : Local fun _ => .ok 0 := by
  intro data size found
  cases found
  exact ⟨Nat.zero_le _, fun _ => rfl⟩

/-- Two extents are found again one behind the other if each of them is. -/
theorem Local.chained {first others : Bytes → Except Shortfall Nat} (firstLocal : Local first)
    (othersLocal : Local others) : Local (chained first others) := by
  -- What stands behind the first extent begins with the other, so each is found again in turn.
  intro data size found
  obtain ⟨front, back, here, there, rfl⟩ := chained_ok found
  obtain ⟨within, again⟩ := firstLocal here
  obtain ⟨behind, othersAgain⟩ := othersLocal there
  rw [List.length_drop] at behind
  refine ⟨by omega, fun tail => ?_⟩
  rw [List.take_add, List.append_assoc, chained_found (again _),
    List.drop_left' (List.length_take_of_le within), othersAgain]
  rfl

/-- Entries in a row are found again if each of them is. -/
theorem repeatExtent_local {entry : Bytes → Except Shortfall Nat} (each : Local entry)
    (count : Nat) : Local (repeatExtent entry count) :=
  @repeatExtent_induction Local nothing_local Local.chained entry each count

/-- Fields are found by the bytes they take where nothing in them, at any depth, takes all that
remains. -/
theorem narrow_local :
    (∀ field : Field, (∀ part ∈ field :: field.inside, part.times ≠ .wildcard) →
      Local field.extent) ∧
    ∀ fields : List Field, (∀ part ∈ rowParts fields, part.times ≠ .wildcard) →
      Local (rowExtent fields) :=
  extent_induction_narrow fixedExtent_local stringExtent_local nothing_local Local.chained

/-- Sound fields other than wildcards are found by the bytes they take, as nothing inside of a
group is a wildcard. -/
theorem extent_local :
    (∀ field : Field, field.Sound → field.times ≠ .wildcard → Local field.extent) ∧
    ∀ fields : List Field, RowSound true fields → Local (rowExtent fields) := by
  constructor
  · intro field sound narrow
    obtain ⟨_, _, inside⟩ := (sound_by_parts.1 field).mp sound
    exact narrow_local.1 field (List.forall_mem_cons.mpr ⟨narrow, inside⟩)
  · intro fields sound
    exact narrow_local.2 fields ((sound_by_parts.2 fields).inGroup.mp sound).2

end BoardRpc
