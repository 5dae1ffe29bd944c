import BoardRpc.Proofs.Codec.Measures

/-! Self-delimiting extents: where nothing takes all that remains, what is found depends on its own
bytes alone, and every payload cut off within them is told to be too short: by more than nothing,
and by no more than it is. -/

namespace BoardRpc

/-- Any payload cut off within what is found in it falls short: all that is left of it is there,
more is needed, and no more than what was found. -/
def Misses (extent : Bytes → Except Shortfall Nat) : Prop :=
  ∀ {data size cut}, data.length < maxSize → extent data = .ok size → cut < size →
    ∃ needed, extent (data.take cut) = .error ⟨needed, cut⟩ ∧ cut < needed ∧ needed ≤ size

/-- An extent that marks its own end. -/
structure Delimits (extent : Bytes → Except Shortfall Nat) : Prop where
  /-- What is found lies in the payload. -/
  within : ∀ {data size}, extent data = .ok size → size ≤ data.length
  /-- It is found in every payload that begins with the same bytes. -/
  again : ∀ {data size}, extent data = .ok size →
    ∀ other : Bytes, other.take size = data.take size → extent other = .ok size
  /-- It is missed in every payload that ends before it does. -/
  missed : Misses extent

section Misses

variable {entry first others : Bytes → Except Shortfall Nat}

/-- What is found in the front of a payload is found in any longer front. -/
theorem Local.longer {data : Bytes} {size cut : Nat} (each : Local entry)
    (found : entry data = .ok size) (within : size ≤ cut) : entry (data.take cut) = .ok size := by
  -- The longer front is the shorter one with some bytes behind it.
  obtain ⟨more, rfl⟩ := Nat.exists_eq_add_of_le within
  rw [List.take_add]
  exact (each found).2 _

/-- What is missed behind some bytes is missed across them. -/
theorem missed_across {result : Except Shortfall Nat} {first cut others : Nat}
    (within : first ≤ cut) (fits : first + others ≤ maxSize)
    (behind : ∃ needed, result = .error ⟨needed, cut - first⟩ ∧ cut - first < needed ∧
      needed ≤ others) :
    ∃ needed, seenAcross first result = .error ⟨needed, cut⟩ ∧ cut < needed ∧
      needed ≤ first + others := by
  obtain ⟨needed, rfl, short, bounded⟩ := behind
  -- The sum is no larger than what was found, so it is not clamped.
  have kept : clampedSize (needed + first) = needed + first := Nat.min_eq_left (by omega)
  refine ⟨needed + first, ?_, by omega, by omega⟩
  simp only [seenAcross, Shortfall.before, kept, Nat.sub_add_cancel within]

/-- A run of known length is missed by just that length. -/
theorem fixedExtent_misses (length : Nat) : Misses (fixedExtent length) := by
  intro data size cut fits found short
  obtain rfl := fixedExtent_ok found
  have within := (fixedExtent_local length found).1
  -- The front that is left is shorter than the run.
  have left : (data.take cut).length = cut := List.length_take_of_le (by omega)
  refine ⟨clampedSize length, ?_, short, Nat.le_refl _⟩
  rw [fixedExtent, if_neg (by rw [hasAtLeast_iff]; omega), left]

/-- A string is missed by one byte, as the next one might end it. -/
theorem stringExtent_misses : Misses stringExtent := by
  intro data size cut fits found short
  obtain ⟨text, tail, rfl, nonzero, rfl⟩ := stringExtent_ok found
  -- The front that is left is part of the text, in which there is no zero byte.
  have front : (text ++ 0 :: tail).take cut = text.take cut :=
    List.take_append_of_le_length (by omega)
  have left : (text.take cut).length = cut := List.length_take_of_le (by omega)
  have endless : (text.take cut).idxOf? 0 = none := by
    rw [List.idxOf?_eq_none_iff]
    exact fun zero => nonzero (List.mem_of_mem_take zero)
  refine ⟨cut + 1, ?_, by omega, short⟩
  simp only [front, stringExtent, endless, left]

/-- Nothing ends before what takes nothing. -/
theorem nothing_misses : Misses fun _ => .ok 0 := by
  intro data size cut _ found short
  cases found
  exact absurd short (Nat.not_lt_zero cut)

/-- Two extents, one behind the other, are missed as the one that is cut off is missed. -/
theorem Misses.chained (firstLocal : Local first) (othersLocal : Local others)
    (firstMisses : Misses first) (othersMiss : Misses others) : Misses (chained first others) := by
  intro data size cut fits found short
  have whole := (firstLocal.chained othersLocal found).1
  obtain ⟨front, back, here, there, rfl⟩ := chained_ok found
  rcases Nat.lt_or_ge cut front with inside | behind
  · -- The cut goes through the first extent, behind which nothing is looked for.
    obtain ⟨needed, missed, more, bounded⟩ := firstMisses fits here inside
    exact ⟨needed, chained_short missed, more, by omega⟩
  · -- The cut goes through the other one, which begins behind the first as before.
    rw [chained_found (firstLocal.longer here behind), List.drop_take]
    exact missed_across behind (by omega) (othersMiss (drop_fits fits front) there (by omega))

end Misses

/-- Fields are found by the bytes they take, and are missed in payloads that end within them, where
nothing takes all that remains. -/
theorem narrow_misses :
    (∀ field : Field, (∀ part ∈ field :: field.inside, part.times ≠ .wildcard) →
      Local field.extent ∧ Misses field.extent) ∧
    ∀ fields : List Field, (∀ part ∈ rowParts fields, part.times ≠ .wildcard) →
      Local (rowExtent fields) ∧ Misses (rowExtent fields) := by
  -- What stands behind an extent is missed only where the extent itself is found again.
  refine @extent_induction_narrow (fun extent => Local extent ∧ Misses extent) ?_ ?_ ?_ ?_
  · exact fun length => ⟨fixedExtent_local length, fixedExtent_misses length⟩
  · exact ⟨stringExtent_local, stringExtent_misses⟩
  · exact ⟨nothing_local, nothing_misses⟩
  · rintro first others ⟨firstLocal, firstMisses⟩ ⟨othersLocal, othersMiss⟩
    exact ⟨Local.chained firstLocal othersLocal,
      Misses.chained firstLocal othersLocal firstMisses othersMiss⟩

/-- An extent that is found by its own bytes, and is missed within them, marks its own end. -/
theorem delimits_of_local {extent : Bytes → Except Shortfall Nat}
    (holds : Local extent ∧ Misses extent) : Delimits extent where
  within here := (holds.1 here).1
  again {data size} here other same := by
    -- The other payload is the same front with its own bytes behind it.
    have front := (holds.1 here).2 (other.drop size)
    rwa [← same, List.take_append_drop] at front
  missed := holds.2

/-- Fields, by themselves or in a row, in which nothing takes all that remains, mark their own end,
whether or not they are those of a format that can be read: what they take lies in the payload, is
taken from every payload that begins with the same bytes, and from none that is cut off within them,
which is told to need more than there is and no more than what they take. -/
theorem extent_delimits :
    (∀ field : Field, (∀ part ∈ field :: field.inside, part.times ≠ .wildcard) →
      Delimits field.extent) ∧
    ∀ fields : List Field, (∀ part ∈ rowParts fields, part.times ≠ .wildcard) →
      Delimits (rowExtent fields) :=
  ⟨fun field narrow => delimits_of_local (narrow_misses.1 field narrow),
    fun fields narrow => delimits_of_local (narrow_misses.2 fields narrow)⟩

/-- Two entries, each a string and a word, take seven bytes whatever stands behind them; of three
bytes, in which the word of the first entry is cut off, they need more, but no more than seven. -/
theorem extent_delimits_entries : ∃ entries : Field,
    entries = .group [.text .once, .primitive .uint16 .once] (.count 2) ∧
    (∀ part ∈ entries :: entries.inside, part.times ≠ .wildcard) ∧
    entries.extent [65, 0, 1, 2, 0, 3, 4] = .ok 7 ∧
    entries.extent [65, 0, 1, 2, 0, 3, 4, 65] = .ok 7 ∧
    ∃ needed, entries.extent [65, 0, 1] = .error ⟨needed, 3⟩ ∧ 3 < needed ∧ needed ≤ 7 := by
  have narrow : ∀ part ∈ Field.group [.text .once, .primitive .uint16 .once] (.count 2) ::
      [.text .once, .primitive .uint16 .once], part.times ≠ .wildcard := by
    simp [Field.times]
  have found : (Field.group [.text .once, .primitive .uint16 .once] (.count 2)).extent
      [65, 0, 1, 2, 0, 3, 4] = .ok 7 := by rfl
  -- Three bytes are a proper front of the seven.
  have short : 3 < 7 := by decide
  obtain ⟨_, again, missed⟩ := extent_delimits.1 _ narrow
  exact ⟨_, rfl, narrow, found, again found _ rfl, missed (by decide) found short⟩

end BoardRpc
