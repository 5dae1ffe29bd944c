import BoardRpc.Proofs.Codec.Measures

/-! Repeated groups: stopping at the first entry that takes nothing finds what looking for every
entry in turn finds. -/

namespace BoardRpc

/-- One more entry behind what was found so far, at the position where that ends. -/
def passEntry (entry : Bytes → Except Shortfall Nat) (data : Bytes) (found : Except Shortfall Nat) :
    Except Shortfall Nat :=
  found.bind fun position => Positions.counted data position (entry (data.drop position))

section Entries

variable {entry : Bytes → Except Shortfall Nat} {data : Bytes}

/-- Passing one entry after the other ends where every entry has been found, as counted from the
start of the data. -/
theorem iterate_passEntry (measures : Measures entry) (fits : data.length < maxSize) (count : Nat)
    {position : Nat} (within : position ≤ data.length) :
    (passEntry entry data)^[count] (.ok position) =
      Positions.counted data position (everyExtent entry count (data.drop position)) := by
  -- The induction is on the entries that are left; the position never leaves the data.
  induction count generalizing position with
  | zero => rfl
  | succ count ih =>
    rw [Function.iterate_succ_apply, everyExtent]
    cases here : entry (data.drop position) with
    | error shortfall =>
      -- A shortfall stays as it is, however many entries were to follow.
      have failed : passEntry entry data (.ok position) =
          .error (Positions.Shortfall.offset shortfall position data.length) := by
        simp only [passEntry, Except.bind, here, Positions.counted]
      rw [failed]
      exact Function.iterate_fixed rfl count
    | ok size =>
      have passed : passEntry entry data (.ok position) = .ok (position + size) := by
        simp only [passEntry, Except.bind, here, Positions.counted]
      -- An entry that is found lies in the data, and the next one begins where it ends.
      have next := Positions.next_le within
        (measures.within (drop_fits fits position) here)
      rw [passed, ih next, ← Positions.counted_seenAcross, ← List.drop_drop]
      rfl

end Entries

/-- A group that is repeated so many times takes what its body takes as many times over, one entry
behind the other, though the walk stops at the first entry that takes nothing: the total is the
same, and so is the shortfall. The body may be any row of fields, whether or not a format with it
could be read. In data whose length can be kept, this is what passing the entries one by one comes
to, from the start on, with shortfalls told of the data as a whole. -/
theorem repeated_extent {times : Repeat} {count : Nat} (counted : times.count? = some count)
    (body : List Field) (data : Bytes) :
    (Field.group body times).extent data = everyExtent (rowExtent body) count data ∧
    (data.length < maxSize → (Field.group body times).extent data =
      (passEntry (rowExtent body) data)^[count] (.ok 0)) := by
  -- Entries that take nothing are not looked for again, but would be found so.
  have every : (Field.group body times).extent data = everyExtent (rowExtent body) count data := by
    simp only [Field.extent, counted]
    exact congrFun (repeatExtent_eq_everyExtent (rowExtent body) count) data
  refine ⟨every, fun fits => ?_⟩
  have measured := extent_measures.1 (.group body times) data fits
  -- From the start of the data on there is nothing to count.
  rw [iterate_passEntry (extent_measures.2 body) fits count (Nat.zero_le _), List.drop_zero,
    ← every, Positions.counted_zero measured]

/-- Two bytes and all that remains, three times over, fall short where the second entry begins, as
the first has taken all of the five bytes. As many empty runs as can be counted take nothing. -/
theorem repeated_extent_rest : ∃ body : List Field,
    body = [.raw (.count 2), .primitive .uint8 .wildcard] ∧ (Repeat.count 3).count? = some 3 ∧
    (passEntry (rowExtent body) [1, 2, 3, 4, 5])^[3] (.ok 0) = .error ⟨7, 5⟩ ∧
    everyExtent (rowExtent [.raw (.count 0)]) maxSize [] = .ok 0 := by
  refine ⟨_, rfl, rfl, ?_, ?_⟩
  · exact ((repeated_extent rfl _ [1, 2, 3, 4, 5]).2 (by decide)).symm.trans
      (show (Field.group _ (.count 3)).extent _ = _ from rfl)
  · exact (repeated_extent rfl [.raw (.count 0)] []).1.symm.trans
      (show (Field.group _ (.count maxSize)).extent _ = _ from rfl)

end BoardRpc
