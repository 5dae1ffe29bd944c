import BoardRpc.Proofs.Codec.Restore

/-! Accounting for payloads: once extents are found, only strings can keep a payload from being
read. -/

namespace BoardRpc

namespace Codec

variable {order : ByteOrder} {field : Field} {fields others : List Field} {data : Bytes}
  {index size used : Nat}

/-- Whatever goes wrong is a string that is no text. -/
def OnlyTextFails {α : Type} (result : Except FieldFault α) : Prop :=
  ∀ fault, result = .error fault → ∃ reason, fault = .invalidString reason

/-- Strings that are found one behind the other are read unless one of them is no text. -/
theorem decodeTexts_fails {count : Nat}
    (found : repeatExtent stringExtent count data = .ok data.length) :
    OnlyTextFails (decodeTexts data) := by
  -- The induction follows the strings that are found, each up to its zero byte.
  induction count generalizing data with
  | zero =>
    obtain rfl : data = [] := List.eq_nil_of_length_eq_zero (Except.ok.inj found).symm
    simp [OnlyTextFails, decodeTexts]
  | succ count ih =>
    rcases repeatExtent_ok found with
      ⟨none, _⟩ | ⟨_, empty, _⟩ | ⟨less, first, others, same, here, _, rest, total⟩
    · cases none
    · cases stringExtent_pos empty
    · cases same
      obtain ⟨text, tail, rfl, nonzero, rfl⟩ := stringExtent_ok here
      -- Behind the first zero byte stands what the other strings were found in.
      have behind : (text ++ 0 :: tail).drop (text.length + 1) = tail := by
        simp [List.drop_append]
      have left : others = tail.length := by
        simp only [List.length_append, List.length_cons] at total
        omega
      rw [behind, left] at rest
      rw [decodeTexts_zero nonzero]
      intro fault failed
      -- Either the first string is no text, or one of the others is not.
      split at failed
      · cases failed
        exact ⟨_, rfl⟩
      · split at failed
        · rename_i inner
          cases failed
          exact ih rest fault inner
        · cases failed

/-- Entries that are found one behind the other are read unless a string in them is no text. -/
theorem decodeEntries_fails {extent : Bytes → Except Shortfall Nat}
    {entry : Bytes → Except FieldFault (List Value × Nat)}
    (each : ∀ {data size}, extent data = .ok size → OnlyTextFails (entry data))
    (takes : ∀ {data items size}, entry data = .ok (items, size) → extent data = .ok size)
    (growing : ∀ {data size}, extent data = .ok size → 0 < size) {count : Nat}
    (found : repeatExtent extent count data = .ok size) :
    OnlyTextFails (decodeEntries entry count data) := by
  -- An entry that is read takes what is found for it, so the next one begins where it is found.
  induction count generalizing data size with
  | zero => simp [OnlyTextFails, decodeEntries]
  | succ count ih =>
    rcases repeatExtent_ok found with
      ⟨none, _⟩ | ⟨_, empty, _⟩ | ⟨less, first, others, same, here, _, rest, _⟩
    · cases none
    · -- An entry that takes nothing would end the loop, and there is none.
      cases growing empty
    · cases same
      intro fault failed
      unfold decodeEntries at failed
      split at failed
      · rename_i inner
        cases failed
        exact each here fault inner
      · rename_i items taken read
        obtain rfl : first = taken := Except.ok.inj (here.symm.trans (takes read))
        -- The next entry begins where this one was read up to, which is where it was found to end.
        split at failed
        · rename_i inner
          cases failed
          exact ih rest fault inner
        · cases failed

/-- A field that is found, and is no wildcard, is read unless a string in it is no text. -/
def FieldAccounts (order : ByteOrder) (field : Field) : Prop :=
  ∀ {data size}, field.Sound → field.Sized → field.times ≠ .wildcard →
    field.extent data = .ok size → OnlyTextFails (decodeField order field (data.take size))

/-- The same of a row in a group. -/
def RowAccounts (order : ByteOrder) (fields : List Field) : Prop :=
  ∀ {data size}, RowSound true fields → (Field.totalMinSize fields).isSome →
    rowExtent fields data = .ok size → OnlyTextFails (decodeRow order fields data)

/-- Values of a declared number are always read. -/
theorem primitive_accounts (order : ByteOrder) (kind : Primitive) (times : Repeat) :
    FieldAccounts order (.primitive kind times) := by
  -- Only a wildcard is tested for coming out even.
  intro data size _ _ narrow found
  by_cases padding : kind = .pad
  · subst padding
    simp [OnlyTextFails, decodeField]
  · rw [decodeField_primitive padding, if_neg]
    · simp [OnlyTextFails]
    · -- What is not a wildcard is not tested.
      exact fun unaligned => narrow (Repeat.isWildcard_iff.mp unaligned.1)

/-- What is found in a payload is found in its front alone. -/
theorem Local.front {extent : Bytes → Except Shortfall Nat} (found : Local extent)
    (here : extent data = .ok size) :
    extent (data.take size) = .ok size ∧ (data.take size).length = size := by
  obtain ⟨within, again⟩ := found here
  exact ⟨by simpa using again [], List.length_take_of_le within⟩

/-- Strings of a declared number are read unless one is no text. -/
theorem text_accounts (order : ByteOrder) (times : Repeat) : FieldAccounts order (.text times) := by
  -- In its own extent the field finds just the strings that it found in the payload.
  intro data size _ _ narrow found
  cases counted : times.count? with
  | none => exact absurd (Repeat.eq_wildcard counted) narrow
  | some count =>
    simp only [Field.extent, counted] at found
    obtain ⟨front, length⟩ := Local.front (repeatExtent_local stringExtent_local count) found
    exact decodeTexts_fails (front.trans (congrArg _ length.symm))

/-- Groups of a declared number are read unless a string in them is no text. -/
theorem group_accounts {body : List Field} (row : RowAccounts order body) (times : Repeat) :
    FieldAccounts order (.group body times) := by
  -- Nothing is a wildcard inside a group, so its extent alone holds all that was found.
  intro data size sound sized narrow found
  obtain ⟨bodySound, bodySized, growing⟩ := group_body sound sized
  have bodyLocal : Local fun rest => rowExtent body rest := extent_local.2 body bodySound
  cases times with
  -- Taking all that remains is excluded.
  | wildcard => exact absurd rfl narrow
  | once =>
    -- One entry is the body, which is read from the group as its row.
    simp only [Field.extent, Repeat.count?] at found
    obtain ⟨front, _⟩ := Local.front bodyLocal (repeatExtent_one found)
    intro fault failed
    simp only [decodeField] at failed
    split at failed
    · rename_i inner
      cases failed
      exact row bodySound bodySized front fault inner
    · cases failed
  | count n =>
    -- Counted entries are read one behind the other, each as the row of the body.
    simp only [Field.extent, Repeat.count?] at found
    obtain ⟨front, _⟩ := Local.front (repeatExtent_local bodyLocal n) found
    have entries : OnlyTextFails (decodeEntries (fun rest => decodeRow order body rest) n
        (data.take size)) :=
      decodeEntries_fails (fun here => row bodySound bodySized here) rowExtent_of_decodeRow
        (growing (by simp)) front
    intro fault failed
    simp only [decodeField] at failed
    split at failed
    · rename_i inner
      cases failed
      exact entries fault inner
    · cases failed

/-- A row whose first field is found is read field by field. -/
theorem decodeRow_found (found : field.extent data = .ok size) (within : size ≤ data.length) :
    decodeRow order (field :: others) data =
      match decodeField order field (data.take size) with
      | .error fault => .error fault
      | .ok values =>
        match decodeRow order others (data.drop size) with
        | .error fault => .error fault
        | .ok (more, rest) => .ok (values ++ more, size + rest) := by
  -- The test for missing bytes is passed, as the extent lies in the data.
  have enough : (!hasAtLeast size data) = false := by simpa using within
  cases read : decodeField order field (data.take size) with
  | error => simp only [decodeRow, found, enough, Bool.false_eq_true, if_false, read]
  -- What stands behind the field is read by the same walk.
  | ok =>
    cases more : decodeRow order others (data.drop size) <;>
      simp only [decodeRow, found, enough, Bool.false_eq_true, if_false, read, more]

/-- Every row in a group is read unless a string in it is no text. -/
theorem accounts (order : ByteOrder) :
    (∀ field, FieldAccounts order field) ∧ ∀ fields, RowAccounts order fields := by
  refine Field.row_induction (primitive_accounts order) (text_accounts order) ?_
    (fun _ times row => group_accounts row times) ?_ ?_
  · -- A run is taken as it is.
    intro length data size _ _ _ _
    simp [OnlyTextFails, decodeField]
  · intro data size _ _ _
    simp [OnlyTextFails, decodeRow]
  · -- In a group the first field may not take all that remains, so it is read from its own extent.
    intro field others fieldAccounts othersAccount data size sound sized found
    obtain ⟨fieldSound, outside, othersSound⟩ := sound
    obtain ⟨least, total⟩ := Option.isSome_iff_exists.mp sized
    obtain ⟨leastHere, leastRest, hereTotal, restTotal, rfl, fits⟩ := totalMinSize_cons total
    have narrow : field.times ≠ .wildcard := fun wildcard => absurd (outside wildcard).1 (by decide)
    obtain ⟨first, rest, here, there, rfl⟩ := rowExtent_cons.mp found
    rw [decodeRow_found here (extent_local.1 field fieldSound narrow here).1]
    intro fault failed
    split at failed
    · rename_i inner
      cases failed
      exact fieldAccounts fieldSound ⟨leastHere, hereTotal, by omega⟩ narrow here fault inner
    · -- Behind the first field the others are found where they are read.
      split at failed
      · rename_i inner
        cases failed
        exact othersAccount othersSound (by simp [restTotal]) there fault inner
      · cases failed

/-- A wildcard takes all there is. -/
theorem extent_wildcard (wildcard : field.times = .wildcard) :
    field.extent data = .ok data.length := by
  -- The wildcard is a case of each field, and in each the definition says so.
  cases field <;> obtain rfl := wildcard <;> rfl

/-- A field outside of groups that is found, and is no wildcard, is read, unless a string in it is
no text. -/
theorem decodeFrom_found (order : ByteOrder) (index : Nat) (others : List Field)
    (sound : field.Sound) (sized : field.Sized) (narrow : field.times ≠ .wildcard)
    (found : field.extent data = .ok size) :
    (∃ reason, decodeFrom order index (field :: others) data
      = .error (.inField index (.invalidString reason))) ∨
    ∃ values, decodeFrom order index (field :: others) data
      = (decodeFrom order (index + 1) others (data.drop size)).map (values ++ ·) := by
  -- The extent lies in the payload, so only the field itself can fail.
  have within := (extent_local.1 field sound narrow found).1
  have here := (accounts order).1 field sound sized narrow found
  simp only [decodeFrom, found, hasAtLeast_iff.mpr within, Bool.not_true, Bool.false_eq_true,
    if_false]
  cases read : decodeField order field (data.take size) with
  | error fault =>
    obtain ⟨reason, rfl⟩ := here fault read
    exact .inl ⟨reason, rfl⟩
  | ok values =>
    refine .inr ⟨values, ?_⟩
    cases decodeFrom order (index + 1) others (data.drop size) <;> rfl

/-- Outside of groups a row is found as anywhere. -/
theorem extentFrom_eq_ok : extentFrom index fields data = .ok used ↔
    rowExtent fields data = .ok used := by
  -- By induction on the fields, counted on from any index.
  induction fields generalizing index data used with
  | nil => simp [extentFrom, rowExtent]
  | cons field others ih =>
    rw [rowExtent_cons]
    simp only [extentFrom]
    constructor
    · intro found
      split at found
      · cases found
      · rename_i first here
        split at found
        · cases found
        · rename_i rest there
          cases found
          exact ⟨first, rest, here, ih.mp there, rfl⟩
    · -- Conversely the walk goes by the same two extents.
      rintro ⟨first, rest, here, there, rfl⟩
      have behind : extentFrom (index + 1) others (data.drop first) = .ok rest := ih.mpr there
      simp only [here, behind]

/-- What cannot be found is charged to a field from the index on. -/
theorem extentFrom_error {fault : FormatFault}
    (missing : extentFrom index fields data = .error fault) :
    ∃ late shortfall, index ≤ late ∧ fault = .inField late (Shortfall.fault shortfall) := by
  -- The charge is the index of the field at which the walk stopped.
  induction fields generalizing index data with
  | nil => cases missing
  | cons field others ih =>
    simp only [extentFrom] at missing
    split at missing
    · rename_i shortfall _
      cases missing
      exact ⟨index, shortfall, Nat.le_refl _, rfl⟩
    · split at missing
      · rename_i later
        cases missing
        obtain ⟨late, shortfall, behind, rfl⟩ := ih later
        exact ⟨late, shortfall, by omega, rfl⟩
      · cases missing

/-- What cannot be found cannot be read, for the same reason or because a string in front of it is
no text. -/
theorem decodeFrom_missing (order : ByteOrder) (sound : RowSound false fields)
    (sized : (Field.totalMinSize fields).isSome) {fault : FormatFault}
    (missing : extentFrom index fields data = .error fault) :
    decodeFrom order index fields data = .error fault ∨
    ∃ early late reason shortfall, early < late ∧
      fault = .inField late (Shortfall.fault shortfall) ∧
      decodeFrom order index fields data = .error (.inField early (.invalidString reason)) := by
  -- By induction on the fields: it is the first that is missing, or some field behind it.
  induction fields generalizing index data with
  | nil => cases missing
  | cons field others ih =>
    obtain ⟨fieldSound, last, othersSound⟩ := sound
    obtain ⟨least, total⟩ := Option.isSome_iff_exists.mp sized
    obtain ⟨leastHere, leastRest, hereTotal, restTotal, rfl, fits⟩ := totalMinSize_cons total
    cases found : field.extent data with
    | error shortfall =>
      simp only [extentFrom, found] at missing
      cases missing
      exact .inl (by simp only [decodeFrom, found])
    | ok size =>
      simp only [extentFrom, found] at missing
      split at missing
      · rename_i later
        cases missing
        -- Something is behind this field, so it is no wildcard.
        have narrow : field.times ≠ .wildcard := fun wildcard => by
          obtain ⟨_, _, rfl⟩ := last wildcard
          cases later
        obtain ⟨late, shortfall, behind, rfl⟩ := extentFrom_error later
        rcases decodeFrom_found order index others fieldSound
          ⟨leastHere, hereTotal, by omega⟩ narrow found with ⟨reason, failed⟩ | ⟨values, read⟩
        · -- A string in this field is no text, which is found before anything behind it is missed.
          exact .inr ⟨index, late, reason, shortfall, behind, rfl, failed⟩
        · -- This field is read, so that the others decide.
          rw [read]
          rcases ih othersSound (by simp [restTotal]) later with
            same | ⟨early, late', reason, shortfall', before, charged, failed⟩
          · exact .inl (by rw [same]; rfl)
          · exact .inr ⟨early, late', reason, shortfall', before, charged, by rw [failed]; rfl⟩
      · cases missing

/-- Where bytes are left behind the last field, they are what is wrong, unless a string is no
text. -/
theorem decodeFrom_leftover (order : ByteOrder) (index : Nat) (sound : RowSound false fields)
    (sized : (Field.totalMinSize fields).isSome) (found : rowExtent fields data = .ok used)
    (less : used < data.length) :
    decodeFrom order index fields data = .error (.trailingBytes (data.length - used)) ∨
    ∃ charged reason, decodeFrom order index fields data
      = .error (.inField charged (.invalidString reason)) := by
  -- By induction on the fields, with what each of them leaves.
  induction fields generalizing index data used with
  | nil =>
    cases found
    -- Behind the last field something is left, and that is what is told.
    have nonempty : data.isEmpty = false := by
      cases data with
      | nil => cases less
      | cons => rfl
    exact .inl (by simp [decodeFrom, nonempty])
  | cons field others ih =>
    obtain ⟨fieldSound, last, othersSound⟩ := sound
    obtain ⟨least, total⟩ := Option.isSome_iff_exists.mp sized
    obtain ⟨leastHere, leastRest, hereTotal, restTotal, rfl, fits⟩ := totalMinSize_cons total
    obtain ⟨first, rest, here, there, rfl⟩ := rowExtent_cons.mp found
    -- A wildcard leaves nothing.
    have narrow : field.times ≠ .wildcard := fun wildcard => by
      obtain rfl := Except.ok.inj (here.symm.trans (extent_wildcard wildcard))
      omega
    rcases decodeFrom_found order index others fieldSound
      ⟨leastHere, hereTotal, by omega⟩ narrow here with ⟨reason, failed⟩ | ⟨values, read⟩
    · exact .inr ⟨index, reason, failed⟩
    · rw [read]
      -- The bytes that are left are the same, counted from here or from the start.
      have left : (data.drop first).length - rest = data.length - (first + rest) := by
        rw [List.length_drop]
        omega
      rcases ih (index + 1) othersSound (by simp [restTotal]) there
        (by rw [List.length_drop]; omega) with trailing | ⟨charged, reason, failed⟩
      · exact .inl (by rw [trailing, left]; rfl)
      · exact .inr ⟨charged, reason, by rw [failed]; rfl⟩

end Codec

namespace Format

variable {format : Format} {data : Bytes}

/-- A payload that is decoded is what its extent says. -/
theorem extent_of_decode {values : List Value} (decoded : format.decode data = .ok values) :
    format.extent data = .ok data.length := by
  -- What is read takes just what is found.
  rw [extent, mapError_eq_ok, Codec.extentFrom_eq_ok]
  exact Codec.rowExtent_of_decodeRow (decode_eq_ok.mp decoded)

/-- A payload without an extent is not decoded, for the same reason or because a string in front of
it is no text. -/
theorem decode_of_missing (sound : format.Sound) {error : FormatError}
    (missing : format.extent data = .error error) :
    format.decode data = .error error ∨
    ∃ early late reason shortfall, early < late ∧
      error = ⟨format.source, .inField late (Shortfall.fault shortfall)⟩ ∧
      format.decode data = .error ⟨format.source, .inField early (.invalidString reason)⟩ := by
  -- Both errors carry the same text of the format.
  unfold extent at missing
  cases found : extentFrom 0 format.fields data with
  | ok used =>
    rw [found] at missing
    cases missing
  | error fault =>
    rw [found] at missing
    cases missing
    rcases Codec.decodeFrom_missing format.order sound.fields sound.size found with
      same | ⟨early, late, reason, shortfall, before, rfl, failed⟩
    · exact .inl (by rw [decode, same]; rfl)
    · exact .inr ⟨early, late, reason, shortfall, before, rfl, by rw [decode, failed]; rfl⟩

/-- A payload longer than its extent is not decoded for that reason, or because a string is no
text. -/
theorem decode_of_leftover (sound : format.Sound) {used : Nat}
    (found : format.extent data = .ok used) (less : used < data.length) :
    format.decode data = .error ⟨format.source, .trailingBytes (data.length - used)⟩ ∨
    ∃ charged reason, format.decode data
      = .error ⟨format.source, .inField charged (.invalidString reason)⟩ := by
  -- The text of the format has no part in what is found.
  rw [extent, mapError_eq_ok, Codec.extentFrom_eq_ok] at found
  rcases Codec.decodeFrom_leftover format.order 0 sound.fields sound.size found less with
    trailing | ⟨charged, reason, failed⟩
  · exact .inl (by rw [decode, trailing]; rfl)
  · exact .inr ⟨charged, reason, by rw [decode, failed]; rfl⟩

end Format

end BoardRpc
