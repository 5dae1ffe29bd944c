import BoardRpc.Proofs.Codec.Restore
import BoardRpc.Proofs.Format.Admissible

/-! Smallest payloads: the least size of a format is the length of the shortest payload that is
decoded, and that of all of them where nothing in the format can stretch. -/

namespace BoardRpc

/-- So many zero bytes. -/
def zeros (count : Nat) : Bytes := List.replicate count 0

/-- Zeros are as many as they should be. -/
@[simp] theorem length_zeros (count : Nat) : (zeros count).length = count :=
  List.length_replicate

/-- Zeros are cut into zeros. -/
@[simp] theorem take_zeros (first more : Nat) :
    (zeros (first + more)).take first = zeros first := by
  simp [zeros, List.take_replicate]

/-- Behind zeros there are zeros. -/
@[simp] theorem drop_zeros (first more : Nat) : (zeros (first + more)).drop first = zeros more := by
  simp [zeros]

/-- Whether a field takes the same number of bytes from any payload, given that what is inside it
does: it is no string, and does not take all that remains. -/
def Field.IsRigid (field : Field) : Prop :=
  field.times ≠ .wildcard ∧ ∀ times, field ≠ .text times

/-- A run of known length is found in as many zeros. -/
theorem fixedExtent_zeros {length : Nat} (fits : length ≤ maxSize) (more : Nat) :
    fixedExtent length (zeros (length + more)) = .ok length := by
  -- A length that can be kept is not clamped.
  have clamped : clampedSize length = length := Nat.min_eq_left fits
  simp [fixedExtent, clamped]

/-- The shortest string is a zero byte. -/
theorem stringExtent_zeros (more : Nat) : stringExtent (zeros (1 + more)) = .ok 1 := by
  -- There is no zero byte in front of the first.
  rw [Nat.add_comm]
  exact stringExtent_append (List.not_mem_nil) (zeros more)

/-- Entries that are found in zeros are found there one behind the other. -/
theorem repeatExtent_zeros {entry : Bytes → Except Shortfall Nat} {least : Nat}
    (each : ∀ more, entry (zeros (least + more)) = .ok least) (count more : Nat) :
    repeatExtent entry count (zeros (least * count + more)) = .ok (least * count) := by
  -- Each entry leaves zeros for the others, and as many behind them as there were.
  induction count with
  | zero => rfl
  | succ count ih =>
    have size : least * (count + 1) = least + least * count := by
      rw [Nat.mul_succ, Nat.add_comm]
    have here := each (least * count + more)
    rw [size, Nat.add_assoc]
    -- The walk ends at an entry that takes nothing, and there is nothing to take behind it.
    cases least with
    | zero =>
      simp only [repeatExtent, here]
      rw [Nat.zero_mul]
    | succ less =>
      apply repeatExtent_succ here (Nat.succ_pos less)
      rw [drop_zeros]
      exact ih

/-- Entries whose size is always the same take it as often as they repeat. -/
theorem repeatExtent_rigid {entry : Bytes → Except Shortfall Nat} {least : Nat}
    (each : ∀ {data size}, entry data = .ok size → size = least) {count size : Nat} {data : Bytes}
    (found : repeatExtent entry count data = .ok size) : size = least * count := by
  -- The induction is on the entries that are left, wherever they begin.
  induction count generalizing data size with
  | zero =>
    cases found
    rfl
  | succ count ih =>
    rcases repeatExtent_ok found with
      ⟨none, _⟩ | ⟨_, empty, rfl⟩ | ⟨less, first, others, same, here, _, rest, rfl⟩
    · cases none
    · -- An entry that takes nothing never takes anything.
      rw [← each empty, Nat.zero_mul]
    · cases same
      rw [each here, ih rest, Nat.mul_succ, Nat.add_comm]

/-- Rigid fields take their least size from any payload. -/
theorem extent_rigid :
    (∀ field : Field, (∀ part ∈ field :: field.inside, part.IsRigid) →
      ∀ {data : Bytes} {size least : Nat}, field.extent data = .ok size →
        field.minSize = some least → least ≤ maxSize → size = least) ∧
    ∀ fields : List Field, (∀ part ∈ rowParts fields, part.IsRigid) →
      ∀ {data : Bytes} {size least : Nat}, rowExtent fields data = .ok size →
        Field.totalMinSize fields = some least → size = least := by
  -- Only strings look at the bytes, and only wildcards at how many there are.
  refine Field.row_induction ?_ ?_ ?_ ?_ ?_ ?_
  · -- A count gives the run its length.
    intro kind times rigid data size least found total fits
    obtain ⟨rfl, _⟩ := checkedSize_some total
    simp only [Field.extent] at found
    cases counted : times.count? with
    | none => exact absurd (Repeat.eq_wildcard counted) (rigid _ (.head _)).1
    | some count =>
      simp only [counted, Option.getD_some] at found fits ⊢
      exact (fixedExtent_ok found).trans (Nat.min_eq_left fits)
  · intro times rigid
    exact absurd rfl ((rigid _ (.head _)).2 times)
  · intro length rigid data size least found total fits
    cases total
    simp only [Field.extent] at found
    cases counted : length.count? with
    | none => exact absurd (Repeat.eq_wildcard counted) (rigid _ (.head _)).1
    | some count =>
      simp only [counted, Option.getD_some] at found fits ⊢
      exact (fixedExtent_ok found).trans (Nat.min_eq_left fits)
  · -- Every entry takes the least size of the body.
    intro body times bodyRigid rigid data size least found total _
    obtain ⟨groupRigid, inside⟩ := List.forall_mem_cons.mp rigid
    obtain ⟨each, bodyTotal, rfl⟩ := minSize_group total
    simp only [Field.extent] at found
    cases counted : times.count? with
    | none => exact absurd (Repeat.eq_wildcard counted) groupRigid.1
    | some count =>
      simp only [counted, Option.getD_some] at found ⊢
      exact repeatExtent_rigid (fun here => bodyRigid inside here bodyTotal) found
  · intro _ data size least found total
    cases found
    cases total
    rfl
  · -- The sizes of the first field and of the others add up.
    intro field others fieldRigid othersRigid rigid data size least found total
    obtain ⟨here, inside, behind⟩ := forall_rowParts_cons.mp rigid
    obtain ⟨first, rest, hereTotal, restTotal, rfl, fits⟩ := totalMinSize_cons total
    obtain ⟨_, _, foundHere, foundRest, rfl⟩ := rowExtent_cons.mp found
    rw [fieldRigid (List.forall_mem_cons.mpr ⟨here, inside⟩) foundHere hereTotal (by omega),
      othersRigid behind foundRest restTotal]

namespace Codec

variable {order : ByteOrder} {body : List Field}

/-- Zeros are read as empty strings. -/
theorem decodeTexts_zeros (count : Nat) : ∃ values, decodeTexts (zeros count) = .ok values := by
  -- The first zero ends a string of no bytes.
  induction count with
  | zero => exact ⟨[], by rw [zeros, List.replicate_zero, decodeTexts]⟩
  | succ count ih =>
    obtain ⟨others, read⟩ := ih
    exact ⟨_, (decodeTexts_append (List.not_mem_nil (a := 0))).mpr ⟨"", others, by rfl, read, rfl⟩⟩

/-- Entries that are read from zeros are read from them one behind the other. -/
theorem decodeEntries_zeros {entry : Bytes → Except FieldFault (List Value × Nat)} {least : Nat}
    (each : ∀ more, ∃ items, entry (zeros (least + more)) = .ok (items, least)) (count : Nat) :
    ∃ entries, decodeEntries entry count (zeros (least * count)) = .ok entries := by
  -- In front of the others stand zeros for the first entry.
  induction count with
  | zero => exact ⟨[], rfl⟩
  | succ count ih =>
    obtain ⟨items, here⟩ := each (least * count)
    obtain ⟨others, rest⟩ := ih
    refine ⟨.tuple items :: others, ?_⟩
    rw [Nat.mul_succ, Nat.add_comm (least * count)]
    simp only [decodeEntries, here, drop_zeros, rest]

/-- A field takes its least size from zeros, and is read from as many. A wildcard takes what is
left, which is nothing at the least. -/
def FieldSettles (order : ByteOrder) (field : Field) : Prop :=
  ∀ {least}, field.Sound → field.minSize = some least → least ≤ maxSize →
    (∀ more, (field.times = .wildcard → more = 0) →
      field.extent (zeros (least + more)) = .ok least) ∧
    ∃ values, decodeField order field (zeros least) = .ok values

/-- A row is read from zeros and takes its least size from them. Outside of groups there are just
as many, as the last field may be a wildcard. -/
def RowSettles (order : ByteOrder) (fields : List Field) : Prop :=
  ∀ {inGroup least}, RowSound inGroup fields → Field.totalMinSize fields = some least →
    ∀ more, (inGroup = false → more = 0) →
      ∃ values, decodeRow order fields (zeros (least + more)) = .ok (values, least)

/-- Values of fixed width are read from zeros, which come out even. -/
theorem primitive_settles (order : ByteOrder) (kind : Primitive) (times : Repeat) :
    FieldSettles order (.primitive kind times) := by
  -- The least size is that of the counted elements, and nothing for a wildcard.
  intro least _ total fits
  obtain ⟨rfl, _⟩ := checkedSize_some total
  constructor
  · intro more last
    simp only [Field.extent]
    cases counted : times.count? with
    | none => simp [last (Repeat.eq_wildcard counted)]
    | some count =>
      -- The count gives as many bytes as there are zeros.
      rw [counted] at fits
      exact fixedExtent_zeros fits more
  · by_cases padding : kind = .pad
    · subst padding
      exact ⟨[], rfl⟩
    · rw [decodeField_primitive padding, length_zeros, Nat.mul_mod_right]
      exact ⟨_, if_neg (by simp)⟩

/-- Strings are read from zeros as empty ones. -/
theorem text_settles (order : ByteOrder) (times : Repeat) : FieldSettles order (.text times) := by
  intro least _ total fits
  cases total
  refine ⟨fun more last => ?_, decodeTexts_zeros _⟩
  simp only [Field.extent]
  cases counted : times.count? with
  | none => simp [last (Repeat.eq_wildcard counted)]
  | some count =>
    -- Each of the strings is empty and takes one zero.
    have found := repeatExtent_zeros stringExtent_zeros count more
    rw [Nat.one_mul] at found
    exact found

/-- A run of bytes is read from zeros as they are. -/
theorem raw_settles (order : ByteOrder) (length : Repeat) : FieldSettles order (.raw length) := by
  intro least _ total fits
  cases total
  refine ⟨fun more last => ?_, _, rfl⟩
  -- A run without a count takes all there is, and one with a count just that many bytes.
  simp only [Field.extent]
  cases counted : length.count? with
  | none => simp [last (Repeat.eq_wildcard counted)]
  | some count =>
    rw [counted] at fits
    exact fixedExtent_zeros fits more

/-- A group is read from zeros if its body is: once, as often as it is counted, or not at all. -/
theorem group_settles (row : RowSettles order body) (times : Repeat) :
    FieldSettles order (.group body times) := by
  intro least sound total fits
  obtain ⟨_, bodySound, _⟩ := sound
  obtain ⟨each, bodyTotal, rfl⟩ := minSize_group total
  -- The body leaves as many zeros behind it as there are more.
  have entry : ∀ more, ∃ items,
      decodeRow order body (zeros (each + more)) = .ok (items, each) := by
    intro more
    exact row bodySound bodyTotal more (by simp)
  have found : ∀ count more,
      repeatExtent (fun rest => rowExtent body rest) count (zeros (each * count + more))
        = .ok (each * count) := by
    apply repeatExtent_zeros
    intro more
    obtain ⟨items, read⟩ := entry more
    exact rowExtent_of_decodeRow read
  cases times with
  | once =>
    obtain ⟨items, read⟩ := entry 0
    refine ⟨fun more _ => found 1 more, [.tuple items], ?_⟩
    simp only [decodeField, Repeat.count?, Option.getD_some, Nat.mul_one]
    rw [Nat.add_zero] at read
    rw [read]
  | count n =>
    obtain ⟨entries, read⟩ := decodeEntries_zeros entry n
    refine ⟨fun more _ => found n more, [.list entries], ?_⟩
    simp only [decodeField, Repeat.count?, Option.getD_some, read]
  | wildcard =>
    -- Where nothing is left there is no entry.
    refine ⟨fun more last => ?_, [.list []], ?_⟩
    · rw [last rfl]
      rfl
    · simp [decodeField, Repeat.count?, zeros, decodeAllEntries]

/-- Every row is read from as many zeros as its least size says. -/
theorem settles (order : ByteOrder) :
    (∀ field, FieldSettles order field) ∧ ∀ fields, RowSettles order fields := by
  refine Field.row_induction (primitive_settles order) (text_settles order) (raw_settles order)
    (fun _ times row => group_settles row times) ?_ ?_
  · -- Of no fields nothing is read.
    intro inGroup least _ total more _
    cases total
    exact ⟨[], rfl⟩
  · intro field others fieldSettles othersSettle inGroup least sound total more last
    obtain ⟨fieldSound, wildcardLast, othersSound⟩ := sound
    obtain ⟨first, rest, hereTotal, restTotal, rfl, fits⟩ := totalMinSize_cons total
    obtain ⟨found, here, read⟩ := fieldSettles fieldSound hereTotal (by omega)
    obtain ⟨behind, readRest⟩ := othersSettle othersSound restTotal more last
    -- Behind a wildcard there is no field, and outside of groups no byte.
    have nothing : field.times = .wildcard → rest + more = 0 := by
      intro wildcard
      obtain ⟨outside, _, rfl⟩ := wildcardLast wildcard
      cases restTotal
      rw [last outside]
    rw [Nat.add_assoc]
    refine ⟨here ++ behind, decodeRow_cons.mpr ⟨first, rest, here, behind, found _ nothing, ?_, ?_,
      ?_, rfl, rfl⟩⟩
    · rw [length_zeros]
      exact Nat.le_add_right ..
    · rw [take_zeros]
      exact read
    · rw [drop_zeros]
      exact readRest

end Codec

namespace Format

/-- In a format that can be read, the least size is kept and is that of the smallest payload: what
is decoded is no shorter, and as many zeros are decoded. Where no field, at any depth, is a string
or takes all that remains, all payloads that are decoded have that size. -/
theorem decode_least {source : String} {format : Format} (parsed : parse source = .ok format) :
    ∃ least, Field.totalMinSize format.fields = some least ∧
      (∀ payload values, format.decode payload = .ok values → least ≤ payload.length) ∧
      (∃ values, format.decode (zeros least) = .ok values) ∧
      ((∀ part ∈ rowParts format.fields, part.IsRigid) →
        ∀ payload values, format.decode payload = .ok values → payload.length = least) := by
  have sound := parse_sound parsed
  obtain ⟨least, total⟩ := Option.isSome_iff_exists.mp sound.size
  -- A payload that is decoded is the extent of the row.
  have extent : ∀ {payload values}, format.decode payload = .ok values →
      rowExtent format.fields payload = .ok payload.length :=
    fun decoded => Codec.rowExtent_of_decodeRow (decode_eq_ok.mp decoded)
  obtain ⟨values, read⟩ := (Codec.settles format.order).2 format.fields sound.fields total 0
    fun _ => rfl
  refine ⟨least, total, fun payload values decoded => ?_, ⟨values, ?_⟩,
    fun rigid payload values decoded => ?_⟩
  · exact minSize_le_extent.2 format.fields (extent decoded) total
  · rw [decode_eq_ok, length_zeros]
    exact read
  · exact extent_rigid.2 format.fields rigid (extent decoded) total

/-- A byte of padding and two pairs take seven bytes at the least: any more where the second part of
a pair is a string and doubles may follow, and just seven where it is a run of one byte. -/
theorem decode_least_pairs : ∃ format rigid, parse "x2(hS)*d" = .ok format ∧
    parse "x2(hX)" = .ok rigid ∧ (∃ values, format.decode (zeros 7) = .ok values) ∧
    (∀ payload values, format.decode payload = .ok values → 7 ≤ payload.length) ∧
    ∀ payload values, rigid.decode payload = .ok values → payload.length = 7 := by
  have parsed : parse "x2(hS)*d" = .ok ⟨"x2(hS)*d", .little, [.primitive .pad .once,
      .group [.primitive .int16 .once, .text .once] (.count 2),
      .primitive .double .wildcard]⟩ := by cbv
  have parsedRigid : parse "x2(hX)" = .ok ⟨"x2(hX)", .little, [.primitive .pad .once,
      .group [.primitive .int16 .once, .raw .once] (.count 2)]⟩ := by cbv
  -- The least size of each format is evaluated, and the theorem speaks of no other.
  obtain ⟨least, total, bound, read, _⟩ := decode_least parsed
  obtain rfl : 7 = least := Option.some.inj total
  obtain ⟨size, totalRigid, _, _, exactly⟩ := decode_least parsedRigid
  obtain rfl : 7 = size := Option.some.inj totalRigid
  -- The second format has neither strings nor a wildcard inside.
  refine ⟨_, _, parsed, parsedRigid, read, bound, exactly ?_⟩
  simp [rowParts, Field.inside, Field.IsRigid, Field.times]

end Format

end BoardRpc
