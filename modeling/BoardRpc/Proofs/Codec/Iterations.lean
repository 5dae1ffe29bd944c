import BoardRpc.Proofs.Codec.Faults

/-! Iterations: every entry of a repeated group takes its least size at least, so that reading
entries comes to an end, with no more of them than there are bytes. -/

namespace BoardRpc

mutual

/-- The lists in a value, at every depth. -/
def Value.lists : Value → List (List Value)
  | .list items => items :: listsOf items
  | .tuple items => listsOf items
  | _ => []

/-- The lists in values in a row, at every depth. -/
def listsOf : List Value → List (List Value)
  | [] => []
  | value :: others => value.lists ++ listsOf others

end

/-- A list is in a row when it is in one of its values. -/
theorem mem_listsOf {values : List Value} {list : List Value} :
    list ∈ listsOf values ↔ ∃ value ∈ values, list ∈ value.lists := by
  induction values with
  | nil => simp [listsOf]
  | cons value others ih => simp [listsOf, ih]

namespace Codec

/-- What reads one entry of a group: its elements, and the bytes that it takes. -/
abbrev EntryReader := Bytes → Except FieldFault (List Value × Nat)

/-- Entries that are read one behind the other from the front of a payload, and the bytes that are
left behind them. -/
inductive Iterates (entry : EntryReader) : Bytes → List Value → Bytes → Prop
  | nil (data : Bytes) : Iterates entry data [] data
  | cons {data rest : Bytes} {items entries : List Value} {size : Nat}
      (first : entry data = .ok (items, size))
      (others : Iterates entry (data.drop size) entries rest) :
      Iterates entry data (.tuple items :: entries) rest

/-- The loop over the entries of a wildcard, which nothing ends but the end of the payload or a
fault, with the result that it ends with. -/
inductive LoopEnds (entry : EntryReader) : Bytes → Except FieldFault (List Value) → Prop
  | done : LoopEnds entry [] (.ok [])
  | failed {data : Bytes} {fault : FieldFault} (left : data ≠ [])
      (first : entry data = .error fault) :
      LoopEnds entry data (.error fault)
  | next {data : Bytes} {items : List Value} {size : Nat} {result : Except FieldFault (List Value)}
      (left : data ≠ []) (first : entry data = .ok (items, size))
      (others : LoopEnds entry (data.drop size) result) :
      LoopEnds entry data (result.map (.tuple items :: ·))

/-- While fields in a row are read from the front of a payload, a part of them, at whatever depth,
is read from its span of the payload as values. -/
inductive ReadWithin (order : ByteOrder) : List Field → Bytes → Field → Bytes → List Value → Prop
  | here {field : Field} {others : List Field} {data : Bytes} {size : Nat} {values : List Value}
      (found : field.extent data = .ok size)
      (read : decodeField order field (data.take size) = .ok values) :
      ReadWithin order (field :: others) data field (data.take size) values
  | behind {field part : Field} {others : List Field} {data span : Bytes} {size : Nat}
      {values results : List Value} (found : field.extent data = .ok size)
      (read : decodeField order field (data.take size) = .ok values)
      (there : ReadWithin order others (data.drop size) part span results) :
      ReadWithin order (field :: others) data part span results
  /-- Inside of a group, the part is read with an entry, which follows others. -/
  | inside {body others : List Field} {times : Repeat} {part : Field} {data rest span : Bytes}
      {size : Nat} {before results : List Value}
      (found : (Field.group body times).extent data = .ok size)
      (front : Iterates (fun rest => decodeRow order body rest) (data.take size) before rest)
      (counted : ∀ count, times.count? = some count → before.length < count)
      (left : times = .wildcard → rest ≠ [])
      (there : ReadWithin order body rest part span results) :
      ReadWithin order (.group body times :: others) data part span results

variable {entry : EntryReader} {order : ByteOrder} {field part : Field}
  {body fields : List Field} {times : Repeat} {data rest span : Bytes} {entries values : List Value}
  {least size : Nat}

section Iterates

/-- What is left behind entries is no longer than what they were read from. -/
theorem Iterates.length_le (iterates : Iterates entry data entries rest) :
    rest.length ≤ data.length := by
  -- Each entry is followed by what is left behind it.
  induction iterates with
  | nil => exact Nat.le_refl _
  | cons _ _ ih =>
    rw [List.length_drop] at ih
    omega

/-- Entries of a least size take it each from the bytes that there are. -/
theorem Iterates.bounded
    (each : ∀ {data items size}, entry data = .ok (items, size) → least ≤ size ∧ size ≤ data.length)
    (iterates : Iterates entry data entries rest) :
    entries.length * least + rest.length ≤ data.length := by
  -- The first entry takes its least size, and the others follow behind what it takes.
  induction iterates with
  | nil => simp
  | cons first _ ih =>
    obtain ⟨enough, within⟩ := each first
    rw [List.length_drop] at ih
    rw [List.length_cons, Nat.succ_mul]
    omega

/-- An entry among others is read behind those in front of it. -/
theorem Iterates.split (iterates : Iterates entry data entries rest) {value : Value}
    (here : value ∈ entries) : ∃ before middle items size, Iterates entry data before middle ∧
      before.length < entries.length ∧ entry middle = .ok (items, size) ∧ value = .tuple items := by
  -- It is the first entry, with none in front of it, or among those behind the first.
  induction iterates with
  | nil => cases here
  | @cons data _ items entries size first _ ih =>
    rcases List.mem_cons.mp here with rfl | behind
    · exact ⟨[], data, items, size, .nil data, Nat.succ_pos _, first, rfl⟩
    · obtain ⟨before, middle, items', size', front, fewer, read, same⟩ := ih behind
      exact ⟨.tuple items :: before, middle, items', size', .cons first front,
        Nat.succ_lt_succ fewer, read, same⟩

/-- A known number of entries is read one behind the other. -/
theorem iterates_of_decodeEntries {count : Nat}
    (read : decodeEntries entry count data = .ok entries) :
    ∃ rest, Iterates entry data entries rest ∧ entries.length = count := by
  -- Reading succeeds only where every entry in turn is read.
  induction count generalizing data entries with
  | zero =>
    cases read
    exact ⟨data, .nil data, rfl⟩
  | succ count ih =>
    simp only [decodeEntries] at read
    split at read
    · cases read
    · rename_i items size first
      split at read
      · cases read
      · rename_i others behind
        cases read
        obtain ⟨rest, iterates, length⟩ := ih behind
        exact ⟨rest, .cons first iterates, congrArg Nat.succ length⟩

/-- Entries up to the end are read one behind the other. -/
theorem iterates_of_decodeAllEntries (read : decodeAllEntries entry data = .ok entries) :
    Iterates entry data entries [] := by
  -- The induction is on the entries, each of which was read from where the one before it ended.
  induction entries generalizing data with
  | nil =>
    -- No entry was read, so nothing was left.
    cases empty : data.isEmpty with
    | true =>
      rw [List.isEmpty_iff.mp empty]
      exact .nil []
    | false =>
      obtain ⟨_, _, _, _, _, _, same⟩ := (decodeAllEntries_ok empty).mp read
      cases same
  | cons value others ih =>
    -- An entry was read, so there was something left for it.
    cases empty : data.isEmpty with
    | true =>
      rw [decodeAllEntries, if_pos empty] at read
      cases read
    | false =>
      obtain ⟨items, size, more, first, _, behind, same⟩ := (decodeAllEntries_ok empty).mp read
      cases same
      exact .cons first (ih behind)

/-- Where every entry takes something, the loop over entries ends, as reading up to the end does. -/
theorem loopEnds (growing : ∀ {data items size}, entry data = .ok (items, size) → 0 < size)
    (data : Bytes) : LoopEnds entry data (decodeAllEntries entry data) := by
  -- The induction is on the bytes that are left behind the entries so far.
  induction left : data.length using Nat.strong_induction_on generalizing data with
  | _ length ih =>
    subst left
    rw [decodeAllEntries]
    cases data with
    -- Nothing is left, and the loop ends here.
    | nil => exact .done
    | cons byte tail =>
      have some : byte :: tail ≠ [] := List.cons_ne_nil byte tail
      simp only [List.isEmpty_cons, Bool.false_eq_true, if_false]
      cases first : entry (byte :: tail) with
      | error fault => exact .failed some first
      | ok found =>
        obtain ⟨items, size⟩ := found
        -- Something is taken, so that less is left for the entries behind.
        have positive : 0 < size := growing first
        have others := ih ((byte :: tail).drop size).length
          (by rw [List.length_drop, List.length_cons]; omega) _ rfl
        simp only [dif_neg (Nat.ne_of_gt positive)]
        have next := LoopEnds.next some first others
        cases behind : decodeAllEntries entry ((byte :: tail).drop size) with
        | error fault =>
          rw [behind] at next
          exact next
        | ok more =>
          rw [behind] at next
          exact next

end Iterates

section ReadWithin

/-- A part that is read within a row is a part of the row. -/
theorem ReadWithin.mem_rowParts (within : ReadWithin order fields data part span values) :
    part ∈ rowParts fields := by
  -- It is the first field, or among the others, or inside the first field.
  induction within with
  | here => exact .head _
  | behind _ _ _ ih => exact .tail _ (List.mem_append_right _ ih)
  | inside _ _ _ _ _ ih => exact .tail _ (List.mem_append_left _ ih)

/-- What a part is read as is what its span is read as. -/
theorem ReadWithin.decoded (within : ReadWithin order fields data part span values) :
    decodeField order part span = .ok values := by
  -- However deep the part is, it was reached by reading it.
  induction within with
  | here _ read => exact read
  | behind _ _ _ ih => exact ih
  | inside _ _ _ _ _ ih => exact ih

/-- A span lies in the payload. -/
theorem ReadWithin.length_le (within : ReadWithin order fields data part span values) :
    span.length ≤ data.length := by
  -- Every step towards the part cuts bytes off at the front or at the end.
  induction within with
  | here =>
    rw [List.length_take]
    exact Nat.min_le_right ..
  | behind _ _ _ ih =>
    rw [List.length_drop] at ih
    omega
  | inside _ front _ _ _ ih =>
    have cut := front.length_le
    rw [List.length_take] at cut
    omega

end ReadWithin

/-- The entries of a repeated group take their least size each from the span of the group. -/
theorem decodeField_entries
    (each : ∀ {data items size}, decodeRow order body data = .ok (items, size) →
      least ≤ size ∧ size ≤ data.length)
    (repeated : times ≠ .once) (read : decodeField order (.group body times) span = .ok values) :
    ∃ entries, values = [.list entries] ∧ entries.length * least ≤ span.length := by
  -- Both loops iterate over entries, and only the wildcard leaves nothing behind them.
  cases times with
  | once => exact absurd rfl repeated
  -- As many entries are read as the group says, whatever is left behind them.
  | count n =>
    simp only [decodeField] at read
    split at read
    · cases read
    · rename_i entries all
      cases read
      obtain ⟨rest, iterates, _⟩ := iterates_of_decodeEntries all
      have bound := iterates.bounded each
      exact ⟨entries, rfl, by omega⟩
  | wildcard =>
    simp only [decodeField] at read
    split at read
    · cases read
    · rename_i entries all
      cases read
      have bound := (iterates_of_decodeAllEntries all).bounded each
      exact ⟨entries, rfl, bound⟩

/-- Every list in what a field was read as is that of a repeated group which was read within it. -/
def FieldLists (order : ByteOrder) (field : Field) : Prop :=
  ∀ {others data size values}, field.Sound → field.Sized → field.extent data = .ok size →
    decodeField order field (data.take size) = .ok values → ∀ list ∈ listsOf values,
    ∃ body times span, times ≠ .once ∧
      ReadWithin order (field :: others) data (.group body times) span [.list list]

/-- The same of what a row was read as. -/
def RowLists (order : ByteOrder) (fields : List Field) : Prop :=
  ∀ {inGroup data size values}, RowSound inGroup fields → (Field.totalMinSize fields).isSome →
    decodeRow order fields data = .ok (values, size) → ∀ list ∈ listsOf values,
    ∃ body times span, times ≠ .once ∧
      ReadWithin order fields data (.group body times) span [.list list]

/-- No slot of fixed width is read as a list. -/
theorem lists_decodePrimitive (order : ByteOrder) (kind : Primitive) (bytes : Bytes) :
    (decodePrimitive order kind bytes).lists = [] := by
  cases kind <;> rfl

/-- Values of fixed width have no lists. -/
theorem primitive_lists (order : ByteOrder) (kind : Primitive) (times : Repeat) :
    FieldLists order (.primitive kind times) := by
  -- None of these takes a list from its slot, at any place.
  intro others data size values _ _ _ read list here
  -- Each value is read from a slot, and none is read from padding.
  have slots : ∀ count bytes, listsOf (decodeElements order kind count bytes) = [] := by
    intro count
    induction count with
    | zero => exact fun _ => rfl
    | succ count ih =>
      intro bytes
      rw [decodeElements, listsOf, lists_decodePrimitive, ih, List.nil_append]
  by_cases padding : kind = .pad
  · subst padding
    cases read
    cases here
  · rw [decodeField_primitive padding] at read
    split at read
    · cases read
    · cases read
      rw [slots] at here
      cases here

/-- Strings have no lists. -/
theorem text_lists (order : ByteOrder) (times : Repeat) : FieldLists order (.text times) := by
  intro others data size values _ _ _ read list here
  -- What was read is written as strings are, so each value is one.
  have written := encodeEach_decodeTexts read
  obtain ⟨texts, _⟩ := (encodeEach_eq_ok fun value _ => encodeText_eq_ok).mp written
  obtain ⟨value, member, inside⟩ := mem_listsOf.mp here
  have text := texts value member
  cases value with
  | str => cases inside
  | _ => exact text.elim

/-- A list in what a group was read as is that of the group itself, or it was read in one of the
entries. -/
theorem group_lists (row : RowLists order body) (times : Repeat) :
    FieldLists order (.group body times) := by
  intro others data size values sound sized found read list here
  obtain ⟨bodySound, bodySized, growing⟩ := group_body sound sized
  by_cases once : times = .once
  · -- One tuple was read, from the front of the span.
    subst once
    -- The one tuple is the first, with none in front of it.
    have counted : ∀ count, Repeat.once.count? = some count → ([] : List Value).length < count := by
      intro count same
      cases same
      exact Nat.one_pos
    simp only [decodeField] at read
    split at read
    · cases read
    · rename_i items taken readBody
      cases read
      have deeper : list ∈ listsOf items := by
        simpa [listsOf, Value.lists] using here
      obtain ⟨inner, innerTimes, span, repeated, within⟩ :=
        row bodySound bodySized readBody list deeper
      refine ⟨inner, innerTimes, span, repeated, .inside found (.nil _) counted ?_ within⟩
      intro wildcard
      cases wildcard
  · -- A group that repeats is read as its entries, in both kinds of loops.
    obtain ⟨entries, rest, rfl, iterates, counted⟩ : ∃ entries rest, values = [.list entries] ∧
        Iterates (fun rest => decodeRow order body rest) (data.take size) entries rest ∧
        ∀ count, times.count? = some count → entries.length = count := by
      obtain ⟨entries, rfl, all, declared⟩ := decodeField_repeated once sound sized found read
      exact ⟨entries, [], rfl, iterates_of_decodeAllEntries all, declared⟩
    have cases : list = entries ∨ list ∈ listsOf entries := by
      simpa [listsOf, Value.lists] using here
    rcases cases with rfl | deeper
    · -- The list is the group's own, and its span is where the group was found.
      exact ⟨body, times, _, once, .here found read⟩
    · -- The entry takes something, so there was something left in front of it.
      obtain ⟨value, member, inside⟩ := mem_listsOf.mp deeper
      obtain ⟨before, middle, items, taken, front, fewer, readBody, rfl⟩ := iterates.split member
      have positive : 0 < taken := growing once (rowExtent_of_decodeRow readBody)
      have enough : taken ≤ middle.length := decodeRow_within readBody
      have left : middle ≠ [] := by
        rintro rfl
        exact absurd enough (Nat.not_le.mpr positive)
      obtain ⟨inner, innerTimes, span, repeated, within⟩ :=
        row bodySound bodySized readBody list inside
      refine ⟨inner, innerTimes, span, repeated, .inside found front ?_ (fun _ => left) within⟩
      intro count same
      rw [← counted count same]
      exact fewer

/-- Every list in what a row was read as is that of a repeated group. -/
theorem row_lists (order : ByteOrder) : ∀ fields, RowLists order fields := by
  refine (Field.row_induction (primitive_lists order) (text_lists order) ?_
    (fun _ times row => group_lists row times) ?_ ?_).2
  · intro length others data size values _ _ _ read list here
    cases read
    cases here
  · intro inGroup data size values _ _ read list here
    cases read
    cases here
  · -- What is in a list of values is in the value that a field was read as.
    intro field others fieldLists othersLists inGroup data size values sound sized read list here
    obtain ⟨fieldSound, _, othersSound⟩ := sound
    obtain ⟨_, total⟩ := Option.isSome_iff_exists.mp sized
    obtain ⟨first, rest, hereTotal, restTotal, _, fits⟩ := totalMinSize_cons total
    obtain ⟨taken, behind, values, more, found, _, readHere, readMore, rfl, rfl⟩ :=
      decodeRow_cons.mp read
    obtain ⟨value, member, inside⟩ := mem_listsOf.mp here
    rcases List.mem_append.mp member with inField | inOthers
    · exact fieldLists fieldSound ⟨first, hereTotal, by omega⟩ found readHere list
        (mem_listsOf.mpr ⟨value, inField, inside⟩)
    · -- The list is in one of the other fields, which are read behind this one.
      obtain ⟨body, times, span, repeated, within⟩ :=
        othersLists othersSound (by simp [restTotal]) readMore list
          (mem_listsOf.mpr ⟨value, inOthers, inside⟩)
      exact ⟨body, times, span, repeated, .behind found readHere within⟩

end Codec

/-- The body of a repeated group has a least size that is kept and is not zero, at every depth. -/
theorem repeated_bodies_grow {format : Format} (sound : format.Sound) {body : List Field}
    {times : Repeat} (here : .group body times ∈ rowParts format.fields)
    (repeated : times ≠ .once) :
    ∃ least, Field.totalMinSize body = some least ∧ 1 ≤ least := by
  -- The size of the body is kept, as it was summed up when the format was read.
  obtain ⟨_, sized⟩ := bodies_sized.2 format.fields false sound.fields sound.size body times here
  obtain ⟨grows, _⟩ := (sound_by_parts.2 format.fields false).mp sound.fields
  obtain ⟨_, growing⟩ := grows _ here body times rfl
  obtain ⟨least, total⟩ := Option.isSome_iff_exists.mp sized
  -- A body that may be empty is not repeated.
  refine ⟨least, total, Nat.one_le_iff_ne_zero.mpr ?_⟩
  rintro rfl
  exact growing repeated total

namespace Format

open Codec

/-- A group that repeats makes progress: every entry takes the least size of the body at the least,
which is one byte or more; the loop over entries ends; and entries that are read take their least
sizes from the span of the group. -/
structure Advances (format : Format) (body : List Field) (times : Repeat) (least : Nat) : Prop where
  positive : 1 ≤ least
  entry : ∀ data items size, decodeRow format.order body data = .ok (items, size) →
    least ≤ size ∧ size ≤ data.length
  ends : ∀ data, LoopEnds (fun rest => decodeRow format.order body rest) data
    (decodeAllEntries (fun rest => decodeRow format.order body rest) data)
  bounded : ∀ payload span values,
    ReadWithin format.order format.fields payload (.group body times) span values →
    ∃ entries, values = [.list entries] ∧ entries.length * least ≤ span.length ∧
      entries.length ≤ payload.length

/-- Every group that repeats makes progress, at whatever depth. -/
theorem Sound.advances {format : Format} (sound : format.Sound) {body : List Field} {times : Repeat}
    (here : .group body times ∈ rowParts format.fields) (repeated : times ≠ .once) :
    ∃ least, Field.totalMinSize body = some least ∧ format.Advances body times least := by
  obtain ⟨least, total, positive⟩ := repeated_bodies_grow sound here repeated
  -- An entry is as large as its extent, which is at least the least size of the body.
  have each : ∀ data items size, decodeRow format.order body data = .ok (items, size) →
      least ≤ size ∧ size ≤ data.length := by
    intro data items size read
    exact ⟨minSize_le_extent.2 body (rowExtent_of_decodeRow read) total, decodeRow_within read⟩
  refine ⟨least, total, positive, each, ?_, fun payload span values within => ?_⟩
  · -- The loop ends as every entry takes something.
    apply loopEnds
    intro data items size read
    exact Nat.lt_of_lt_of_le positive (each data items size read).1
  · -- Entries that take a byte each are no more than the bytes of the span.
    obtain ⟨entries, rfl, bound⟩ := decodeField_entries (each _ _ _) repeated within.decoded
    have inside := within.length_le
    have fewer : entries.length ≤ entries.length * least := Nat.le_mul_of_pos_right _ positive
    exact ⟨entries, rfl, bound, by omega⟩

/-- Decoding makes progress: it never gives up for want of it, every group that repeats advances,
and every list in what is decoded, at whatever depth, is that of such a group, so that it is no
longer than the payload. -/
theorem decode_progresses {source : String} {format : Format} (parsed : parse source = .ok format) :
    (∀ payload index, format.decode payload ≠ .error ⟨format.source, .inField index .noProgress⟩) ∧
    (∀ body times, .group body times ∈ rowParts format.fields → times ≠ .once →
      ∃ least, Field.totalMinSize body = some least ∧ format.Advances body times least) ∧
    ∀ payload values, format.decode payload = .ok values → ∀ list ∈ listsOf values,
      list.length ≤ payload.length ∧ ∃ body times span, times ≠ .once ∧
        ReadWithin format.order format.fields payload (.group body times) span [.list list] := by
  have sound := parse_sound parsed
  refine ⟨fun payload index failed => ?_, fun body times => sound.advances,
    fun payload values decoded list here => ?_⟩
  · -- A payload is refused only for bytes that are missing or left over, or for a string.
    rcases decode_fails sound payload _ failed with ⟨_, same⟩ | ⟨_, _, same, ofPayload⟩
    · cases same
    · cases same
      cases ofPayload
  · -- The list was read from the span of its group, which lies in the payload.
    obtain ⟨body, times, span, repeated, within⟩ :=
      row_lists format.order format.fields sound.fields sound.size (decode_eq_ok.mp decoded)
        list here
    obtain ⟨_, _, advances⟩ := sound.advances within.mem_rowParts repeated
    obtain ⟨_, same, _, fewer⟩ := advances.bounded payload span _ within
    cases same
    exact ⟨fewer, body, times, span, repeated, within⟩

/-- Two pairs in an entry of a wildcard: each pair takes two bytes at the least, and no list in what
is decoded is longer than the payload of six. -/
theorem decode_progresses_nested : ∃ format values, parse "*(B2(cS))" = .ok format ∧
    format.decode [7, 97, 0, 98, 99, 0] = .ok values ∧ (∀ list ∈ listsOf values, list.length ≤ 6) ∧
    ∀ data items size, decodeRow format.order [.primitive .char .once, .text .once] data
      = .ok (items, size) → 2 ≤ size := by
  have parsed : parse "*(B2(cS))" = .ok ⟨"*(B2(cS))", .little, [.group [.primitive .uint8 .once,
      .group [.primitive .char .once, .text .once] (.count 2)] .wildcard]⟩ := by cbv
  -- The payload is decoded by evaluation, once for all that is said of it.
  obtain ⟨values, decoded⟩ : ∃ values, Format.decode ⟨"*(B2(cS))", .little,
      [.group [.primitive .uint8 .once, .group [.primitive .char .once, .text .once] (.count 2)]
        .wildcard]⟩ [7, 97, 0, 98, 99, 0] = .ok values := exists_of_isOk (by decide +kernel)
  obtain ⟨_, groups, lists⟩ := decode_progresses parsed
  refine ⟨_, values, parsed, decoded, fun list here => (lists _ _ decoded list here).1, ?_⟩
  -- The pairs are found inside of the entries, where they repeat.
  obtain ⟨least, total, advances⟩ := groups [.primitive .char .once, .text .once] (.count 2)
    (by simp [rowParts, Field.inside]) (by decide)
  obtain rfl : 2 = least := Option.some.inj total
  exact fun data items size read => (advances.entry data items size read).1

end Format

end BoardRpc
