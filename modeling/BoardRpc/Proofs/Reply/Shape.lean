import BoardRpc.Format.Arity
import BoardRpc.Proofs.Codec.Yields
import BoardRpc.Reply

/-! The shape of replies: one value on its own or a sequence, as the format alone tells. -/

namespace BoardRpc

/-- A count with no arguments added to it stays as it is, provided it can be kept. -/
theorem Arity.checkedAdd_none {a b total : Arity} (added : a.checkedAdd b = some total) :
    total.checkedAdd (.exact 0) = some total := by
  -- A total was checked when it was made, and it is not larger now.
  have kept : ∀ {n sum}, checkedSize n = some sum → checkedSize (sum + 0) = some sum := by
    intro n sum counted
    unfold checkedSize at counted ⊢
    split at counted
    · rename_i small
      cases counted
      exact if_pos small
    · cases counted
  cases a <;> cases b <;>
    (obtain ⟨sum, counted, rfl⟩ := Option.map_eq_some_iff.mp added
     exact Option.map_eq_some_iff.mpr ⟨sum, kept counted, rfl⟩)

/-- Padding takes no arguments. -/
theorem Field.arity_padding {field : Field} (padding : field.isPadding = true) :
    field.arity = .exact 0 := by
  cases field with
  | primitive kind _ => cases kind <;> first | rfl | cases padding
  | text | raw | group => cases padding

/-- Padding yields no values. -/
theorem Field.Yields.padding {field : Field} {values : List Value} (yields : field.Yields values)
    (padding : field.isPadding = true) : values = [] := by
  cases field with
  | primitive kind _ => cases kind <;> first | exact yields | cases padding
  | text | raw | group => cases padding

/-- A row takes the arguments of its fields that are no padding. -/
theorem checkedArity_unpadded (fields : List Field) :
    checkedArity (fields.filter (!·.isPadding)) = checkedArity fields := by
  -- Any count that the row comes by can take no arguments more, which is what padding takes.
  have general : ∀ start : Arity, start.checkedAdd (.exact 0) = some start →
      (fields.filter (!·.isPadding)).foldlM (fun total field => total.checkedAdd field.arity) start
        = fields.foldlM (fun total field => total.checkedAdd field.arity) start := by
    induction fields with
    | nil => exact fun _ _ => rfl
    | cons field others ih =>
      intro start kept
      rw [List.foldlM_cons]
      cases padding : field.isPadding with
      | true =>
        -- The count goes past padding unchanged.
        rw [List.filter_cons_of_neg (by simp [padding]), Field.arity_padding padding, kept]
        exact ih start kept
      | false =>
        -- Both counts go on from the same total, or neither does.
        rw [List.filter_cons_of_pos (by simp [padding]), List.foldlM_cons]
        cases added : start.checkedAdd field.arity with
        | none => rfl
        | some total => exact ih total (Arity.checkedAdd_none added)
  exact general (.exact 0) rfl

/-- A row yields what its fields that are no padding yield. -/
theorem RowYields.unpadded {fields : List Field} {values : List Value}
    (yields : RowYields fields values) : RowYields (fields.filter (!·.isPadding)) values := by
  induction fields generalizing values with
  | nil => exact yields
  | cons field others ih =>
    obtain ⟨here, more, rfl, first, rest⟩ := yields
    cases padding : field.isPadding with
    | true =>
      -- Nothing was yielded here, so all values are those of the others.
      rw [List.filter_cons_of_neg (by simp [padding]), first.padding padding]
      exact ih rest
    | false =>
      rw [List.filter_cons_of_pos (by simp [padding])]
      exact ⟨here, more, rfl, first, ih rest⟩

/-- A field that is a run of bytes, or that does not repeat or has a count of one, is one argument,
unless it is padding. -/
theorem Field.arity_one {field : Field} (slot : field.isPadding = false)
    (one : field.conglomerates = true ∨ field.times = .once ∨ field.times = .count 1) :
    field.arity = .exact 1 := by
  cases field with
  | primitive kind times =>
    -- Slots and strings take as many arguments as they repeat, runs and groups take one anyway.
    rw [Codec.arity_primitive (by rintro rfl; cases slot)]
    obtain one | rfl | rfl := one
    · cases one
    all_goals rfl
  | text times =>
    obtain one | rfl | rfl := one
    · cases one
    all_goals rfl
  | raw | group => rfl

namespace Format

variable {format : Format}

/-- Replies collapse in a format that is one field, padding aside, with one argument. -/
theorem collapses_field (collapses : format.collapses = true) :
    ∃ field, format.fields.filter (!·.isPadding) = [field] ∧ field.arity = .exact 1 := by
  unfold Format.collapses at collapses
  split at collapses
  · rename_i field alone
    have slot : field ∈ format.fields.filter (!·.isPadding) := by simp [alone]
    refine ⟨field, alone, Field.arity_one (by simpa using (List.mem_filter.mp slot).2) ?_⟩
    simpa [or_assoc] using collapses
  · cases collapses

/-- A format in which replies collapse takes one argument. -/
theorem arity_of_collapses (collapses : format.collapses = true) : format.arity = .exact 1 := by
  obtain ⟨field, alone, one⟩ := collapses_field collapses
  -- Without its padding the row is that one field.
  show (checkedArity format.fields).getD _ = _
  rw [← checkedArity_unpadded, alone, checkedArity, List.foldlM_cons, one]
  rfl

/-- A payload in a format in which replies collapse yields one value. -/
theorem one_of_collapses (sound : format.Sound) (collapses : format.collapses = true)
    {payload : Bytes} {values : List Value} (decoded : format.decode payload = .ok values) :
    ∃ value, values = [value] := by
  obtain ⟨field, alone, one⟩ := collapses_field collapses
  have yields := (decode_yields sound decoded).unpadded
  rw [alone] at yields
  obtain ⟨here, more, rfl, first, rfl⟩ := yields
  -- The field accepts what it has yielded, and it accepts one value.
  have accepted := first.accepts
  rw [one] at accepted
  rw [List.append_nil]
  exact List.length_eq_one_iff.mp (beq_iff_eq.mp accepted)

/-- The shape of replies is fixed by the format: whatever payload was decoded, the reply is one
value on its own exactly if the format collapses, it has just the values that were decoded, and a
format that collapses takes one argument. -/
theorem reply_shape {source : String} (parsed : parse source = .ok format) :
    (∀ payload values, format.decode payload = .ok values →
      ((∃ value, format.collapse values = .single value) ↔ format.collapses = true) ∧
      (format.collapse values).values = values) ∧
    (format.collapses = true → format.arity = .exact 1) := by
  refine ⟨fun payload values decoded => ⟨⟨?_, ?_⟩, collapse_values format values⟩,
    arity_of_collapses⟩
  · -- Only a format that collapses has one value stand on its own.
    rintro ⟨value, single⟩
    unfold collapse at single
    split at single
    · split at single
      · assumption
      · cases single
    · cases single
  · -- And there such a value is all that can have been decoded.
    intro collapses
    obtain ⟨value, rfl⟩ := one_of_collapses (parse_sound parsed) collapses decoded
    exact ⟨value, if_pos collapses⟩

/-- A string between padding stands on its own, and a wildcard that found one byte does not. -/
theorem reply_shape_padded : ∃ text bytes,
    parse "2xSx" = .ok text ∧ parse "*B" = .ok bytes ∧
    (∃ value, text.collapse [.str "a"] = .single value) ∧ text.arity = .exact 1 ∧
    ¬ ∃ value, bytes.collapse [.uint 7] = .single value := by
  have padded : parse "2xSx" = .ok ⟨"2xSx", .little,
      [.primitive .pad (.count 2), .text .once, .primitive .pad .once]⟩ := by cbv
  have repeated : parse "*B" = .ok ⟨"*B", .little, [.primitive .uint8 .wildcard]⟩ := by cbv
  refine ⟨_, _, padded, repeated, ?_, (reply_shape padded).2 rfl, ?_⟩
  · exact ((reply_shape padded).1 [0, 0, 97, 0, 0] _ (by cbv)).1.mpr rfl
  · -- A reply on its own would mean that the format collapses, whatever was decoded.
    intro single
    have collapses := ((reply_shape repeated).1 [7] _ (by cbv)).1.mp single
    exact Bool.false_ne_true collapses

end Format

end BoardRpc
