import BoardRpc.Proofs.Format.Listing
import BoardRpc.Rpc.Binding

/-! Signatures: parameters and results against the arguments that are encoded and the values that
are decoded. -/

namespace BoardRpc

/-- A field accepts as many arguments as it claims. -/
theorem Field.accepts_claim (field : Field) (available : Nat) :
    field.arity.accepts (field.arity.claim available) = true := by
  by_cases wildcard : field.times = .wildcard
  · -- What takes all that remains takes any number, unless it is one argument anyway.
    cases field with
    | primitive kind times =>
      obtain rfl : times = .wildcard := wildcard
      by_cases padding : kind = .pad
      · subst padding
        rfl
      · rw [Codec.arity_primitive padding]
        exact decide_eq_true (Nat.zero_le available)
    | text times =>
      obtain rfl : times = .wildcard := wildcard
      exact decide_eq_true (Nat.zero_le available)
    | raw | group => rfl
  · -- A count is what the field claims, and nothing else is accepted.
    obtain ⟨n, counted⟩ := Codec.arity_exact wildcard
    rw [counted]
    exact beq_self_eq_true n

/-- A row is written from as many arguments as it counts. -/
theorem Codec.encodeFrom_counted {order : ByteOrder} {whole fields : List Field}
    {given index : Nat} {args : List Value} {bytes : Bytes}
    (encoded : encodeFrom order whole given index fields args = .ok bytes) :
    Counted fields args.length := by
  -- Every field takes what it claims, and nothing is left behind the last.
  induction fields generalizing index args bytes with
  | nil =>
    cases args with
    -- Nothing is claimed and nothing is left.
    | nil => rfl
    | cons => cases encoded
  | cons field others ih =>
    obtain ⟨enough, _, _, _, rest, _⟩ := encodeFrom_cons.mp encoded
    refine ⟨_, _, field.accepts_claim args.length, ih rest, ?_⟩
    -- What the field takes and what it leaves are all that there was.
    rw [List.length_drop]
    exact (Nat.add_sub_cancel' enough).symm

namespace Format

variable {source : String} {format : Format} {args values : List Value} {payload : Bytes}

/-- What is encoded is accepted by its number. -/
theorem encode_accepts (encoded : format.encode args = .ok payload) :
    format.arity.accepts args.length = true := by
  -- The source of the format is only told of in errors.
  rw [encode, mapError_eq_ok] at encoded
  exact Codec.arityOf_accepts (Codec.encodeFrom_counted encoded)

/-- So is what is decoded. -/
theorem Sound.decode_accepts (sound : format.Sound) (decoded : format.decode payload = .ok values) :
    format.arity.accepts values.length = true :=
  -- Decoding yields as many values as the fields count.
  Codec.arityOf_accepts (decode_yields sound decoded).counted

/-- Parameters are listed where the annotations of the arguments are, one for each of them. -/
theorem length_of_parameters? {binding : RpcBinding} {parameters : List String}
    (listed : binding.parameters? = some parameters) :
    parameters.length = binding.inFormat.annotations.length := by
  -- Each annotation is given its name in its place.
  obtain ⟨_, _, rfl⟩ := Option.map_eq_some_iff.mp listed
  exact List.length_mapIdx

/-- So are results, where the annotations of the values are. -/
theorem length_of_results? {binding : RpcBinding} {results : List String}
    (listed : binding.results? = some results) :
    results.length = binding.outFormat.annotations.length := by
  obtain ⟨_, _, rfl⟩ := Option.map_eq_some_iff.mp listed
  exact List.length_mapIdx

/-- The annotations that are listed of a format that can be read are those of its arguments: as many
as it takes, where their number is fixed, and otherwise one for each that must be given and one for
all others. They are listed if all names that are written for them have no more than 2^56 bytes
together; they are not if more names are to stand in one list than it can hold, at whatever depth.
Where the number of arguments is fixed, those that are encoded are as many as the parameters that
are listed of a binding with that format, and the values that are decoded are as many as the
results. -/
theorem annotations_of_arguments (parsed : parse source = .ok format) :
    (∀ names, format.annotations? = some names →
      (∀ n, format.arity = .exact n → names.length = n) ∧
      (∀ n, format.arity = .atLeast n → names.length = n + 1)) ∧
    (format.nameBytes ≤ 72057594037927936 → ∃ names, format.annotations? = some names) ∧
    (∀ row, format.Lists row → 384307168202282325 < (annotateRow row).length →
      format.annotations? = none) ∧
    ∀ (binding : RpcBinding) (n : Nat), format.arity = .exact n →
      (binding.inFormat = format → ∀ parameters args payload,
        binding.parameters? = some parameters → format.encode args = .ok payload →
        args.length = parameters.length) ∧
      (binding.outFormat = format → ∀ results payload values,
        binding.results? = some results → format.decode payload = .ok values →
        values.length = results.length) := by
  have sound := parse_sound parsed
  -- Listed or not, there is an annotation for each place of the arity.
  have places := sound.length_annotations
  have limit : listLimit = 384307168202282325 := by decide
  refine ⟨fun names listed => ?_, fun few => ?_, fun row lists many => ?_, fun binding n counted =>
    ⟨?_, ?_⟩⟩
  · -- The annotations that are listed are those that would be without a limit.
    obtain ⟨_, rfl⟩ := annotations?_eq_some.mp listed
    refine ⟨fun n counted => ?_, fun n counted => ?_⟩
    · rw [places, counted]
      rfl
    · rw [places, counted]
      rfl
  · -- Names of that many bytes are few enough for every list and every text.
    exact ⟨_, annotations?_of_bytes (by omega)⟩
  · -- The list that cannot be made is one of those that all others wait for.
    exact annotations?_eq_none lists (by omega)
  · -- Encoding accepts the number of arguments, and there is only one number to accept.
    rintro rfl parameters args payload listed encoded
    have accepted := encode_accepts encoded
    rw [counted] at accepted places
    rw [length_of_parameters? listed, places]
    exact beq_iff_eq.mp accepted
  · -- The same goes for decoding, as a payload is refused if values are missing.
    rintro rfl results payload values listed decoded
    have accepted := sound.decode_accepts decoded
    rw [counted] at accepted places
    rw [length_of_results? listed, places]
    exact beq_iff_eq.mp accepted

/-- A number, a byte of padding, two pairs and a run are three arguments, and so three parameters,
or three results; where strings may follow a number there are two annotations. All of these can be
listed. -/
theorem annotations_of_arguments_pairs : ∃ fixed strings args payload,
    parse "bx2(BS)*X" = .ok fixed ∧ fixed.arity = .exact 3 ∧
    (∃ names, fixed.annotations? = some names ∧ names.length = 3) ∧
    parse "h*S" = .ok strings ∧ strings.arity = .atLeast 1 ∧
    (∃ names, strings.annotations? = some names ∧ names.length = 2) ∧
    args = [.int 1, .list [.tuple [.uint 2, .str "a"], .tuple [.uint 3, .str ""]], .bytes [9]] ∧
    fixed.encode args = .ok payload ∧ fixed.decode payload = .ok args ∧
    ∀ binding : RpcBinding,
      (binding.inFormat = fixed → ∀ parameters, binding.parameters? = some parameters →
        args.length = parameters.length) ∧
      (binding.outFormat = fixed → ∀ results, binding.results? = some results →
        args.length = results.length) := by
  have fixed : parse "bx2(BS)*X" = .ok ⟨"bx2(BS)*X", .little, [.primitive .int8 .once,
      .primitive .pad .once, .group [.primitive .uint8 .once, .text .once] (.count 2),
      .raw .wildcard]⟩ := by cbv
  have strings : parse "h*S" = .ok ⟨"h*S", .little,
      [.primitive .int16 .once, .text .wildcard]⟩ := by cbv
  -- Each format is taken through the theorem once, and its parts are used below.
  obtain ⟨listed, few, _, filled⟩ := annotations_of_arguments fixed
  obtain ⟨listedStrings, fewStrings, _, _⟩ := annotations_of_arguments strings
  obtain ⟨names, three⟩ := few (by cbv)
  obtain ⟨stringNames, two⟩ := fewStrings (by cbv)
  -- Reading the bytes is evaluated once, for both that it is possible and what comes of it.
  have decoded : decode ⟨"bx2(BS)*X", .little, [.primitive .int8 .once, .primitive .pad .once,
      .group [.primitive .uint8 .once, .text .once] (.count 2), .raw .wildcard]⟩
      [1, 0, 2, 97, 0, 3, 0, 9] = .ok [.int 1,
        .list [.tuple [.uint 2, .str "a"], .tuple [.uint 3, .str ""]], .bytes [9]] := by
    cbv
  refine ⟨_, _, _, _, fixed, rfl, ⟨names, three, (listed names three).1 3 rfl⟩, strings, rfl,
    ⟨stringNames, two, (listedStrings stringNames two).2 1 rfl⟩, rfl, rfl, decoded,
    fun binding => ⟨fun same parameters told => ?_, fun same results told => ?_⟩⟩
  · exact (filled binding 3 rfl).1 same parameters _ [1, 0, 2, 97, 0, 3, 0, 9] told rfl
  · exact (filled binding 3 rfl).2 same results _ _ told decoded

/-- Entries of a group are one argument, and none of them is required here; still its one annotation
cannot be listed, as the name of the group would be made of more names than a list can hold. -/
theorem annotations_not_listed : ∃ format, parse "0(18446744073709551615B)" = .ok format ∧
    format.arity = .exact 1 ∧ format.encode [.list []] = .ok [] ∧
    ¬ ∃ names, format.annotations? = some names ∧ names.length = 1 := by
  have parsed : parse "0(18446744073709551615B)" = .ok ⟨"0(18446744073709551615B)", .little,
      [.group [.primitive .uint8 (.count 18446744073709551615)] (.count 0)]⟩ := by cbv
  refine ⟨_, parsed, rfl, rfl, ?_⟩
  -- The names in the body are counted before any is written.
  rintro ⟨names, listed, _⟩
  have counted : tallyRow? [.group [.primitive .uint8 (.count 18446744073709551615)] (.count 0)]
      = none := by decide
  rw [annotations?, counted] at listed
  cases listed

/-- An annotation of a format that can be read is marked as that of any number of arguments exactly
if it is the last, and either any number more may be given or the format ends in entries. In that
case the entries are one argument, and the number of arguments is fixed. The mark is what parameters
and results have in front of them. -/
theorem variadic_iff (parsed : parse source = .ok format) {index : Nat} {text : String}
    (entry : format.annotations[index]? = some text) :
    (isVariadic text = true ↔ index + 1 = format.annotations.length ∧
      ((∃ n, format.arity = .atLeast n) ∨ format.EndsInEntries)) ∧
    (format.EndsInEntries → format.arity = .exact format.annotations.length) ∧
    ∀ binding : RpcBinding,
      (binding.inFormat = format → binding.parameters[index]? =
        some ((if isVariadic text then "*" else "")
          ++ (paramName? binding.inParamNames index).getD s!"arg{index + 1}" ++ ": " ++ text)) ∧
      (binding.outFormat = format → binding.results[index]? =
        some ((if isVariadic text then "*" else "")
          ++ ((paramName? binding.outParamNames index).map (· ++ ": ")).getD "" ++ text)) := by
  have sound := parse_sound parsed
  -- Whether more arguments may be given is one bit of the arity.
  have opened : format.arity.isOpen = true ↔ ∃ n, format.arity = .atLeast n := by
    cases format.arity <;> simp [Arity.isOpen]
  refine ⟨?_, fun entries => ?_, fun binding => ⟨?_, ?_⟩⟩
  · -- Marks are counted over the fields, from which annotations are made one by one.
    rw [← opened, ← sound.marked_iff]
    exact sound.fields.isVariadic_iff entry
  · -- Where entries end the format there is no other open field, so the arity is a count.
    have closed := sound.not_isOpen entries
    rw [sound.length_annotations]
    cases counted : format.arity with
    | exact n => rfl
    | atLeast n =>
      rw [counted] at closed
      cases closed
  · -- A parameter is the annotation behind its mark and its name.
    rintro rfl
    rw [RpcBinding.parameters, List.getElem?_mapIdx, entry]
    rfl
  · -- A result has no name made from its index: without one it is the annotation alone.
    rintro rfl
    rw [RpcBinding.results, List.getElem?_mapIdx, entry]
    cases paramName? binding.outParamNames index <;> simp [variadicMark, String.append_assoc]

/-- Strings behind a number are marked, and the number is not; pairs behind it are marked, though
they are the second of just two arguments. -/
theorem variadic_iff_strings : ∃ strings pairs,
    parse "h*S" = .ok strings ∧ strings.annotations[0]? = some "int16" ∧
    strings.annotations[1]? = some "string[]" ∧ ¬ isVariadic "int16" = true ∧
    isVariadic "string[]" = true ∧ parse "h*(BS)" = .ok pairs ∧ pairs.EndsInEntries ∧
    pairs.annotations[1]? = some "(uint8, string)[]" ∧ isVariadic "(uint8, string)[]" = true ∧
    pairs.arity = .exact pairs.annotations.length := by
  -- The fields are written out, so that what is said of annotations can be evaluated.
  have strings : parse "h*S" = .ok ⟨"h*S", .little,
      [.primitive .int16 .once, .text .wildcard]⟩ := by cbv
  have pairs : parse "h*(BS)" = .ok ⟨"h*(BS)", .little, [.primitive .int16 .once,
      .group [.primitive .uint8 .once, .text .once] .wildcard]⟩ := by cbv
  obtain ⟨number, _⟩ := @variadic_iff _ _ strings 0 "int16" rfl
  obtain ⟨others, _⟩ := @variadic_iff _ _ strings 1 "string[]" rfl
  obtain ⟨entries, closed, _⟩ := @variadic_iff _ _ pairs 1 "(uint8, string)[]" rfl
  refine ⟨_, _, strings, rfl, rfl, fun marked => ?_, others.mpr ⟨rfl, .inl ⟨1, rfl⟩⟩, pairs,
    ⟨_, rfl⟩, rfl, entries.mpr ⟨rfl, .inr ⟨_, rfl⟩⟩, closed ⟨_, rfl⟩⟩
  -- The number is not the last of the two annotations, so it is not marked.
  exact absurd (number.mp marked).1 (by decide)

/-- Pairs alone are one argument, and two are refused; still it is marked as if there might be any
number of them. -/
theorem entries_marked : ∃ format text, parse "*(BS)" = .ok format ∧
    format.annotations[0]? = some text ∧
    ¬ (isVariadic text = true ↔
      0 + 1 = format.annotations.length ∧ ∃ n, format.arity = .atLeast n) ∧
    (∃ error, format.encode [.tuple [.uint 1, .str "a"], .tuple [.uint 2, .str "b"]]
      = .error error) ∧
    ∀ binding : RpcBinding, binding.inFormat = format → binding.inParamNames = none →
      binding.parameters = ["*arg1: (uint8, string)[]"] := by
  have parsed : parse "*(BS)" = .ok ⟨"*(BS)", .little,
      [.group [.primitive .uint8 .once, .text .once] .wildcard]⟩ := by cbv
  have marked : isVariadic "(uint8, string)[]" = true := by cbv
  refine ⟨_, "(uint8, string)[]", parsed, rfl, fun claimed => ?_, ⟨_, rfl⟩, ?_⟩
  · -- The mark would tell of more arguments than one.
    obtain ⟨_, n, counted⟩ := claimed.mp marked
    cases counted
  · intro binding same unnamed
    rw [RpcBinding.parameters, same, unnamed]
    cbv

end Format

end BoardRpc
