import BoardRpc.Proofs.Codec.Yields
import BoardRpc.Proofs.Rpc.Queries

/-! The methods of the core class: the arguments of each can always be sent, and every response that
can be decoded has the shape that the method reads. -/

namespace BoardRpc

/-- The methods of the core class, by the type of what they tell. -/
inductive CoreMethod : Type → Type
  | boardId : CoreMethod UInt32
  | versionString : CoreMethod String
  | partId : CoreMethod (List UInt32)
  | serialNumber : CoreMethod (List UInt32)
  | availableClasses : CoreMethod (List UInt32)
  | availableVerbs (classNumber : UInt32) : CoreMethod (List UInt32)
  | verbName (classNumber verbNumber : UInt32) : CoreMethod String
  | verbDescriptor (classNumber verbNumber : UInt32) (kind : DescriptorKind) : CoreMethod String
  | className (classNumber : UInt32) : CoreMethod String
  | classDocs (classNumber : UInt32) : CoreMethod String
  | requestReset (resetType : UInt32) : CoreMethod Unit

namespace CoreMethod

variable {α : Type}

/-- The method itself. -/
def action {σ : Type} [Transport σ] : CoreMethod α → Action σ α
  | .boardId => Core.readBoardId
  | .versionString => Core.readVersionString
  | .partId => Core.readPartId
  | .serialNumber => Core.readSerialNumber
  | .availableClasses => Core.getAvailableClasses
  | .availableVerbs classNumber => Core.getAvailableVerbs classNumber
  | .verbName classNumber verbNumber => Core.getVerbName classNumber verbNumber
  | .verbDescriptor classNumber verbNumber kind =>
    Core.getVerbDescriptor classNumber verbNumber kind
  | .className classNumber => Core.getClassName classNumber
  | .classDocs classNumber => Core.getClassDocs classNumber
  | .requestReset resetType => Core.requestReset resetType

/-- The verb that the method calls. -/
def verb : CoreMethod α → CoreVerb
  | .boardId => .readBoardId
  | .versionString => .readVersionString
  | .partId => .readPartId
  | .serialNumber => .readSerialNumber
  | .availableClasses => .getAvailableClasses
  | .availableVerbs _ => .getAvailableVerbs
  | .verbName _ _ => .getVerbName
  | .verbDescriptor _ _ _ => .getVerbDescriptor
  | .className _ => .getClassName
  | .classDocs _ => .getClassDocs
  | .requestReset _ => .requestReset

/-- How the method reads a reply. -/
def read : CoreMethod α → Reply → Except RpcError α
  | .boardId => CoreVerb.readBoardId.singleWord
  | .versionString => CoreVerb.readVersionString.singleText
  | .partId => CoreVerb.readPartId.fixedWords 2
  | .serialNumber => CoreVerb.readSerialNumber.fixedWords 4
  | .availableClasses => CoreVerb.getAvailableClasses.words
  | .availableVerbs _ => CoreVerb.getAvailableVerbs.words
  | .verbName _ _ => CoreVerb.getVerbName.singleText
  | .verbDescriptor _ _ _ => CoreVerb.getVerbDescriptor.singleText
  | .className _ => CoreVerb.getClassName.singleText
  | .classDocs _ => CoreVerb.getClassDocs.singleText
  | .requestReset _ => fun _ => .ok ()

/-- What is written into the slots of the arguments. -/
def slots : CoreMethod α → List Written
  | .boardId | .versionString | .partId | .serialNumber | .availableClasses => []
  | .availableVerbs number | .className number | .classDocs number | .requestReset number =>
    [.word number]
  | .verbName classNumber verbNumber => [.word classNumber, .word verbNumber]
  | .verbDescriptor classNumber verbNumber kind =>
    [.word classNumber, .word verbNumber, .kind kind]

/-- The fields of the response. -/
def fields : CoreMethod α → List Field
  | .boardId => [.primitive .uint32 .once]
  | .partId => [.primitive .uint32 (.count 2)]
  | .serialNumber => [.primitive .uint32 (.count 4)]
  | .availableClasses | .availableVerbs _ => [.primitive .uint32 .wildcard]
  | .versionString | .verbName _ _ | .verbDescriptor _ _ _ | .className _ | .classDocs _ =>
    [.text .once]
  | .requestReset _ => []

/-- The format of the arguments. -/
def input (method : CoreMethod α) : Format :=
  ⟨method.verb.inFormat, .little, method.slots.map fun slot => .primitive slot.type .once⟩

/-- The format of the response. -/
def output (method : CoreMethod α) : Format :=
  ⟨method.verb.outFormat, .little, method.fields⟩

/-- The bytes that are sent. -/
def payload (method : CoreMethod α) : Bytes := method.slots.flatMap (·.bytes)

/-- A method calls its verb, and reads the reply. -/
theorem action_eq {σ : Type} [Transport σ] (method : CoreMethod α) :
    (method.action : Action σ α)
      = method.verb.callAs (method.slots.map (·.arg)) method.read := by
  -- The arguments are those of the slots, method by method.
  cases method <;> rfl

/-- The text of the arguments' format is read as that format. -/
theorem parse_input (method : CoreMethod α) :
    Format.parse method.verb.inFormat = .ok method.input := by
  -- The texts are closed, whatever numbers a method is given.
  cases method <;> cbv

/-- The text of the response's format is read as that format. -/
theorem parse_output (method : CoreMethod α) :
    Format.parse method.verb.outFormat = .ok method.output := by
  cases method <;> cbv

/-- The arguments can be sent, whatever they are. -/
theorem payload_fits (method : CoreMethod α) : 8 + method.payload.length ≤ 4096 := by
  -- There are three slots at most, of four bytes or of one.
  cases method <;> simp [payload, slots, Written.word, Written.kind]

end CoreMethod

section Shapes

/-! The shapes of replies: what is decoded in the format of a method is what the method reads. -/

variable (verb : CoreVerb) {values : List Value}

/-- A slot of four bytes without a sign yields a word. -/
theorem word_of_yields {value : Value} (yields : Primitive.uint32.Yields value) :
    ∃ word, verb.word value = .ok word := by
  -- What the slot held has no sign and takes no more than four bytes.
  cases yields with
  | signed negatable => cases negatable
  -- A slot of four bytes holds less than 2^32, so that nothing is cut off.
  | @unsigned kind n natural held =>
    obtain ⟨_, held⟩ := held
    exact ⟨_, word_of_number rfl (by omega)⟩

/-- Such slots yield as many words. -/
theorem words_of_yields (yields : ∀ value ∈ values, Primitive.uint32.Yields value) :
    ∃ words, values.mapM verb.word = .ok words ∧ words.length = values.length := by
  -- By induction on the slots: the first value is a word, and so are those behind it.
  induction values with
  | nil => exact ⟨[], rfl, rfl⟩
  | cons value others ih =>
    obtain ⟨here, others_yield⟩ := List.forall_mem_cons.mp yields
    obtain ⟨word, first⟩ := word_of_yields verb here
    obtain ⟨words, rest, length⟩ := ih others_yield
    refine ⟨word :: words, ?_, congrArg Nat.succ length⟩
    rw [List.mapM_cons, first, rest]
    rfl

/-- A row of one field yields what the field yields. -/
theorem rowYields_single {field : Field} (yields : RowYields [field] values) :
    field.Yields values := by
  -- Nothing is yielded behind the last field.
  obtain ⟨here, more, rfl, first, none⟩ := yields
  have alone : more = [] := none
  rw [alone, List.append_nil]
  exact first

/-- A format of one string yields one text. -/
theorem text_of_yields (source : String) (yields : RowYields [.text .once] values) :
    ∃ text, verb.singleText ((⟨source, .little, [.text .once]⟩ : Format).collapse values)
      = .ok text := by
  obtain ⟨length, texts⟩ := rowYields_single yields
  obtain ⟨value, rfl⟩ := List.length_eq_one_iff.mp length
  -- The one value is a string, and it stands on its own.
  have isText := texts value (List.mem_singleton.mpr rfl)
  cases value with
  | str text => exact ⟨text, rfl⟩
  | _ => exact isText.elim

/-- A format of one word yields it. -/
theorem singleWord_of_yields (source : String)
    (yields : RowYields [.primitive .uint32 .once] values) :
    ∃ word, verb.singleWord
      ((⟨source, .little, [.primitive .uint32 .once]⟩ : Format).collapse values) = .ok word := by
  -- One value stands alone in a reply, and it is what the slot yields.
  obtain ⟨length, words⟩ := rowYields_single yields
  obtain ⟨value, rfl⟩ := List.length_eq_one_iff.mp length
  exact word_of_yields verb (words value (List.mem_singleton.mpr rfl))

/-- A format of words in any number yields words, as many as it repeats if it says so. -/
theorem manyWords_of_yields (source : String) {times : Repeat}
    (yields : RowYields [.primitive .uint32 times] values) :
    ∃ words, verb.words
        ((⟨source, .little, [.primitive .uint32 times]⟩ : Format).collapse values) = .ok words ∧
      words.length = times.share words.length := by
  obtain ⟨length, slots⟩ := rowYields_single yields
  obtain ⟨words, all, same⟩ := words_of_yields verb slots
  refine ⟨words, ?_, ?_⟩
  · -- Words are read from all values of a reply, whether or not it is collapsed.
    rw [CoreVerb.words, Format.collapse_values]
    exact all
  · rw [same]
    exact length

/-- A format of words in a fixed number yields them. -/
theorem fixedWords_of_yields (source : String) {count : Nat}
    (yields : RowYields [.primitive .uint32 (.count count)] values) :
    ∃ words, verb.fixedWords count
      ((⟨source, .little, [.primitive .uint32 (.count count)]⟩ : Format).collapse values)
        = .ok words := by
  obtain ⟨words, all, length⟩ := manyWords_of_yields verb source yields
  -- The number of words is checked again by the method, and it is what the slot repeats.
  have counted : words.length = count := length
  exact ⟨words, by simp only [CoreVerb.fixedWords, all, if_pos counted]⟩

end Shapes

namespace CoreMethod

variable {α : Type}

/-- Every response that can be decoded has the shape that the method reads. -/
theorem read_decoded (method : CoreMethod α) {response : Bytes} {values : List Value}
    (decoded : method.output.decode response = .ok values) :
    ∃ a, method.read (method.output.collapse values) = .ok a := by
  -- What is decoded depends on the fields alone, so that the shapes above tell all.
  have yields : RowYields method.fields values :=
    Format.decode_yields (Format.parse_sound method.parse_output) decoded
  -- One word, one text, words in a fixed number, words in any number, or nothing.
  cases method with
  | boardId => exact singleWord_of_yields _ _ yields
  | versionString | verbName | verbDescriptor | className | classDocs =>
    exact text_of_yields _ _ yields
  | partId | serialNumber => exact fixedWords_of_yields _ _ yields
  | availableClasses | availableVerbs =>
    obtain ⟨words, all, _⟩ := manyWords_of_yields _ _ yields
    exact ⟨words, all⟩
  | requestReset => exact ⟨(), rfl⟩

/-- A method issues one command, and what it tells is read from the response. -/
theorem action_issued {σ : Type} [Transport σ] (method : CoreMethod α) {session after : Session σ}
    (sound : session.formats.Sound) {result : Except RpcError Bytes}
    (issued : (session.withFormats
      ((session.formats.fetch method.verb.inFormat).2.fetch method.verb.outFormat).2).transact 0
        method.verb.number method.payload method.verb.options method.verb.rpcName
      = (result, after)) :
    method.action session = (result.bind fun response =>
      (Session.interpret method.output method.verb.rpcName response).bind method.read, after) := by
  -- The arguments are written slot by slot, so none of them can be refused.
  rw [action_eq]
  exact Session.callAs_issued sound method.parse_input method.parse_output
    (encode_slots method.verb.inFormat method.slots) issued

end CoreMethod

end BoardRpc
