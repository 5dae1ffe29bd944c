import BoardRpc.Proofs.Codec.Plain
import BoardRpc.Proofs.Rpc.Histories
import BoardRpc.Proofs.Rpc.Interpretation
import BoardRpc.Rpc.Discovery

/-! The queries of discovery: which bytes each of them sends, and that its reply is the response to
that one command. -/

namespace BoardRpc

/-- An action that succeeds is followed by the next, and an error by nothing. -/
theorem Action.bind_apply {σ α β : Type} (first : Action σ α) (next : α → Action σ β)
    (session : Session σ) :
    (first >>= next) session =
      match first session with
      | (.ok found, after) => next found after
      | (.error error, after) => (.error error, after) := by
  -- The session goes on from where the first action left it.
  have unfolded : (first >>= next) session =
      match first session with
      | (result, after) => ExceptT.bindCont next result after := rfl
  rw [unfolded]
  cases first session with
  | mk result after => cases result <;> rfl

/-- What discovery asks a device about its classes and its verbs. -/
inductive Query
  | classes
  | className (classNumber : UInt32)
  | classDocs (classNumber : UInt32)
  | verbs (classNumber : UInt32)
  | verbName (classNumber verbNumber : UInt32)
  | descriptor (classNumber verbNumber : UInt32) (kind : DescriptorKind)

section Arguments

open Codec

/-- A word is written in its four bytes. -/
theorem encode_wordArgument (n : UInt32) :
    encodePrimitive .little .uint32 (wordArgument n) = .ok (Word.split 4 n.toNat) := by
  -- The number is within the bounds of its slot.
  have small : n.toNat < 4294967296 := n.toNat_lt
  have number : (wordArgument n).number? = some (n.toNat : Int) :=
    number?_ofNat (by omega)
  have least : least .uint32 = 0 := rfl
  have greatest : greatest .uint32 = 4294967295 := rfl
  have inside : ¬ ((n.toNat : Int) < 0 ∨ (4294967295 : Int) < n.toNat) := by omega
  have whole : ((n.toNat : Int) % (Nat.pow 2 (8 * Primitive.uint32.width) : Nat)).toNat
      = n.toNat := by
    have power : Nat.pow 2 (8 * Primitive.uint32.width) = 4294967296 := rfl
    rw [power]
    omega
  simp only [encodePrimitive, number, least, greatest, if_neg inside, whole]
  rfl

/-- The kind of a descriptor is written in one byte. -/
theorem encode_kind (kind : DescriptorKind) :
    encodePrimitive .little .uint8 (.ofNat kind.number) = .ok [UInt8.ofNat kind.number] := by
  -- There are five kinds, and each of their numbers fits a byte.
  cases kind <;> rfl

/-- A slot of fixed width with what is to be written into it, and the bytes of that. -/
structure Written where
  type : Primitive
  arg : Value
  bytes : Bytes
  slot : type ≠ .pad
  written : encodePrimitive .little type arg = .ok bytes

/-- Slots that do not repeat are written one behind the other, each from one argument. -/
theorem encodeFrom_written (slots : List Written) (whole : List Field) (given index : Nat) :
    encodeFrom .little whole given index (slots.map fun slot => .primitive slot.type .once)
      (slots.map (·.arg)) = .ok (slots.flatMap (·.bytes)) := by
  -- By induction on the slots, counted on from any index.
  induction slots generalizing index with
  | nil => rfl
  | cons first others ih =>
    obtain ⟨type, arg, bytes, slot, written⟩ := first
    -- The field claims one argument, and the others are left to those behind it.
    have one (available : Nat) : (Field.primitive type .once).arity.claim available = 1 := by
      cases type <;> first
        | exact absurd rfl slot
        | rfl
    have field : encodeField .little (.primitive type .once) [arg] = .ok bytes := by
      simp [encodeField_primitive slot, encodeEach, written]
    refine encodeFrom_cons.mpr ⟨?_, bytes, _, ?_, ?_, rfl⟩
    · rw [one]
      simp
    · rw [one]
      exact field
    · rw [one]
      exact ih (index + 1)

/-- In a format of such slots, the arguments are encoded as the bytes of the slots. -/
theorem encode_slots (source : String) (slots : List Written) :
    (⟨source, .little, slots.map fun slot => .primitive slot.type .once⟩ : Format).encode
      (slots.map (·.arg)) = .ok (slots.flatMap (·.bytes)) := by
  -- The whole is a row from the first index on.
  rw [Format.encode, encodeFrom_written]
  rfl

/-- A word as it is written. -/
def Written.word (n : UInt32) : Written :=
  ⟨.uint32, wordArgument n, Word.split 4 n.toNat, nofun, encode_wordArgument n⟩

/-- The kind of a descriptor as it is written. -/
def Written.kind (kind : DescriptorKind) : Written :=
  ⟨.uint8, .ofNat kind.number, [UInt8.ofNat kind.number], nofun, encode_kind kind⟩

end Arguments

namespace Query

/-- The verb that is called. -/
def verb : Query → CoreVerb
  | .classes => .getAvailableClasses
  | .className _ => .getClassName
  | .classDocs _ => .getClassDocs
  | .verbs _ => .getAvailableVerbs
  | .verbName _ _ => .getVerbName
  | .descriptor _ _ _ => .getVerbDescriptor

/-- The arguments of the call. -/
def args : Query → List Value
  | .classes => []
  | .className classNumber | .classDocs classNumber | .verbs classNumber =>
    [wordArgument classNumber]
  | .verbName classNumber verbNumber => [wordArgument classNumber, wordArgument verbNumber]
  | .descriptor classNumber verbNumber kind =>
    [wordArgument classNumber, wordArgument verbNumber, .ofNat kind.number]

/-- The bytes that are sent: numbers in words of four bytes, and a byte for a kind of descriptor. -/
def payload : Query → Bytes
  | .classes => []
  | .className classNumber | .classDocs classNumber | .verbs classNumber =>
    Word.split 4 classNumber.toNat
  | .verbName classNumber verbNumber =>
    Word.split 4 classNumber.toNat ++ Word.split 4 verbNumber.toNat
  | .descriptor classNumber verbNumber kind =>
    Word.split 4 classNumber.toNat ++ Word.split 4 verbNumber.toNat ++ [UInt8.ofNat kind.number]

/-- The format of the arguments. -/
def inFormat : Query → Format
  | .classes => ⟨"", .little, []⟩
  | .className _ | .classDocs _ | .verbs _ => ⟨"<I", .little, [.primitive .uint32 .once]⟩
  | .verbName _ _ => ⟨"<II", .little, [.primitive .uint32 .once, .primitive .uint32 .once]⟩
  | .descriptor _ _ _ =>
    ⟨"<IIB", .little,
      [.primitive .uint32 .once, .primitive .uint32 .once, .primitive .uint8 .once]⟩

/-- The format of replies that are one text. -/
def textFormat : Format := ⟨"<S", .little, [.text .once]⟩

/-- The format of replies that are words. -/
def wordsFormat : Format := ⟨"<*I", .little, [.primitive .uint32 .wildcard]⟩

/-- The format of the reply. -/
@[reducible] def outFormat : Query → Format
  | .classes | .verbs _ => wordsFormat
  | .className _ | .classDocs _ | .verbName _ _ | .descriptor _ _ _ => textFormat

/-- The text of the arguments' format is read as that format. -/
theorem parse_inFormat (query : Query) :
    Format.parse query.verb.inFormat = .ok query.inFormat := by
  cases query <;> cbv

/-- The text of the reply's format is read as that format. -/
theorem parse_outFormat (query : Query) :
    Format.parse query.verb.outFormat = .ok query.outFormat := by
  cases query <;> cbv

/-- The verbs of discovery are numbered from four to nine. -/
theorem number_bounds (query : Query) : 4 ≤ query.verb.number ∧ query.verb.number ≤ 9 := by
  have all : ∀ verb ∈ [CoreVerb.getAvailableClasses, .getAvailableVerbs, .getVerbName,
      .getVerbDescriptor, .getClassName, .getClassDocs], 4 ≤ verb.number ∧ verb.number ≤ 9 := by
    decide
  exact all query.verb (by cases query <;> simp [verb])

/-- A query fits a frame. -/
theorem payload_fits (query : Query) : 8 + query.payload.length ≤ 4096 := by
  cases query <;> simp [payload]

/-- What is written into the slots of the arguments. -/
def slots : Query → List Written
  | .classes => []
  | .className classNumber | .classDocs classNumber | .verbs classNumber => [.word classNumber]
  | .verbName classNumber verbNumber => [.word classNumber, .word verbNumber]
  | .descriptor classNumber verbNumber kind =>
    [.word classNumber, .word verbNumber, .kind kind]

/-- The arguments of a query are encoded as its payload. -/
theorem encode_args (query : Query) : query.inFormat.encode query.args = .ok query.payload := by
  -- Fields, arguments and payload are those of the slots.
  have format : query.inFormat = ⟨query.verb.inFormat, .little,
      query.slots.map fun slot => .primitive slot.type .once⟩ := by
    cases query <;> rfl
  have args : query.args = query.slots.map (·.arg) := by cases query <;> rfl
  have payload : query.payload = query.slots.flatMap (·.bytes) := by
    cases query <;> simp [payload, slots, Written.word, Written.kind]
  rw [format, args, encode_slots, payload]

end Query

namespace Session

variable {σ : Type} {session : Session σ}

/-- A session once the formats of a query have been read. -/
def prepare (session : Session σ) (query : Query) : Session σ :=
  { session with formats :=
      ((session.formats.fetch query.verb.inFormat).2.fetch query.verb.outFormat).2 }

/-- Formats are read right after others have been read. -/
theorem prepare_sound (sound : session.formats.Sound) (query : Query) :
    (session.prepare query).formats.Sound :=
  FormatCache.fetch_both_sound sound _ _

variable [Transport σ]

/-- A verb whose formats can be read, and whose arguments fit theirs, is issued as one command, and
what is read is its response. -/
theorem callAs_issued (sound : session.formats.Sound) {verb : CoreVerb} {args : List Value}
    {inFormat outFormat : Format} {payload : Bytes} {read : Reply → Except RpcError α}
    (readInput : Format.parse verb.inFormat = .ok inFormat)
    (readOutput : Format.parse verb.outFormat = .ok outFormat)
    (encoded : inFormat.encode args = .ok payload) {result : Except RpcError Bytes}
    {after : Session σ}
    (issued : (session.withFormats
      ((session.formats.fetch verb.inFormat).2.fetch verb.outFormat).2).transact 0 verb.number
        payload verb.options verb.rpcName = (result, after)) :
    verb.callAs args read session = (result.bind fun response =>
      (interpret outFormat verb.rpcName response).bind read, after) := by
  -- Both texts can be read, and the arguments are encoded, so that the command is issued.
  have called : verb.call args session
      = (result.bind (interpret outFormat verb.rpcName), after) := by
    simp only [CoreVerb.call, coreClassNumber, executeNamed_parsed sound readInput readOutput,
      executeFormats_encoded _ encoded, issued]
  rw [CoreVerb.callAs, Action.bind_apply, called]
  cases result with
  | error error => rfl
  | ok response =>
    -- The response is interpreted, and a reply is read.
    show _ = ((interpret outFormat verb.rpcName response).bind read, after)
    rw [Except.bind]
    cases interpret outFormat verb.rpcName response <;> rfl

/-- Puts a query to the device. -/
def ask (session : Session σ) (query : Query) : Except RpcError Bytes × Session σ :=
  (session.prepare query).transact 0 query.verb.number query.payload {} query.verb.rpcName

/-- A query is one command, and its reply is the response to it. -/
theorem callAs_query (sound : session.formats.Sound) (query : Query)
    (read : Reply → Except RpcError α) :
    query.verb.callAs query.args read session =
      ((session.ask query).1.bind fun response =>
        (interpret query.outFormat query.verb.rpcName response).bind read,
        (session.ask query).2) := by
  -- None of the queries has options of its own.
  have options : query.verb.options = {} := by cases query <;> rfl
  refine callAs_issued sound query.parse_inFormat query.parse_outFormat query.encode_args ?_
  rw [options]
  exact (Prod.eta (session.ask query)).symm

/-- After a query, formats are read right as before it. -/
theorem ask_sound (sound : session.formats.Sound) (query : Query) :
    (session.ask query).2.formats.Sound := by
  -- The command does nothing to the formats.
  rw [ask, (transact_settings ..).formats]
  exact prepare_sound sound query

end Session

section Replies

/-! Replies: the text, or the words, that the response to a query stands for. -/

variable {α : Type} {verb : CoreVerb} {reply : Reply} {error : RpcError}

/-- A number below the bound of a word is read as that word. -/
theorem word_of_number {value : Value} {n : Nat} (number : value.number? = some (Int.ofNat n))
    (small : n < 4294967296) : verb.word value = .ok (UInt32.ofNat n) := by
  -- What is below 2^32 has no sign and is not cut off.
  have bound : n < Nat.pow 2 32 := small
  simp only [CoreVerb.word, Value.toUInt32?, Value.unsigned?, number, if_pos bound,
    Option.map_some]

/-- Words that a device sends are read as they were sent. -/
theorem words_sent (words : List UInt32) :
    (words.map fun word => Value.ofNat word.toNat).mapM verb.word = .ok words := by
  -- By induction on the words: each is read on its own.
  induction words with
  | nil => rfl
  | cons word others ih =>
    -- A word of four bytes is a number that a word can hold.
    have small : word.toNat < 4294967296 := word.toNat_lt
    have number : (Value.ofNat word.toNat).number? = some (Int.ofNat word.toNat) :=
      Codec.number?_ofNat (by omega)
    rw [List.map_cons, List.mapM_cons, word_of_number number small, UInt32.ofNat_toNat, ih]
    rfl

/-- How replies in a format are read: each response as what it stands for, and none is refused that
could be interpreted. -/
structure Reads (format : Format) (read : Reply → Except RpcError α)
    (stands : Bytes → Option α) : Prop where
  told : ∀ {rpc response found},
    (Session.interpret format rpc response).bind read = .ok found ↔ stands response = some found
  refused : ∀ {rpc response error},
    (Session.interpret format rpc response).bind read = .error error →
      Session.interpret format rpc response = .error error

/-- A response is read as what it is decoded as. -/
theorem Reads.of_decode {format : Format} {read : Reply → Except RpcError α}
    {stands : Bytes → Option α} {values : α → List Value}
    (decoded : ∀ {data found}, format.decode data = .ok found ↔
      ∃ a, stands data = some a ∧ found = values a)
    (sent : ∀ a, read (format.collapse (values a)) = .ok a) : Reads format read stands := by
  -- A reply is made of decoded values, which are those of what the response stands for.
  have replies {rpc response reply}
      (interpreted : Session.interpret format rpc response = .ok reply) :
      ∃ a, stands response = some a ∧ read reply = .ok a := by
    obtain ⟨_, accepted, rfl⟩ := Session.interpret_eq_ok.mp interpreted
    obtain ⟨a, stood, rfl⟩ := decoded.mp accepted
    exact ⟨a, stood, sent a⟩
  refine ⟨fun {rpc response found} => ⟨fun told => ?_, fun stood => ?_⟩,
    fun {rpc response error} failed => ?_⟩
  · -- A reply that is read is one of those.
    cases interpreted : Session.interpret format rpc response with
    | error error =>
      rw [interpreted] at told
      cases told
    | ok reply =>
      rw [interpreted] at told
      obtain ⟨a, stood, same⟩ := replies interpreted
      cases same.symm.trans told
      exact stood
  · -- The response is decoded as what it stands for, so there is a reply to be read.
    have interpreted : Session.interpret format rpc response
        = .ok (format.collapse (values found)) :=
      Session.interpret_eq_ok.mpr ⟨_, decoded.mpr ⟨found, stood, rfl⟩, rfl⟩
    rw [interpreted]
    exact sent found
  · -- Every reply is read, so that an error is one of interpreting the response.
    cases interpreted : Session.interpret format rpc response with
    | error other =>
      rw [interpreted] at failed
      cases failed
      rfl
    | ok reply =>
      rw [interpreted] at failed
      obtain ⟨a, _, same⟩ := replies interpreted
      cases same.symm.trans failed

/-- A reply of one text is the text that the response stands for. -/
theorem reads_text (verb : CoreVerb) : Reads Query.textFormat verb.singleText textOf? :=
  .of_decode Format.decode_text fun _ => rfl

/-- A reply of words is the words that the response stands for. -/
theorem reads_words (verb : CoreVerb) : Reads Query.wordsFormat verb.words wordsOf? := by
  -- Words are read from all values of a reply, whether or not it is collapsed.
  refine .of_decode Format.decode_words fun found => ?_
  rw [CoreVerb.words, Format.collapse_values]
  exact words_sent found

end Replies

end BoardRpc
