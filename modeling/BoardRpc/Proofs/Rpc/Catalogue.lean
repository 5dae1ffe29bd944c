import BoardRpc.Proofs.Rpc.Recovery
import BoardRpc.Proofs.Rpc.Scripts

/-! Catalogues: discovery learns of a device just what its answers tell, class by class. -/

namespace BoardRpc

section Told

/-! What the answers of a device tell: nothing is learned from one that is refused or garbled. -/

variable (answers : UInt32 → Bytes → Except UInt32 Bytes)

/-- The text that answers a query. -/
def textTold? (query : Query) : Option String :=
  (answers query.verb.number query.payload).toOption.bind textOf?

/-- The words that answer a query. -/
def wordsTold? (query : Query) : Option (List UInt32) :=
  (answers query.verb.number query.payload).toOption.bind wordsOf?

/-- Everything that is told of a verb, by six answers. -/
def verbTold? (classNumber verbNumber : UInt32) : Option VerbDescriptor := do
  let name ← textTold? answers (.verbName classNumber verbNumber)
  let inSignature ← textTold? answers (.descriptor classNumber verbNumber .inSignature)
  let outSignature ← textTold? answers (.descriptor classNumber verbNumber .outSignature)
  let doc ← textTold? answers (.descriptor classNumber verbNumber .doc)
  let inNames ← textTold? answers (.descriptor classNumber verbNumber .inParamNames)
  let outNames ← textTold? answers (.descriptor classNumber verbNumber .outParamNames)
  return {
    number := verbNumber
    name := if name = "" then s!"verb_{verbNumber.toNat}" else name
    inSignature
    outSignature
    doc := if doc = "*" then undocumented else doc
    inParamNames := readParamNames inNames
    outParamNames := readParamNames outNames }

/-- Whether neither signature of a verb is a star. -/
def IsDescribed (verb : VerbDescriptor) : Prop := verb.inSignature ≠ "*" ∧ verb.outSignature ≠ "*"

instance (verb : VerbDescriptor) : Decidable (IsDescribed verb) :=
  inferInstanceAs (Decidable (_ ∧ _))

/-- A verb that can be called, if its signatures can be read. -/
def callable? (classNumber : UInt32) (verb : VerbDescriptor) : Option RpcBinding := do
  let inFormat ← (Format.parse verb.inSignature).toOption
  let outFormat ← (Format.parse verb.outSignature).toOption
  return {
    classNumber
    verbNumber := verb.number
    name := verb.name
    inFormat
    outFormat
    doc := verb.doc
    inParamNames := verb.inParamNames
    outParamNames := verb.outParamNames }

/-- A class with verbs, those that are described being callable. -/
def ClassDescriptor.withVerbs? (descriptor : ClassDescriptor) (verbs : List VerbDescriptor) :
    Option ClassDescriptor := do
  let bindings ← (verbs.filter (IsDescribed ·)).mapM (callable? descriptor.number)
  return { descriptor with
    verbs := descriptor.verbs ++ bindings
    opaqueVerbs := descriptor.opaqueVerbs ++ (verbs.filter (¬ IsDescribed ·)).map (·.number) }

/-- Everything that is told of a class that is not known, or known and to be replaced. -/
def classTold? (overwrite : Bool) (known : ApiCollection) (classNumber : UInt32) :
    Option ClassDescriptor := do
  let name ← textTold? answers (.className classNumber)
  if known.contains name && !overwrite then none
  else
    let docs ← textTold? answers (.classDocs classNumber)
    let numbers ← wordsTold? answers (.verbs classNumber)
    let verbs ← numbers.mapM (verbTold? answers classNumber)
    ClassDescriptor.withVerbs? { number := classNumber, name, docs } verbs

/-- The known classes with one more, if it is told of. -/
def learn (overwrite : Bool) (known : ApiCollection) (classNumber : UInt32) : ApiCollection :=
  match classTold? answers overwrite known classNumber with
  | some descriptor => known.insert descriptor
  | none => known

/-- What the answers to a script tell, one after the other. A part that is refused is left out. -/
def Script.told {α : Type} : Script α → Option α
  | .known result _ => result.toOption
  | .ask question =>
    (answers question.query.verb.number question.query.payload).toOption.bind question.stands
  | .bind first next => first.told.bind fun found => (next found).told
  | .skip part => some part.told.join

end Told

section Verbs

variable {classNumber : UInt32} {verb : VerbDescriptor} {descriptor : ClassDescriptor}

/-- A verb that is described is bound if its signatures can be read, and any other is left. -/
theorem toOption_binding? : (verb.binding? classNumber).toOption =
    if IsDescribed verb then (callable? classNumber verb).map some else some none := by
  -- The star is the text that stands for no description.
  have described : verb.isDescribable = true ↔ IsDescribed verb := by
    simp [VerbDescriptor.isDescribable, IsDescribed, undescribed]
  unfold VerbDescriptor.binding?
  by_cases known : IsDescribed verb
  · rw [if_pos known, described.mpr known]
    -- Both formats are read, the second only if the first can be.
    unfold callable? RpcBinding.ofTexts
    cases Format.parse verb.inSignature with
    | error error => rfl
    | ok inFormat => cases Format.parse verb.outSignature <;> rfl
  · have left : verb.isDescribable = false := by
      rw [← Bool.not_eq_true]
      exact fun told => known (described.mp told)
    rw [if_neg known, left]
    rfl

/-- A class takes its verbs one after the other. -/
theorem withVerbs?_cons (verbs : List VerbDescriptor) :
    descriptor.withVerbs? (verb :: verbs)
      = (descriptor.addVerb verb).toOption.bind fun next => next.withVerbs? verbs := by
  -- The verb goes behind those of its own kind, and the others go behind it.
  have bound : (verb.binding? descriptor.number).toOption = _ := toOption_binding?
  have added : (descriptor.addVerb verb).toOption = (verb.binding? descriptor.number).toOption.map
      (·.elim { descriptor with opaqueVerbs := descriptor.opaqueVerbs ++ [verb.number] }
        fun binding => { descriptor with verbs := descriptor.verbs ++ [binding] }) := by
    unfold ClassDescriptor.addVerb
    cases verb.binding? descriptor.number with
    | error error => rfl
    | ok binding => cases binding <;> rfl
  rw [added, bound]
  -- The verb goes to one of the two lists, so that only that list has it in front of the others.
  unfold ClassDescriptor.withVerbs?
  by_cases known : IsDescribed verb
  · rw [if_pos known, List.filter_cons_of_pos (by simpa using known),
      List.filter_cons_of_neg (by simpa using known), List.mapM_cons]
    cases callable? descriptor.number verb with
    | none => rfl
    | some binding => simp [Option.bind_assoc]
  · rw [if_neg known, List.filter_cons_of_neg (by simpa using known),
      List.filter_cons_of_pos (by simpa using known)]
    simp

/-- A class keeps its number. -/
theorem number_addVerb {next : ClassDescriptor} (added : descriptor.addVerb verb = .ok next) :
    next.number = descriptor.number := by
  -- A verb changes one of the two lists.
  unfold ClassDescriptor.addVerb at added
  split at added <;> cases added <;> rfl

end Verbs

namespace ApiCollection

end ApiCollection

section Learning

variable {answers : UInt32 → Bytes → Except UInt32 Bytes} {overwrite : Bool}
  {known : ApiCollection} {classNumber : UInt32}

end Learning

section Telling

variable {δ α : Type}

/-- A result is what is told, and where nothing is told an error for which a class may be left
out. -/
def AsTold (told : Option α) (result : Except RpcError α) : Prop :=
  match told with
  | some found => result = .ok found
  | none => ∃ error, result = .error error ∧ error.isSkippable = true

/-- A session with the default limit over a loopback that no failure awaits. -/
structure Session.Serves (session : Session (Loopback δ)) : Prop where
  ready : session.Ready
  sound : session.formats.Sound
  limit : session.config.maxResponseLength = 4096

variable [CommandHandler δ]

/-- A device answers the verbs of discovery by what is asked alone, and in no more bytes than a
response may have. -/
structure Answers (δ : Type) [CommandHandler δ] (answers : UInt32 → Bytes → Except UInt32 Bytes) :
    Prop where
  given : ∀ (device : δ) (verbNumber : UInt32) (payload : Bytes), 4 ≤ verbNumber → verbNumber ≤ 9 →
    (CommandHandler.handle device 0 verbNumber payload).1 = answers verbNumber payload
  short : ∀ (verbNumber : UInt32) (payload response : Bytes), 4 ≤ verbNumber → verbNumber ≤ 9 →
    answers verbNumber payload = .ok response → response.length ≤ 4096

variable {answers : UInt32 → Bytes → Except UInt32 Bytes} (obeys : Answers δ answers)

include obeys

/-- Whatever happened before, a query is answered as the device answers it, and what it leaves
serves as well. -/
theorem Session.Serves.ask {session : Session (Loopback δ)} (serves : session.Serves)
    (query : Query) : (session.ask query).2.Serves ∧
      match answers query.verb.number query.payload with
      | .ok response => (session.ask query).1 = .ok response
      | .error errno => (session.ask query).1 = .error (.commandFailed 0 query.verb.number
          query.verb.rpcName (Loopback.latched errno) .stalled) := by
  obtain ⟨ready, sound, limit⟩ := serves
  obtain ⟨low, high⟩ := query.number_bounds
  -- Reading the formats changes neither the loopback nor what is remembered of it.
  have prepared : (session.prepare query).Ready := ⟨ready.unfailing, ready.stored⟩
  have settings := Session.transact_settings (session.prepare query) 0 query.verb.number
    query.payload {} query.verb.rpcName
  obtain ⟨result, after, issued, settled, still, _⟩ := Session.transact_ready prepared 0
    query.verb.number query.payload_fits {} query.verb.rpcName
  have asked : session.ask query = (result, after) := issued
  rw [issued] at settings
  -- No more than 4096 bytes are read, and the device has no answer of more.
  have whole : (session.prepare query).responseLimit {} = 4096 := by
    have default : (session.prepare query).responseLimit {}
      = min session.config.maxResponseLength 4096 := rfl
    rw [default, limit, min_self]
  have answered : CommandHandler.answer session.link.device
      ⟨0, query.verb.number, query.payload⟩ = answers query.verb.number query.payload :=
    obeys.given session.link.device query.verb.number query.payload low high
  have settled : result = Session.settle ⟨0, query.verb.number, query.payload⟩ query.verb.rpcName
      4096 (answers query.verb.number query.payload) := by
    rw [settled, whole]
    exact congrArg _ answered
  rw [asked]
  -- The formats stay right, the settings stay, and what the device answers is settled as told.
  refine ⟨⟨still, ?_, ?_⟩, ?_⟩
  · rw [settings.formats]
    exact Session.prepare_sound sound query
  · rw [settings.config]
    exact limit
  · cases given : answers query.verb.number query.payload with
    | error errno =>
      dsimp only
      rw [settled, given, Session.settle_heard (by decide)]
    | ok response =>
      dsimp only
      rw [settled, given, Session.settle,
        List.take_of_length_le (obeys.short _ _ _ low high given)]

/-- Whatever happened before, a script comes to what is told, and what it leaves serves as well. -/
theorem Script.tells (script : Script α) {session : Session (Loopback δ)}
    (serves : session.Serves) : ∃ result after, script.run session = (result, after) ∧
      after.Serves ∧ AsTold (script.told answers) result := by
  -- The induction is on the script, for every session that serves, as each part leaves another one.
  induction script generalizing session with
  | known result skips =>
    refine ⟨result, session, rfl, serves, ?_⟩
    cases result with
    | ok found => rfl
    | error error => exact ⟨error, rfl, skips error rfl⟩
  | ask question =>
    obtain ⟨kept, answered⟩ := serves.ask obeys question.query
    refine ⟨_, _, run_ask serves.sound question, kept, ?_⟩
    unfold told
    cases given : answers question.query.verb.number question.query.payload with
    | error errno =>
      rw [given] at answered
      -- An error number that the device signals is one for which a class may be left out.
      rw [answered]
      exact ⟨_, rfl, rfl⟩
    | ok response =>
      -- What the response stands for is heard, and a response that is not heard is refused.
      rw [given] at answered
      rw [answered, Except.toOption, Option.bind_some]
      cases stood : question.stands response with
      | some found => exact Question.hear_eq_ok.mpr stood
      | none =>
        cases heard : question.hear response with
        | ok found => cases stood.symm.trans (Question.hear_eq_ok.mp heard)
        | error error => exact ⟨error, heard, (Question.hear_refused heard).skippable⟩
  | bind first next ih ihNext =>
    -- An error of the first part is that of both.
    obtain ⟨result, between, done, kept, same⟩ := ih serves
    rw [run_bind, done]
    unfold told
    cases early : first.told answers with
    | none =>
      rw [early] at same
      obtain ⟨error, rfl, skips⟩ := same
      exact ⟨.error error, between, rfl, kept, error, rfl, skips⟩
    | some found =>
      rw [early] at same
      obtain rfl := same
      -- Both parts find what is told, the second from the session that the first leaves.
      exact ihNext found kept
  | skip part ih =>
    -- Every error that there can be is one for which the part is left out.
    obtain ⟨result, after, done, kept, same⟩ := ih serves
    rw [run_skip, done]
    unfold told
    cases inside : part.told answers with
    | none =>
      rw [inside] at same
      obtain ⟨error, rfl, skips⟩ := same
      exact ⟨.ok none, after, congrArg (·, after) (if_pos skips), kept, rfl⟩
    | some found =>
      rw [inside] at same
      -- A part that is found is told of as it is.
      obtain rfl := same
      exact ⟨.ok found, after, rfl, kept, rfl⟩

omit obeys in
/-- The answer to a question for a text tells it. -/
theorem Script.told_text (query : Query) (isText : query.outFormat = Query.textFormat) :
    (text query isText).told answers = textTold? answers query :=
  rfl

omit obeys in
/-- The answer to a question for words tells them. -/
theorem Script.told_words (query : Query) (areWords : query.outFormat = Query.wordsFormat) :
    (words query areWords).told answers = wordsTold? answers query :=
  rfl

omit obeys in
/-- The answers about a verb tell its description. -/
theorem Script.told_ofVerb (classNumber verbNumber : UInt32) :
    (ofVerb classNumber verbNumber).told answers = verbTold? answers classNumber verbNumber := by
  -- Only the name and the description may be replaced.
  simp only [ofVerb, done, told, verbTold?, undescribed, String.isEmpty_iff]
  rfl

omit obeys in
/-- The answers about the verbs of a class tell which of them are callable. -/
theorem Script.told_ofVerbs (descriptor : ClassDescriptor) (numbers : List UInt32) :
    (ofVerbs descriptor numbers).told answers =
      (numbers.mapM (verbTold? answers descriptor.number)).bind descriptor.withVerbs? := by
  -- By induction on the verbs, whatever the class has been given so far.
  induction numbers generalizing descriptor with
  | nil => simp [ofVerbs, done, told, ClassDescriptor.withVerbs?, Except.toOption]
  | cons verbNumber rest ih =>
    simp only [ofVerbs, told, told_ofVerb, List.mapM_cons]
    cases verbTold? answers descriptor.number verbNumber with
    | none => rfl
    | some verb =>
      -- What the other verbs tell does not depend on the first.
      simp only [Option.bind_eq_bind, Option.bind_some, Option.bind_assoc, Option.pure_def,
        withVerbs?_cons]
      cases added : descriptor.addVerb verb with
      | error error => simp [Except.toOption]
      | ok next =>
        have same : next.number = descriptor.number := number_addVerb added
        simp [Except.toOption, ih, same]

omit obeys in
/-- The answers about a class tell it if it is to be learned. -/
theorem Script.told_ofClass (known : ApiCollection) (config : DiscoveryConfig)
    (classNumber : UInt32) : ((ofClass known config classNumber).told answers).join
      = classTold? answers config.overwrite known classNumber := by
  unfold classTold? ofClass
  simp only [told, told_text, Option.bind_eq_bind]
  -- The name is asked for in every case, and it decides whether the rest is.
  cases textTold? answers (.className classNumber) with
  | none => rfl
  | some name =>
    simp only [Option.bind_some]
    split
    · -- A class that is known and kept is told of as nothing, which is no error.
      rfl
    · simp only [told, told_text, told_words, told_ofVerbs]
      cases textTold? answers (.classDocs classNumber) with
      | none => rfl
      | some docs =>
        cases wordsTold? answers (.verbs classNumber) with
        | none => rfl
        | some numbers =>
          simp only [Option.bind_some]
          cases (numbers.mapM (verbTold? answers classNumber)).bind
            (ClassDescriptor.withVerbs? { number := classNumber, name, docs }) <;> rfl

omit obeys in
/-- The answers about the classes tell of each in turn. -/
theorem Script.told_ofClasses (config : DiscoveryConfig) (api : ApiCollection)
    (classes : List UInt32) : (ofClasses config api classes).told answers
      = some (classes.foldl (learn answers config.overwrite) api) := by
  -- By induction on the classes, whatever is known so far.
  induction classes generalizing api with
  | nil => rfl
  | cons classNumber rest ih =>
    simp only [ofClasses, told, told_ofClass, Option.bind_some, List.foldl_cons, learn]
    -- The class is put into the collection, or it is left out; what follows goes on from there.
    cases classTold? answers config.overwrite api classNumber with
    | none => exact ih api
    | some descriptor => exact ih (api.insert descriptor)

end Telling

/-- A lamp, which has one class of its own. Its first verb has no name and cannot be described, and
its second one takes a byte. It also lists a class that it refuses to name. -/
inductive Lamp
  | device

/-- What a lamp answers. -/
def Lamp.answers (verbNumber : UInt32) (payload : Bytes) : Except UInt32 Bytes :=
  match verbNumber with
  | 4 => .ok [1, 0, 0, 0, 2, 0, 0, 0]
  | 5 => .ok [0, 0, 0, 0, 1, 0, 0, 0]
  | 6 => if payload = [1, 0, 0, 0, 1, 0, 0, 0] then .ok [115, 101, 116, 0] else .ok [0]
  | 7 =>
    if payload = [1, 0, 0, 0, 1, 0, 0, 0, 1] then .ok [66, 0]
    else if payload = [1, 0, 0, 0, 0, 0, 0, 0, 1] then .ok [42, 0]
    else .ok [0]
  | 8 => if payload = [1, 0, 0, 0] then .ok [108, 97, 109, 112, 0] else .error 2
  | _ => .ok [0]

instance : CommandHandler Lamp where
  handle lamp _ verbNumber payload := (Lamp.answers verbNumber payload, lamp)

/-- The answers of a lamp depend on nothing but what it is asked, and are short. -/
theorem Lamp.obeys : Answers Lamp Lamp.answers where
  given _ _ _ _ _ := rfl
  short verbNumber payload response _ _ given := by
    -- There is no answer but the few that are written down, and each of them is short.
    unfold Lamp.answers at given
    repeat' split at given
    all_goals cases given
    all_goals decide

end BoardRpc
