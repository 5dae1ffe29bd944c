import BoardRpc.Proofs.Rpc.Queries

/-! Scripts: discovery is questions that are put one after the other, each depending on the answers
to those before it. What is shown of every script, by induction on what it is made of, holds of
discovery without going through its questions again. -/

namespace BoardRpc

/-- An error may be handled, by an action that goes on with the session as it was left. -/
theorem Action.tryCatch_apply {σ α : Type} (action : Action σ α)
    (handle : RpcError → Action σ α) (session : Session σ) :
    (tryCatch action handle) session =
      match action session with
      | (.ok found, after) => (.ok found, after)
      | (.error error, after) => handle error after := by
  -- What the action comes to decides whether the handler is used at all.
  cases done : action session with
  | mk result after =>
    cases result with
    | ok found =>
      simp only [tryCatch, tryCatchThe, MonadExceptOf.tryCatch, ExceptT.tryCatch, ExceptT.mk, bind,
        StateT.bind, done]
      rfl
    | error error =>
      simp only [tryCatch, tryCatchThe, MonadExceptOf.tryCatch, ExceptT.tryCatch, ExceptT.mk, bind,
        StateT.bind, done]

section Refusals

/-! Errors for which a class is left out. -/

/-- A response in a format that is refused is an error of the format. -/
theorem Session.interpret_skippable {format : Format} {rpc : String} {response : Bytes}
    {error : RpcError} (refused : interpret format rpc response = .error error) :
    error.isSkippable = true := by
  -- Bytes may be missing, may be left over, or may be no text.
  unfold interpret at refused
  split at refused
  · cases refused
    rfl
  · split at refused
    · cases refused
      rfl
    · split at refused
      · cases refused
        rfl
      · cases refused

/-- A verb that is described badly is an error of a format. -/
theorem addVerb_skippable {descriptor : ClassDescriptor} {verb : VerbDescriptor} {error : RpcError}
    (refused : descriptor.addVerb verb = .error error) : error.isSkippable = true := by
  -- The only errors are those of reading the signatures.
  unfold ClassDescriptor.addVerb at refused
  split at refused <;> cases refused
  rfl

/-- The errors that a query comes to while the link holds: the device reports a failure, or its
response cannot be interpreted. -/
inductive Query.Refused (query : Query) : RpcError → Prop
  | failed (code : UInt32) (cause : LinkError) :
      Refused query (.commandFailed 0 query.verb.number query.verb.rpcName code cause)
  | unread {response : Bytes} {error : RpcError}
      (refused : Session.interpret query.outFormat query.verb.rpcName response = .error error) :
      Refused query error

/-- A class is left out for each of them. -/
theorem Query.Refused.skippable {query : Query} {error : RpcError}
    (refused : query.Refused error) : error.isSkippable = true := by
  cases refused with
  | failed => rfl
  | unread refused => exact Session.interpret_skippable refused

end Refusals

/-- A query together with how the reply to it is read. -/
structure Question (α : Type) where
  query : Query
  read : Reply → Except RpcError α
  stands : Bytes → Option α
  reads : Reads query.outFormat read stands

namespace Question

variable {α : Type} (question : Question α)

/-- A question for a text. -/
def text (query : Query) (isText : query.outFormat = Query.textFormat) : Question String :=
  ⟨query, query.verb.singleText, textOf?, isText ▸ reads_text query.verb⟩

/-- A question for words. -/
def words (query : Query) (areWords : query.outFormat = Query.wordsFormat) :
    Question (List UInt32) :=
  ⟨query, query.verb.words, wordsOf?, areWords ▸ reads_words query.verb⟩

/-- What is made of the response to a question. -/
def hear (response : Bytes) : Except RpcError α :=
  (Session.interpret question.query.outFormat question.query.verb.rpcName response).bind
    question.read

variable {question} {response : Bytes}

/-- A response is heard as what it stands for. -/
theorem hear_eq_ok {found : α} :
    question.hear response = .ok found ↔ question.stands response = some found :=
  question.reads.told

/-- A response that is not heard is refused. -/
theorem hear_refused {error : RpcError} (failed : question.hear response = .error error) :
    question.query.Refused error :=
  .unread (question.reads.refused failed)

end Question

/-- What is to be asked: questions one after the other, what is made of their answers, and parts
that may be left out. -/
inductive Script : Type → Type 1
  | known {α : Type} (result : Except RpcError α)
      (skips : ∀ error, result = .error error → error.isSkippable = true) : Script α
  | ask {α : Type} (question : Question α) : Script α
  | bind {α β : Type} (first : Script α) (next : α → Script β) : Script β
  | skip {α : Type} (part : Script (Option α)) : Script (Option α)

namespace Script

variable {σ α β : Type}

/-- Nothing is left to ask. -/
def done (found : α) : Script α := .known (.ok found) nofun

/-- What is found of a part that may be left out: nothing, if its error allows that. -/
def leftOut : Except RpcError (Option α) → Except RpcError (Option α)
  | .ok found => .ok found
  | .error error => if error.isSkippable then .ok none else .error error

/-- The errors that a script may end in while the link holds. -/
def Rejects {α : Type} : Script α → RpcError → Prop
  | .known result _, error => result = .error error
  | .ask question, error => question.query.Refused error
  | .bind first next, error => first.Rejects error ∨ ∃ found, (next found).Rejects error
  | .skip _, _ => False

/-- A class is left out for each of them. -/
theorem Rejects.skippable {script : Script α} {error : RpcError} (rejects : script.Rejects error) :
    error.isSkippable = true := by
  -- The induction is on the script; a part that may be left out never fails with such an error.
  induction script with
  | known result skips => exact skips error rejects
  | ask question => exact Query.Refused.skippable rejects
  | bind first next ih ihNext =>
    -- The error comes from what is asked first, or from what follows an answer to it.
    rcases rejects with early | ⟨found, late⟩
    · exact ih early
    · exact ihNext found late
  | skip part => exact rejects.elim

section Runs

variable [Transport σ]

/-- The action that asks what a script says. -/
def run {α : Type} : Script α → Action σ α
  | .known result _ => ExceptT.mk (pure result)
  | .ask question => question.query.verb.callAs question.query.args question.read
  | .bind first next => first.run >>= fun found => (next found).run
  | .skip part => tryCatch part.run fun error =>
    if error.isSkippable then return none else throw error

variable {session : Session σ}

/-- A question is one query, and what is found is what the response is heard as. -/
theorem run_ask (sound : session.formats.Sound) (question : Question α) :
    (ask question).run session = ((session.ask question.query).1.bind question.hear,
      (session.ask question.query).2) :=
  Session.callAs_query sound question.query question.read

/-- What follows starts from the session that the first part leaves, if that found something. -/
theorem run_bind (first : Script α) (next : α → Script β) (session : Session σ) :
    (first.bind next).run session =
      match first.run session with
      | (.ok found, after) => (next found).run after
      | (.error error, after) => (.error error, after) :=
  Action.bind_apply ..

/-- A part is left out where its error allows that, and the session stays as the part left it. -/
theorem run_skip (part : Script (Option α)) (session : Session σ) :
    part.skip.run session = (leftOut (part.run session).1, (part.run session).2) := by
  have handled : part.skip.run session = _ := Action.tryCatch_apply part.run _ session
  rw [handled]
  -- Only a part that failed is handled.
  cases part.run session with
  | mk result after =>
    cases result with
    | ok found => rfl
    | error error =>
      -- The handler does nothing with the session.
      by_cases skips : error.isSkippable = true
      · simp only [leftOut, if_pos skips]
        rfl
      · simp only [leftOut, if_neg skips]
        rfl

end Runs

section Discovery

/-- A text is asked for. -/
def text (query : Query) (isText : query.outFormat = Query.textFormat) : Script String :=
  .ask (.text query isText)

/-- Words are asked for. -/
def words (query : Query) (areWords : query.outFormat = Query.wordsFormat) :
    Script (List UInt32) :=
  .ask (.words query areWords)

/-- What is asked about a verb. -/
def ofVerb (classNumber verbNumber : UInt32) : Script VerbDescriptor :=
  .bind (text (.verbName classNumber verbNumber) rfl) fun name =>
  .bind (text (.descriptor classNumber verbNumber .inSignature) rfl) fun inSignature =>
  .bind (text (.descriptor classNumber verbNumber .outSignature) rfl) fun outSignature =>
  .bind (text (.descriptor classNumber verbNumber .doc) rfl) fun doc =>
  .bind (text (.descriptor classNumber verbNumber .inParamNames) rfl) fun inNames =>
  .bind (text (.descriptor classNumber verbNumber .outParamNames) rfl) fun outNames =>
  done {
    number := verbNumber
    name := if name.isEmpty then s!"verb_{verbNumber.toNat}" else name
    inSignature
    outSignature
    doc := if doc = undescribed then undocumented else doc
    inParamNames := readParamNames inNames
    outParamNames := readParamNames outNames }

/-- What is asked about the verbs of a class. -/
def ofVerbs (descriptor : ClassDescriptor) : List UInt32 → Script ClassDescriptor
  | [] => done descriptor
  | verbNumber :: rest =>
    .bind (ofVerb descriptor.number verbNumber) fun verb =>
    .bind (.known (descriptor.addVerb verb) fun _ => addVerb_skippable) fun next =>
    ofVerbs next rest

/-- What is asked about a class: its name, and the rest of it unless it is known and to be kept. -/
def ofClass (known : ApiCollection) (config : DiscoveryConfig) (classNumber : UInt32) :
    Script (Option ClassDescriptor) :=
  .bind (text (.className classNumber) rfl) fun name =>
  if known.contains name && !config.overwrite then done none
  else
    .bind (text (.classDocs classNumber) rfl) fun docs =>
    .bind (words (.verbs classNumber) rfl) fun verbs =>
    .bind (ofVerbs { number := classNumber, name, docs } verbs) fun descriptor =>
    done (some descriptor)

/-- What is asked about the classes that are listed. -/
def ofClasses (config : DiscoveryConfig) (api : ApiCollection) : List UInt32 → Script ApiCollection
  | [] => done api
  | classNumber :: rest =>
    .bind (.skip (ofClass api config classNumber)) fun
    | some descriptor => ofClasses config (api.insert descriptor) rest
    | none => ofClasses config api rest

/-- Describing a verb fails only where one of the six texts is refused. -/
theorem Rejects.of_ofVerb {classNumber verbNumber : UInt32} {error : RpcError}
    (rejects : (ofVerb classNumber verbNumber).Rejects error) :
    ∃ query : Query, query.Refused error := by
  -- What is made of the texts is no error.
  rcases rejects with refused | ⟨_, refused | ⟨_, refused | ⟨_, refused | ⟨_, refused |
    ⟨_, refused | ⟨_, failed⟩⟩⟩⟩⟩⟩
  all_goals first
    | exact ⟨_, refused⟩
    | cases failed

variable [Transport σ]

/-- A verb is described by asking what is to be asked about it. -/
theorem run_ofVerb (classNumber verbNumber : UInt32) :
    (ofVerb classNumber verbNumber).run
      = (describeVerb classNumber verbNumber : Action σ VerbDescriptor) :=
  rfl

/-- The verbs of a class are described in this way one after the other. -/
theorem run_ofVerbs (descriptor : ClassDescriptor) (verbs : List UInt32) :
    (ofVerbs descriptor verbs).run
      = (discoverVerbs descriptor verbs : Action σ ClassDescriptor) := by
  -- What is made of a verb is the first step in both, and the rest is the induction hypothesis.
  induction verbs generalizing descriptor with
  | nil => rfl
  | cons verbNumber rest ih =>
    simp only [ofVerbs, run, run_ofVerb, ih]
    rfl

/-- A class is described in this way. -/
theorem run_ofClass (known : ApiCollection) (config : DiscoveryConfig) (classNumber : UInt32) :
    (ofClass known config classNumber).run
      = (discoverClass known config classNumber : Action σ (Option ClassDescriptor)) := by
  unfold discoverClass
  refine congrArg ((Core.getClassName classNumber : Action σ String) >>= ·) (funext fun name => ?_)
  -- The name alone decides whether more is asked.
  by_cases kept : (known.contains name && !config.overwrite) = true
  · -- A known name ends both at once.
    simp only [kept, if_true]
    rfl
  · simp only [kept, Bool.false_eq_true, if_false, run, run_ofVerbs]
    rfl

/-- The classes are described in this way one after the other. -/
theorem run_ofClasses (config : DiscoveryConfig) (api : ApiCollection) (classes : List UInt32) :
    (ofClasses config api classes).run
      = (discoverClasses config api classes : Action σ ApiCollection) := by
  -- Either way the other classes are gone through, with what is known by then.
  induction classes generalizing api with
  | nil => rfl
  | cons classNumber rest ih =>
    have first : (ofClass api config classNumber).skip.run
        = (tryCatch (discoverClass api config classNumber) fun error =>
          if error.isSkippable then return none else throw error : Action σ _) := by
      rw [run, run_ofClass]
    unfold discoverClasses
    -- The left-out part is the handler of the recursion, so that both begin with the same action.
    rw [← first]
    refine congrArg ((ofClass api config classNumber).skip.run >>= ·) (funext fun found => ?_)
    cases found with
    | some descriptor => exact ih (api.insert descriptor)
    | none => exact ih api

end Discovery

end Script

/-- The core class is known without asking. -/
theorem withCore_isOk : ∃ core, ApiCollection.withCore = .ok core := by
  -- All of its formats can be read.
  have read : ApiCollection.withCore.isOk = true := by cbv
  cases known : ApiCollection.withCore with
  | ok core => exact ⟨core, rfl⟩
  | error error =>
    rw [known] at read
    cases read

/-- Discovery lists the classes first, and then asks about each of them. -/
theorem discover_apply {σ : Type} [Transport σ] {core : ApiCollection}
    (known : ApiCollection.withCore = .ok core) (config : DiscoveryConfig) (session : Session σ) :
    discover config session =
      match Core.getAvailableClasses session with
      | (.ok classes, after) => (Script.ofClasses config core classes).run after
      | (.error error, after) => (.error (.discovery "listing classes" error), after) := by
  -- The core class has no part in the listing, and an error of the listing gets its stage.
  have listed : discover config session =
      (tryCatch Core.getAvailableClasses (fun error =>
        throw (.discovery "listing classes" error)) >>= discoverClasses config core) session := by
    rw [discover, known]
    rfl
  rw [listed, Action.bind_apply, Action.tryCatch_apply]
  cases Core.getAvailableClasses session with
  | mk result after =>
    cases result with
    | ok classes => exact (congrFun (Script.run_ofClasses config core classes) after).symm
    | error error => rfl

end BoardRpc
