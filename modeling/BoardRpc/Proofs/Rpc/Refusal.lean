import BoardRpc.Proofs.Rpc.Dialogue
import BoardRpc.Proofs.Rpc.Histories
import BoardRpc.Rpc.Core

/-! Requests that are refused before anything is transferred: they leave nothing behind that any
later use of the session could tell. -/

namespace BoardRpc

/-- The error of a request that cannot be issued: a text is no format, the arguments do not fit
theirs, or the frame would be too long. The first of these that holds is the one that is told. -/
inductive Request.Refused : Request → RpcError → Prop
  | inputUnread {classNumber verbNumber : UInt32} {input output : String} {args : List Value}
      {options : CallOptions} {error : FormatError} (unread : Format.parse input = .error error) :
      Refused (.execute classNumber verbNumber input output args options)
        (.format (commandName classNumber verbNumber) error)
  | outputUnread {classNumber verbNumber : UInt32} {input output : String} {args : List Value}
      {options : CallOptions} {inFormat : Format} {error : FormatError}
      (readInput : Format.parse input = .ok inFormat)
      (unread : Format.parse output = .error error) :
      Refused (.execute classNumber verbNumber input output args options)
        (.format (commandName classNumber verbNumber) error)
  | argsRejected {classNumber verbNumber : UInt32} {input output : String} {args : List Value}
      {options : CallOptions} {inFormat outFormat : Format} {error : FormatError}
      (readInput : Format.parse input = .ok inFormat)
      (readOutput : Format.parse output = .ok outFormat)
      (rejected : inFormat.encode args = .error error) :
      Refused (.execute classNumber verbNumber input output args options)
        (.format (commandName classNumber verbNumber) error)
  | argsTooLong {classNumber verbNumber : UInt32} {input output : String} {args : List Value}
      {options : CallOptions} {inFormat outFormat : Format} {payload : Bytes}
      (readInput : Format.parse input = .ok inFormat)
      (readOutput : Format.parse output = .ok outFormat)
      (encoded : inFormat.encode args = .ok payload) (long : 4096 < 8 + payload.length) :
      Refused (.execute classNumber verbNumber input output args options)
        (.commandTooLong (8 + payload.length) 4096)
  | bindingRejects {binding : RpcBinding} {args : List Value} {options : CallOptions}
      {error : FormatError} (rejected : binding.inFormat.encode args = .error error) :
      Refused (.invoke binding args options) (.format binding.name error)
  | bindingTooLong {binding : RpcBinding} {args : List Value} {options : CallOptions}
      {payload : Bytes} (encoded : binding.inFormat.encode args = .ok payload)
      (long : 4096 < 8 + payload.length) :
      Refused (.invoke binding args options) (.commandTooLong (8 + payload.length) 4096)
  | payloadTooLong {classNumber verbNumber : UInt32} {payload : Bytes} {options : CallOptions}
      (long : 4096 < 8 + payload.length) :
      Refused (.send classNumber verbNumber payload options)
        (.commandTooLong (8 + payload.length) 4096)

/-- The error that a request came to. -/
def Outcome.error? : Outcome → Option RpcError
  | .response (.error error) | .reply (.error error) | .errno (.error error) => some error
  | _ => none

/-- What a caller does with a session later on: anything that it may be used for, or a call of a
verb of the core class, of which discovery makes its queries. -/
inductive Later (σ : Type)
  | use (use : Use σ)
  | core (verb : CoreVerb) (args : List Value)

/-- The same over a watched link, which a caller that borrows it does not watch. -/
def Later.watched : Later σ → Later (Watched σ)
  | .use (.request request) => .use (.request request)
  | .use (.lend change) => .use (.lend fun watched => { watched with link := change watched.link })
  | .core verb args => .core verb args

namespace Session

variable {σ : Type}

/-- Sessions that differ in what their stores hold at most, where both hold what is right. -/
structure Agree (one other : Session σ) : Prop where
  same : other = one.withFormats other.formats
  sound : one.formats.Sound
  otherSound : other.formats.Sound

/-- A session agrees with itself whatever its store holds. -/
theorem agree_withFormats (session : Session σ) {formats : FormatCache}
    (sound : session.formats.Sound) (otherSound : formats.Sound) :
    Agree session (session.withFormats formats) :=
  ⟨rfl, sound, otherSound⟩

/-- One result, and sessions that agree behind it. -/
def Concordant (x y : α × Session σ) : Prop :=
  y.1 = x.1 ∧ Agree x.2 y.2

/-- A result that is wrapped is one result still. -/
theorem Concordant.map {x y : α × Session σ} (concordant : Concordant x y) (wrap : α → β) :
    Concordant (x.map wrap id) (y.map wrap id) :=
  ⟨congrArg wrap concordant.1, concordant.2⟩

section Steps

variable {one other : Session σ} (agree : Agree one other)

include agree

/-- An independent step comes to the same in sessions that agree, and they agree behind it. -/
theorem Agree.step {step : Session σ → α × Session σ} (independent : Independent step) :
    Concordant (step one) (step other) := by
  -- Neither session has its store changed by the step.
  obtain ⟨same, sound, otherSound⟩ := agree
  have stepped := independent one other.formats
  rw [← same] at stepped
  have agree := agree_withFormats (step one).2 (by rwa [independent.formats one]) otherSound
  rw [stepped]
  exact ⟨rfl, agree⟩

/-- Sessions that agree do so whatever their stores are replaced by. -/
theorem Agree.withFormats {formats others : FormatCache} (sound : formats.Sound)
    (otherSound : others.Sound) : Agree (one.withFormats formats) (other.withFormats others) := by
  rw [agree.same]
  exact ⟨rfl, sound, otherSound⟩

/-- A link may be lent by sessions that agree. -/
theorem Agree.modifyLink (change : σ → σ) :
    Agree (one.modifyLink change) (other.modifyLink change) := by
  -- The change is made to the same link on both sides.
  obtain ⟨same, sound, otherSound⟩ := agree
  rw [same]
  exact agree_withFormats _ sound otherSound

variable [Transport σ]

/-- Texts come to the same in sessions that agree, whichever of them either has read before. -/
theorem Agree.executeNamed (classNumber verbNumber : UInt32) (input output : String)
    (args : List Value) (options : CallOptions) (rpc : String) :
    Concordant (one.executeNamed classNumber verbNumber input output args options rpc)
      (other.executeNamed classNumber verbNumber input output args options rpc) := by
  -- Both stores are sound behind each of the texts that are read.
  have sound := agree.sound
  have otherSound := agree.otherSound
  have first := (FormatCache.fetch_sound sound input).2
  have otherFirst := (FormatCache.fetch_sound otherSound input).2
  have both := FormatCache.fetch_both_sound sound input output
  have otherBoth := FormatCache.fetch_both_sound otherSound input output
  cases readInput : Format.parse input with
  | error error =>
    -- The first text is refused, and only it is looked up.
    rw [executeNamed_input_unread sound readInput, executeNamed_input_unread otherSound readInput]
    exact ⟨rfl, agree.withFormats first otherFirst⟩
  | ok inFormat =>
    cases readOutput : Format.parse output with
    | error error =>
      -- The second text is refused, and both have been looked up.
      rw [executeNamed_output_unread sound readInput readOutput,
        executeNamed_output_unread otherSound readInput readOutput]
      exact ⟨rfl, agree.withFormats both otherBoth⟩
    | ok outFormat =>
      -- Both texts are read as the same formats, and the rest does not look at the stores.
      rw [executeNamed_parsed sound readInput readOutput,
        executeNamed_parsed otherSound readInput readOutput]
      exact (agree.withFormats both otherBoth).step (executeFormats_independent _ _ _ _ _ _ _)

/-- Every request comes to the same in sessions that agree. -/
theorem Agree.perform (request : Request) :
    Concordant (one.perform request) (other.perform request) := by
  -- Each outcome wraps the result of what was requested.
  cases request with
  | send classNumber verbNumber payload options =>
    exact (agree.step (transact_independent _ _ _ _ _)).map Outcome.response
  | execute classNumber verbNumber input output args options =>
    exact (agree.executeNamed ..).map Outcome.reply
  | invoke binding args options =>
    exact (agree.step (executeFormats_independent _ _ _ _ _ _ _)).map Outcome.reply
  -- These two do not read any text.
  | abort => exact (agree.step abort_independent).map Outcome.errno
  | reset =>
    have forgotten : Independent fun session : Session σ => (Outcome.done, session.reset) :=
      fun _ _ => rfl
    exact agree.step forgotten

end Steps

variable [Transport σ]

/-- Lets a caller go on with a session. -/
def proceed (session : Session σ) : Later σ → Outcome × Session σ
  | .use (.request request) => session.perform request
  | .use (.lend change) => (.done, session.modifyLink change)
  | .core verb args => (verb.call args session).map .reply id

/-- Lets a caller go on with a session, one step after the other. -/
def follow (session : Session σ) : List (Later σ) → List Outcome × Session σ
  | [] => ([], session)
  | step :: others =>
    let (outcome, next) := session.proceed step
    let (outcomes, last) := next.follow others
    (outcome :: outcomes, last)

/-- Whatever a caller does next comes to the same in sessions that agree. -/
theorem Agree.proceed {one other : Session σ} (agree : Agree one other) (step : Later σ) :
    Concordant (one.proceed step) (other.proceed step) := by
  cases step with
  | use use =>
    cases use with
    | request request => exact agree.perform request
    | lend change => exact ⟨rfl, agree.modifyLink change⟩
  | core verb args =>
    -- A call of the core class is one under a name of its own.
    exact (agree.executeNamed ..).map Outcome.reply

/-- Whatever a caller does from now on comes to the same in sessions that agree. -/
theorem Agree.follow {one other : Session σ} (agree : Agree one other) (steps : List (Later σ)) :
    Concordant (one.follow steps) (other.follow steps) := by
  -- Each step starts from sessions that the ones before it left in agreement.
  induction steps generalizing one other with
  | nil => exact ⟨rfl, agree⟩
  | cons step others ih =>
    obtain ⟨outcome, next⟩ := agree.proceed step
    obtain ⟨outcomes, last⟩ := ih next
    -- The outcomes are put together from those of the first step and of the rest.
    simp only [Session.follow]
    exact ⟨by rw [outcome, outcomes], last⟩

/-- Arguments that make the frame too long are refused before anything is transferred. -/
theorem executeFormats_oversized (session : Session σ) {classNumber verbNumber : UInt32}
    {inFormat outFormat : Format} {args : List Value} {options : CallOptions} {rpc : String}
    {payload : Bytes} (encoded : inFormat.encode args = .ok payload)
    (large : 4096 < 8 + payload.length) :
    session.executeFormats classNumber verbNumber inFormat outFormat args options rpc
      = (.error (.commandTooLong (8 + payload.length) 4096), session) := by
  rw [executeFormats_encoded session encoded, transact_oversized session large]
  rfl

end Session

/-- A request that is refused is refused over any link, and what the store of formats has learned
from its texts is all that may change. -/
theorem Request.Refused.performed {request : Request} {error : RpcError}
    (refused : request.Refused error) {store : FormatCache} (sound : store.Sound) :
    ∃ outcome formats, outcome.error? = some error ∧ formats.Sound ∧
      ∀ {τ : Type} [Transport τ] (session : Session τ), session.formats = store →
        session.perform request = (outcome, session.withFormats formats) := by
  -- What is refused is told from the request and the store, so that no link is needed to tell it.
  cases refused with
  | @inputUnread classNumber verbNumber input output args options error unread =>
    -- The first text is looked up, and it is not kept as it is no format.
    refine ⟨.reply (.error _), _, rfl, (FormatCache.fetch_sound sound input).2, ?_⟩
    intro τ _ session own
    subst own
    simp only [Session.perform, Session.execute, Session.executeNamed_input_unread sound unread]
    rfl
  | @outputUnread classNumber verbNumber input output args options inFormat error readInput
      unread =>
    -- The first text is in the store by now, and the second is not.
    refine ⟨.reply (.error _), _, rfl, FormatCache.fetch_both_sound sound input output, ?_⟩
    intro τ _ session own
    subst own
    simp only [Session.perform, Session.execute,
      Session.executeNamed_output_unread sound readInput unread]
    rfl
  | @argsRejected classNumber verbNumber input output args options inFormat outFormat error
      readInput readOutput rejected =>
    -- Both texts are in the store by now.
    refine ⟨.reply (.error _), _, rfl, FormatCache.fetch_both_sound sound input output, ?_⟩
    intro τ _ session own
    subst own
    simp only [Session.perform, Session.execute,
      Session.executeNamed_parsed sound readInput readOutput,
      Session.executeFormats_rejected _ rejected]
    rfl
  | @argsTooLong classNumber verbNumber input output args options inFormat outFormat payload
      readInput readOutput encoded large =>
    -- The frame is measured once its payload is known.
    refine ⟨.reply (.error _), _, rfl, FormatCache.fetch_both_sound sound input output, ?_⟩
    intro τ _ session own
    subst own
    simp only [Session.perform, Session.execute,
      Session.executeNamed_parsed sound readInput readOutput,
      Session.executeFormats_oversized _ encoded large]
    rfl
  | bindingRejects rejected =>
    -- A binding has its formats, so that the store is not asked for them.
    refine ⟨.reply (.error _), store, rfl, sound, ?_⟩
    intro τ _ session own
    subst own
    simp only [Session.perform, RpcBinding.invoke, Session.executeFormats_rejected _ rejected]
    rfl
  | bindingTooLong encoded large =>
    -- The frame is measured in the same way, under the name of the binding.
    refine ⟨.reply (.error _), store, rfl, sound, ?_⟩
    intro τ _ session own
    subst own
    simp only [Session.perform, RpcBinding.invoke,
      Session.executeFormats_oversized _ encoded large]
    rfl
  | payloadTooLong large =>
    -- A payload that is given is measured right away.
    refine ⟨.response (.error _), store, rfl, sound, ?_⟩
    intro τ _ session own
    subst own
    simp only [Session.perform, Session.send, Session.transact_oversized _ large]
    rfl

namespace Session

variable {σ : Type} [Transport σ]

/-- A request with a text that is no format, with arguments that do not fit theirs, or with a frame
that would be too long fails with that error in every session, without any transfer and with the
memo as it was. From then on, whatever a caller does makes the same transfers and comes to the same
as if the request had never been made. -/
theorem refusal_leaves_no_trace {session : Session σ} (sound : session.formats.Sound)
    {request : Request} {error : RpcError} (refused : request.Refused error) :
    ∃ outcome after, outcome.error? = some error ∧
      session.perform request = (outcome, after) ∧
      (∀ seen, (session.watch seen).perform request = (outcome, after.watch seen)) ∧
      after.link = session.link ∧ after.config = session.config ∧ after.memo = session.memo ∧
      after.formats.Sound ∧
      ∀ (later : List (Later σ)) (seen : List Answered), ∃ outcomes last untouched,
        (after.watch seen).follow (later.map Later.watched) = (outcomes, last) ∧
        (session.watch seen).follow (later.map Later.watched) = (outcomes, untouched) ∧
        last.link = untouched.link ∧ last.memo = untouched.memo := by
  obtain ⟨outcome, formats, failed, formatsSound, performed⟩ := refused.performed sound
  refine ⟨outcome, session.withFormats formats, failed, performed session rfl,
    fun seen => performed (session.watch seen) rfl, rfl, rfl, rfl, formatsSound, ?_⟩
  intro later seen
  -- The two sessions agree, and so they do whatever follows.
  have agree : Agree (session.watch seen) ((session.withFormats formats).watch seen) :=
    agree_withFormats (session.watch seen) sound formatsSound
  obtain ⟨outcomes, last⟩ := agree.follow (later.map Later.watched)
  refine ⟨_, _, ((session.watch seen).follow (later.map Later.watched)).2, rfl,
    Prod.ext outcomes.symm rfl, ?_, ?_⟩
  · -- Sessions that agree differ in their stores at most.
    rw [last.same]
    rfl
  · rw [last.same]
    rfl

/-- A session that has failed once already refuses a call without its argument, and goes on as if
that had not been called. -/
theorem refusal_leaves_no_trace_stalling : ∃ session after : Session Stalling, ∃ outcome error,
    session = past .link {} [.request (.execute 7 1 "B" "" [.ofNat 2] {})] ∧
    outcome.error? = some (.format (commandName 7 1) error) ∧
    session.perform (.execute 7 1 "B" "S" [] {}) = (outcome, after) ∧ after.memo = session.memo ∧
    ∀ later : List (Later Stalling),
      ((after.watch []).follow (later.map Later.watched)).1
        = ((session.watch []).follow (later.map Later.watched)).1 := by
  -- The refusal is put together from what the two texts are read as.
  have readInput : Format.parse "B" = .ok ⟨"B", .little, [.primitive .uint8 .once]⟩ := by cbv
  have readOutput : Format.parse "S" = .ok ⟨"S", .little, [.text .once]⟩ := by cbv
  have rejected : Format.encode ⟨"B", .little, [.primitive .uint8 .once]⟩ []
      = .error ⟨"B", .inField 0 (.argumentCount "1" 0)⟩ := by rfl
  have refused : Request.Refused (.execute 7 1 "B" "S" [] {}) (.format (commandName 7 1)
      ⟨"B", .inField 0 (.argumentCount "1" 0)⟩) := .argsRejected readInput readOutput rejected
  obtain ⟨outcome, after, failed, performed, _, _, _, memo, _, later⟩ := refusal_leaves_no_trace
    (past_sound Stalling.link {} [.request (.execute 7 1 "B" "" [.ofNat 2] {})]) refused
  refine ⟨_, after, outcome, _, rfl, failed, performed, memo, fun steps => ?_⟩
  -- Of all that follows only the outcomes are compared.
  obtain ⟨outcomes, last, untouched, left, right, _⟩ := later steps []
  rw [left, right]

end Session

end BoardRpc
