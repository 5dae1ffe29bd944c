import BoardRpc.Rpc.Session
import Mathlib

/-! The dialogue of one command: the transfers that it makes, whatever the device answers, and what
comes of them. -/

namespace BoardRpc

/-- A link together with the transfers over it so far, as they were answered. -/
abbrev Watched (σ : Type) : Type := Recorded Answered σ

/-- One command as it is issued: what is sent, how much is read, whether the device can repeat it,
and what is done where it fails. -/
structure Issue where
  frame : CommandFrame
  rpc : String
  /-- The largest response that is read; none is read where this is zero. -/
  limit : Nat
  /-- Whether the device is known to have the command. -/
  repeats : Prop
  timeout : Nat
  commsTimeout : Nat
  cancelTimeout : Nat
  /-- Whether a cancel that failed is tried once more. -/
  retries : Prop

/-- The transfers that exchange a command for its response. -/
inductive Exchanged (issue : Issue) : List Answered → Except LinkError Bytes → Prop
  | unanswered (silent : issue.limit = 0) (answer : Except LinkError Unit) :
      Exchanged issue
        [.write issue.frame.encode { skipResponse := true } issue.timeout answer]
        (answer.map fun _ => [])
  | repeated (heard : issue.limit ≠ 0) (again : issue.repeats) (answer : Except LinkError Bytes) :
      Exchanged issue
        [.read issue.limit { repeatLast := true } issue.commsTimeout answer] answer
  | refused (heard : issue.limit ≠ 0) (fresh : ¬ issue.repeats) (cause : LinkError) :
      Exchanged issue
        [.write issue.frame.encode {} issue.timeout (.error cause)] (.error cause)
  | sent (heard : issue.limit ≠ 0) (fresh : ¬ issue.repeats) (answer : Except LinkError Bytes) :
      Exchanged issue
        [.write issue.frame.encode {} issue.timeout (.ok ()),
          .read issue.limit {} issue.commsTimeout answer] answer

/-- The transfers that cancel a command, once more if the first fails and that is wanted, with the
answer to the last of them. -/
inductive Cancelled (timeout : Nat) (retries : Prop) :
    List Answered → Except LinkError Bytes → Prop
  | once (response : Bytes) :
      Cancelled timeout retries [.cancel timeout (.ok response)] (.ok response)
  | failed (final : ¬ retries) (error : LinkError) :
      Cancelled timeout retries [.cancel timeout (.error error)] (.error error)
  | retried (again : retries) (error : LinkError) (answer : Except LinkError Bytes) :
      Cancelled timeout retries [.cancel timeout (.error error), .cancel timeout answer] answer

/-- The transfers of one command, with what comes of it: a response, or an error after a cancel, or
an error without one. -/
inductive Dialogue (issue : Issue) : List Answered → Except RpcError Bytes → Prop
  | answered {calls : List Answered} {response : Bytes}
      (exchanged : Exchanged issue calls (.ok response)) : Dialogue issue calls (.ok response)
  | broken {calls : List Answered} {cause : LinkError}
      (exchanged : Exchanged issue calls (.error cause))
      (unsignaled : cause ≠ .stalled ∧ cause ≠ .timeout) :
      Dialogue issue calls (.error (.transport cause))
  | failed {calls cancels : List Answered} {cause : LinkError} {a b c d : UInt8}
      (exchanged : Exchanged issue calls (.error cause))
      (signaled : cause = .stalled ∨ cause = .timeout)
      (cancelled : Cancelled issue.cancelTimeout issue.retries cancels (.ok [a, b, c, d])) :
      Dialogue issue (calls ++ cancels) (.error (.commandFailed issue.frame.classNumber
        issue.frame.verbNumber issue.rpc
        (UInt32.ofNat (a.toNat + 256 * b.toNat + 65536 * c.toNat + 16777216 * d.toNat)) cause))
  | malformed {calls cancels : List Answered} {cause : LinkError} {response : Bytes}
      (exchanged : Exchanged issue calls (.error cause))
      (signaled : cause = .stalled ∨ cause = .timeout)
      (cancelled : Cancelled issue.cancelTimeout issue.retries cancels (.ok response))
      (length : response.length ≠ 4) :
      Dialogue issue (calls ++ cancels) (.error (.malformedCancel response.length))
  | stuck {calls cancels : List Answered} {cause error : LinkError}
      (exchanged : Exchanged issue calls (.error cause))
      (signaled : cause = .stalled ∨ cause = .timeout)
      (cancelled : Cancelled issue.cancelTimeout issue.retries cancels (.error error)) :
      Dialogue issue (calls ++ cancels) (.error (.transport error))

section Parts

variable {issue : Issue} {calls : List Answered}

/-- Only a response that is wanted is read, up to the limit. -/
theorem Exchanged.limit_of_read {result : Except LinkError Bytes}
    (exchanged : Exchanged issue calls result) {maxLength timeout : Nat} {flags : CommandFlags}
    {answer : Except LinkError Bytes} (here : .read maxLength flags timeout answer ∈ calls) :
    maxLength = issue.limit ∧ issue.limit ≠ 0 := by
  -- Two of the four exchanges have a read, each with the limit of the issue.
  cases exchanged <;> simp_all

/-- What is written is the frame. -/
theorem Exchanged.frame_of_write {result : Except LinkError Bytes}
    (exchanged : Exchanged issue calls result) {frame : Bytes} {timeout : Nat}
    {flags : CommandFlags} {answer : Except LinkError Unit}
    (here : .write frame flags timeout answer ∈ calls) :
    frame = issue.frame.encode := by
  -- Where anything is written at all, it is the frame.
  cases exchanged <;> simp_all

/-- An exchange succeeds when all of its transfers do. -/
theorem Exchanged.isOk_iff {result : Except LinkError Bytes}
    (exchanged : Exchanged issue calls result) :
    result.isOk = true ↔ ∀ call ∈ calls, call.succeeded = true := by
  -- The last transfer gives the result, and those before it were taken.
  cases exchanged with
  | unanswered silent answer =>
    cases answer <;> simp [Answered.succeeded, Except.isOk, Except.toBool, Except.map]
  | _ => simp [Answered.succeeded, Except.isOk, Except.toBool]

/-- Cancels are all that is transferred to cancel a command. -/
theorem Cancelled.eq_cancel {timeout : Nat} {retries : Prop} {answer : Except LinkError Bytes}
    (cancelled : Cancelled timeout retries calls answer) {call : Answered} (here : call ∈ calls) :
    ∃ timeout answer, call = .cancel timeout answer := by
  cases cancelled with
  | once | failed => exact ⟨_, _, List.mem_singleton.mp here⟩
  -- There are two cancels only where the first one failed.
  | retried =>
    rcases List.mem_pair.mp here with first | second
    · exact ⟨_, _, first⟩
    · exact ⟨_, _, second⟩

/-- A dialogue is an exchange, and cancels behind it only if that fails. -/
theorem Dialogue.split {result : Except RpcError Bytes} (dialogue : Dialogue issue calls result) :
    ∃ exchange cancels answer, calls = exchange ++ cancels ∧ Exchanged issue exchange answer ∧
      (∀ call ∈ cancels, ∃ timeout answer, call = .cancel timeout answer) ∧
      (answer.isOk = true → cancels = []) ∧ result.isOk = answer.isOk := by
  -- Only the three ways to fail by a signal have cancels.
  cases dialogue with
  | answered exchanged | broken exchanged =>
    exact ⟨calls, [], _, by simp, exchanged, by simp, fun _ => rfl, rfl⟩
  | failed exchanged _ cancelled | malformed exchanged _ cancelled | stuck exchanged _ cancelled =>
    refine ⟨_, _, _, rfl, exchanged, fun _ => cancelled.eq_cancel, fun succeeded => ?_, rfl⟩
    cases succeeded

/-- A command succeeds when all of its transfers do. -/
theorem Dialogue.isOk_iff {result : Except RpcError Bytes}
    (dialogue : Dialogue issue calls result) :
    result.isOk = true ↔ ∀ call ∈ calls, call.succeeded = true := by
  -- A transfer that failed ended the exchange, whatever the cancels came to.
  obtain ⟨exchange, cancels, answer, rfl, exchanged, _, alone, same⟩ := dialogue.split
  rw [same, exchanged.isOk_iff]
  constructor
  · intro succeeded
    rw [alone (exchanged.isOk_iff.mpr succeeded), List.append_nil]
    exact succeeded
  · exact fun all call here => all call (List.mem_append_left _ here)

end Parts

/-- A link without a state: it takes every frame, stalls every response, and answers each cancel
with an error number. -/
inductive Stalling
  | link

instance : Transport Stalling where
  write stalling _ _ _ := (.ok (), stalling)
  read stalling _ _ _ := (.error .stalled, stalling)
  cancel stalling _ := (.ok [16, 0, 0, 0], stalling)

namespace Session

variable {σ : Type}

/-- The same session over a watched link. -/
def watch (session : Session σ) (seen : List Answered) : Session (Watched σ) where
  link := ⟨session.link, seen⟩
  config := session.config
  memo := session.memo
  formats := session.formats

/-- How a session issues a command. -/
def issue (session : Session σ) (classNumber verbNumber : UInt32) (payload : Bytes)
    (options : CallOptions) (rpc : String) : Issue where
  frame := ⟨classNumber, verbNumber, payload⟩
  rpc := rpc
  limit := min (options.maxResponseLength.getD session.config.maxResponseLength) 4096
  repeats := session.config.repeatsCommands = true ∧
    session.memo = some ⟨classNumber, verbNumber, payload⟩
  timeout := options.timeout.getD session.config.timeout
  commsTimeout := options.commsTimeout.getD session.config.commsTimeout
  cancelTimeout := session.config.cancelTimeout
  retries := session.config.cancelRetryDelay.isSome = true

/-- What a step of a session does over its link: the transfers with their answers, and what comes of
them. It does the same over a watched link, which notes just those transfers. -/
structure Does {ε α : Type} [Transport σ]
    (step : {τ : Type} → [Transport τ] → Session τ → Except ε α × Session τ) (session : Session σ)
    (calls : List Answered) (result : Except ε α) (after : Session σ) : Prop where
  plain : step session = (result, after)
  watched : ∀ seen, step (session.watch seen) = (result, after.watch (seen ++ calls))
  settings : after.config = session.config

section Steps

variable [Transport σ] (session : Session σ) (frame : CommandFrame) (options : CallOptions)

/-- Sending a frame is one write. -/
theorem sendFrame_does : ∃ answer after,
    Does (fun session => session.sendFrame frame options) session
      [.write frame.encode { skipResponse := session.responseLimit options == 0 }
        (options.timeout.getD session.config.timeout) answer] answer after := by
  -- The memo depends on the answer, the transfer does not.
  cases written : Transport.write session.link frame.encode
      { skipResponse := session.responseLimit options == 0 }
      (options.timeout.getD session.config.timeout) with
  | mk answer link =>
    cases answer with
    | error cause =>
      refine ⟨.error cause, { session with link, memo := none }, ?_, fun seen => ?_, rfl⟩
      · simp only [sendFrame, written]
      · simp only [sendFrame, watch, Transport.write, Note.ofAnswered, responseLimit] at written ⊢
        simp only [written]
    | ok taken =>
      refine ⟨.ok (), { session with
          link, memo := if session.config.repeatsCommands then some frame else none },
        ?_, fun seen => ?_, rfl⟩
      · simp only [sendFrame, written]
      · simp only [sendFrame, watch, Transport.write, Note.ofAnswered, responseLimit] at written ⊢
        simp only [written]
        rfl

/-- Reading a response is one read. -/
theorem readResponse_does (repeatLast : Bool) : ∃ answer after,
    Does (fun session => session.readResponse repeatLast options) session
      [.read (session.responseLimit options) { repeatLast }
        (options.commsTimeout.getD session.config.commsTimeout) answer] answer after := by
  -- Reading changes the link and nothing else.
  cases read : Transport.read session.link (session.responseLimit options) { repeatLast }
      (options.commsTimeout.getD session.config.commsTimeout) with
  | mk answer link =>
    refine ⟨answer, { session with link }, ?_, fun seen => ?_, rfl⟩
    · simp only [readResponse, read]
    · simp only [readResponse, watch, Transport.read, Note.ofAnswered, responseLimit] at read ⊢
      simp only [read]

end Steps

/-- Only a command whose response is read, and that is remembered where that is allowed, is
repeated. -/
theorem canRepeat_iff {session : Session σ} {frame : CommandFrame} {options : CallOptions} :
    session.canRepeat frame options = true ↔ session.responseLimit options ≠ 0 ∧
      session.config.repeatsCommands = true ∧ session.memo = some frame := by
  -- A response is read where the limit is not zero.
  simp only [canRepeat, Bool.and_eq_true, bne_iff_ne, beq_iff_eq]
  tauto

section Exchanges

/-! What an exchange comes to, given the steps that it takes. -/

variable [Transport σ] {session between after : Session σ} {frame : CommandFrame}
  {options : CallOptions} {answer : Except LinkError Bytes}

/-- A command that can be repeated is read for. -/
theorem exchange_repeated (again : session.canRepeat frame options = true)
    (read : session.readResponse true options = (answer, after)) :
    session.exchange frame options = (answer, after) := by
  rw [exchange, if_pos again, read]

/-- A frame that is not taken is all there is. -/
theorem exchange_refused {cause : LinkError}
    (sent : session.sendFrame frame options = (.error cause, after))
    (fresh : ¬ session.canRepeat frame options = true) :
    session.exchange frame options = (.error cause, after) := by
  rw [exchange, if_neg fresh, sent]

/-- A frame without a response is all there is. -/
theorem exchange_unanswered {taken : Except LinkError Unit}
    (sent : session.sendFrame frame options = (taken, after))
    (fresh : ¬ session.canRepeat frame options = true)
    (silent : after.responseLimit options = 0) :
    session.exchange frame options = (taken.map fun _ => [], after) := by
  -- Nothing is read, whether or not the frame was taken.
  cases taken with
  | error cause => exact exchange_refused sent fresh
  | ok =>
    rw [exchange, if_neg fresh, sent]
    exact if_pos silent

/-- A frame that is taken is followed by its response. -/
theorem exchange_sent (sent : session.sendFrame frame options = (.ok (), between))
    (fresh : ¬ session.canRepeat frame options = true)
    (heard : between.responseLimit options ≠ 0)
    (read : between.readResponse false options = (answer, after)) :
    session.exchange frame options = (answer, after) := by
  -- A frame was taken, and there is a limit that is not zero to read up to.
  rw [exchange, if_neg fresh, sent]
  exact (if_neg heard).trans read

end Exchanges

/-- An exchange makes the transfers that it should. -/
theorem exchange_does [Transport σ] (session : Session σ) (classNumber verbNumber : UInt32)
    (payload : Bytes) (options : CallOptions) (rpc : String) : ∃ calls result after,
    Does (fun session => session.exchange ⟨classNumber, verbNumber, payload⟩ options) session
        calls result after ∧
      Exchanged (session.issue classNumber verbNumber payload options rpc) calls result := by
  -- A watched session has the same settings and the same memo, so it goes the same way.
  by_cases again : session.canRepeat ⟨classNumber, verbNumber, payload⟩ options = true
  · obtain ⟨answer, after, plain, watched, settings⟩ := readResponse_does session options true
    obtain ⟨heard, repeats⟩ := canRepeat_iff.mp again
    exact ⟨_, answer, after, ⟨exchange_repeated again plain,
      fun seen => exchange_repeated again (watched seen), settings⟩, .repeated heard repeats answer⟩
  · obtain ⟨taken, between, plain, watched, settings⟩ :=
      sendFrame_does session ⟨classNumber, verbNumber, payload⟩ options
    -- The limit is one of the settings, which a write leaves alone.
    have limit : between.responseLimit options = session.responseLimit options := by
      rw [responseLimit, settings, responseLimit]
    by_cases silent : session.responseLimit options = 0
    · rw [silent] at watched
      have none : between.responseLimit options = 0 := limit.trans silent
      exact ⟨_, _, between, ⟨exchange_unanswered plain again none,
        fun seen => exchange_unanswered (watched seen) again none, settings⟩,
        .unanswered silent taken⟩
    · rw [beq_eq_false_iff_ne.mpr silent] at watched
      -- Neither half of what a repeat needs can be missing alone, as there is a response to read.
      have fresh : ¬ (session.config.repeatsCommands = true ∧
          session.memo = some ⟨classNumber, verbNumber, payload⟩) :=
        fun repeats => again (canRepeat_iff.mpr ⟨silent, repeats⟩)
      cases taken with
      | error cause =>
        exact ⟨_, _, between, ⟨exchange_refused plain again,
          fun seen => exchange_refused (watched seen) again, settings⟩,
          .refused silent fresh cause⟩
      | ok =>
        obtain ⟨answer, after, readPlain, readWatched, readSettings⟩ :=
          readResponse_does between options false
        have heard : between.responseLimit options ≠ 0 := limit ▸ silent
        rw [limit, settings] at readWatched
        refine ⟨_, answer, after, ⟨exchange_sent plain again heard readPlain, fun seen => ?_,
          readSettings.trans settings⟩, .sent silent fresh answer⟩
        -- The read is noted behind the write.
        rw [exchange_sent (watched seen) again heard (readWatched _), List.append_assoc]
        rfl

/-- A cancel makes the transfers that it should, and forgets the command. -/
theorem cancel_does [Transport σ] (session : Session σ) : ∃ calls answer after,
    Does (fun session => session.cancel) session calls answer after ∧
      Cancelled session.config.cancelTimeout (session.config.cancelRetryDelay.isSome = true)
        calls answer ∧ after.memo = none := by
  -- The second cancel starts from the link that the first one left.
  cases first : Transport.cancel session.link session.config.cancelTimeout with
  | mk answer link =>
    cases answer with
    -- An answer to the first cancel is final.
    | ok response =>
      refine ⟨_, .ok response, { session with link, memo := none }, ⟨?_, fun seen => ?_, rfl⟩,
        .once response, rfl⟩
      · simp only [cancel, first]
      · simp only [cancel, watch, Transport.cancel, Note.ofAnswered, first]
    | error error =>
      cases delay : session.config.cancelRetryDelay with
      | none =>
        refine ⟨_, .error error, { session with link, memo := none }, ⟨?_, fun seen => ?_, rfl⟩,
          .failed (by simp) error, rfl⟩
        · simp only [cancel, first, delay]
        · simp only [cancel, watch, Transport.cancel, Note.ofAnswered, first, delay]
      | some pause =>
        -- What becomes of the second cancel is the answer, after the pause that is asked for.
        cases second : Transport.cancel link session.config.cancelTimeout with
        | mk answer last =>
          refine ⟨_, answer, { session with link := last, memo := none },
            ⟨?_, fun seen => ?_, rfl⟩, .retried rfl error answer, rfl⟩
          · simp only [cancel, first, delay, second]
          · simp only [cancel, watch, Transport.cancel, Note.ofAnswered, first, delay, second,
              List.append_assoc]
            rfl

section Outcomes

/-! What comes of a command that fits a frame, given its exchange and its cancel. -/

variable [Transport σ] {session between after : Session σ} {classNumber verbNumber : UInt32}
  {payload response : Bytes} {options : CallOptions} {rpc : String} {cause error : LinkError}
  (fits : 8 + payload.length ≤ 4096)

include fits

/-- A command that fits a frame is exchanged. -/
theorem transact_eq : session.transact classNumber verbNumber payload options rpc =
    match session.exchange ⟨classNumber, verbNumber, payload⟩ options with
    | (.ok response, session) => (.ok response, session)
    | (.error cause, session) =>
      if cause.isSignaled then
        match session.abort with
        | (.error error, session) => (.error error, session)
        | (.ok code, session) =>
          (.error (.commandFailed classNumber verbNumber rpc code cause), session)
      else (.error (.transport cause), session.reset) :=
  if_neg (Nat.not_lt.mpr fits)

/-- A command that is answered has its response. -/
theorem transact_answered (exchanged : session.exchange ⟨classNumber, verbNumber, payload⟩ options
      = (.ok response, after)) :
    session.transact classNumber verbNumber payload options rpc = (.ok response, after) := by
  rw [transact_eq fits, exchanged]

/-- A failure that the device does not signal is the link's, and the command is forgotten. -/
theorem transact_broken (exchanged : session.exchange ⟨classNumber, verbNumber, payload⟩ options
      = (.error cause, after)) (unsignaled : ¬ cause.isSignaled = true) :
    session.transact classNumber verbNumber payload options rpc
      = (.error (.transport cause), after.reset) := by
  rw [transact_eq fits, exchanged]
  exact if_neg unsignaled

variable (exchanged : session.exchange ⟨classNumber, verbNumber, payload⟩ options
    = (.error cause, between)) (signaled : cause.isSignaled = true)

include exchanged signaled

/-- A failure that the device signals has the error number that a cancel fetches. -/
theorem transact_failed {a b c d : UInt8} (cancelled : between.cancel = (.ok [a, b, c, d], after)) :
    session.transact classNumber verbNumber payload options rpc
      = (.error (.commandFailed classNumber verbNumber rpc (UInt32.ofNat
          (a.toNat + 256 * b.toNat + 65536 * c.toNat + 16777216 * d.toNat)) cause), after) := by
  -- The number is read from its four bytes, the lowest first.
  have code : Word.join [a, b, c, d]
      = a.toNat + 256 * b.toNat + 65536 * c.toNat + 16777216 * d.toNat := by
    simp only [Word.join]
    omega
  simp only [transact_eq fits, exchanged, signaled, if_true, abort, cancelled, List.length_cons,
    List.length_nil, errnoSize, code]

/-- A cancel that is answered by something else than an error number is an error of its own. -/
theorem transact_malformed (cancelled : between.cancel = (.ok response, after))
    (length : response.length ≠ 4) :
    session.transact classNumber verbNumber payload options rpc
      = (.error (.malformedCancel response.length), after) := by
  simp only [transact_eq fits, exchanged, signaled, if_true, abort, cancelled, errnoSize, length,
    if_false]

/-- A cancel that fails is a failure of the link. -/
theorem transact_stuck (cancelled : between.cancel = (.error error, after)) :
    session.transact classNumber verbNumber payload options rpc
      = (.error (.transport error), after) := by
  simp only [transact_eq fits, exchanged, signaled, if_true, abort, cancelled]

end Outcomes

/-- The device signals a failure by a stall or by taking too long. -/
theorem isSignaled_iff {cause : LinkError} :
    cause.isSignaled = true ↔ cause = .stalled ∨ cause = .timeout := by
  cases cause <;> simp [LinkError.isSignaled]

/-- A command makes the transfers of its dialogue, and is forgotten where it fails. -/
theorem transact_does [Transport σ] (session : Session σ) (classNumber verbNumber : UInt32)
    {payload : Bytes} (options : CallOptions) (rpc : String) (fits : 8 + payload.length ≤ 4096) :
    ∃ calls result after,
      Does (fun session => session.transact classNumber verbNumber payload options rpc) session
        calls result after ∧
      Dialogue (session.issue classNumber verbNumber payload options rpc) calls result ∧
      (result.isOk = false → after.memo = none) := by
  obtain ⟨calls, result, between, ⟨plain, watched, settings⟩, exchanged⟩ :=
    exchange_does session classNumber verbNumber payload options rpc
  -- What the exchange came to decides whether there are cancels.
  cases result with
  | ok response =>
    exact ⟨calls, .ok response, between, ⟨transact_answered fits plain,
      fun seen => transact_answered fits (watched seen), settings⟩, .answered exchanged,
      fun failed => by cases failed⟩
  | error cause =>
    by_cases signaled : cause.isSignaled = true
    · have signal := isSignaled_iff.mp signaled
      obtain ⟨cancels, answer, after, ⟨cancelPlain, cancelWatched, cancelSettings⟩, cancelled,
        forgotten⟩ := cancel_does between
      rw [settings] at cancelled
      -- Watched, the cancels follow the exchange.
      have watchedCancel : ∀ seen, (between.watch (seen ++ calls)).cancel
          = (answer, after.watch (seen ++ (calls ++ cancels))) := fun seen => by
        rw [cancelWatched, List.append_assoc]
      cases answer with
      | error error =>
        exact ⟨calls ++ cancels, _, after, ⟨transact_stuck fits plain signaled cancelPlain,
          fun seen => transact_stuck fits (watched seen) signaled (watchedCancel seen),
          cancelSettings.trans settings⟩, .stuck exchanged signal cancelled, fun _ => forgotten⟩
      | ok response =>
        -- An error number has four bytes, and any other answer is malformed.
        by_cases length : response.length = 4
        · obtain ⟨a, b, c, d, rfl⟩ := List.length_eq_four.mp length
          exact ⟨calls ++ cancels, _, after, ⟨transact_failed fits plain signaled cancelPlain,
            fun seen => transact_failed fits (watched seen) signaled (watchedCancel seen),
            cancelSettings.trans settings⟩, .failed exchanged signal cancelled, fun _ => forgotten⟩
        · exact ⟨calls ++ cancels, _, after,
            ⟨transact_malformed fits plain signaled cancelPlain length,
            fun seen => transact_malformed fits (watched seen) signaled (watchedCancel seen) length,
            cancelSettings.trans settings⟩, .malformed exchanged signal cancelled length,
            fun _ => forgotten⟩
    · -- A failure without a signal is not cancelled: the link is given up.
      have unsignaled := not_or.mp (fun signal => signaled (isSignaled_iff.mpr signal))
      exact ⟨calls, _, between.reset, ⟨transact_broken fits plain signaled,
        fun seen => transact_broken fits (watched seen) signaled, settings⟩,
        .broken exchanged unsignaled, fun _ => rfl⟩

/-- A command that fits a frame makes just the transfers of its dialogue, over any link: it reads up
to its limit and writes its frame, it succeeds when all of its transfers do, and it is forgotten
where it fails. -/
theorem send_dialogue [Transport σ] (session : Session σ) (classNumber verbNumber : UInt32)
    (payload : Bytes) (options : CallOptions) (fits : 8 + payload.length ≤ 4096) :
    ∃ calls result after,
      session.send classNumber verbNumber payload options = (result, after) ∧
      (∀ seen, (session.watch seen).send classNumber verbNumber payload options
        = (result, after.watch (seen ++ calls))) ∧
      Dialogue (session.issue classNumber verbNumber payload options
        (commandName classNumber verbNumber)) calls result ∧
      (∀ maxLength flags timeout answer, .read maxLength flags timeout answer ∈ calls →
        maxLength = min (options.maxResponseLength.getD session.config.maxResponseLength) 4096 ∧
          1 ≤ maxLength ∧ maxLength ≤ 4096) ∧
      (∀ frame flags timeout answer, .write frame flags timeout answer ∈ calls →
        frame.length = 8 + payload.length ∧ frame.length ≤ 4096) ∧
      (result.isOk = true ↔ ∀ call ∈ calls, call.succeeded = true) ∧
      (result.isOk = false → after.memo = none) := by
  -- Reads and writes belong to the exchange, as all that follows it is cancels.
  obtain ⟨calls, result, after, ⟨plain, watched, _⟩, dialogue, forgotten⟩ := transact_does session
    classNumber verbNumber options (commandName classNumber verbNumber) fits
  refine ⟨calls, result, after, plain, watched, dialogue, ?_, ?_, dialogue.isOk_iff, forgotten⟩
  · intro maxLength flags timeout answer here
    obtain ⟨exchange, cancels, _, rfl, exchanged, cancelled, _⟩ := dialogue.split
    rcases List.mem_append.mp here with here | here
    · -- A read is part of the exchange.
      obtain ⟨rfl, wanted⟩ := exchanged.limit_of_read here
      exact ⟨rfl, Nat.one_le_iff_ne_zero.mpr wanted, Nat.min_le_right _ _⟩
    · -- No cancel is a read.
      obtain ⟨_, _, other⟩ := cancelled _ here
      cases other
  · intro frame flags timeout answer here
    obtain ⟨exchange, cancels, _, rfl, exchanged, cancelled, _⟩ := dialogue.split
    rcases List.mem_append.mp here with here | here
    · -- A write is part of the exchange, and its frame is the header and the payload.
      obtain rfl := exchanged.frame_of_write here
      have length : (session.issue classNumber verbNumber payload options
          (commandName classNumber verbNumber)).frame.encode.length = 8 + payload.length :=
        CommandFrame.length_encode _
      exact ⟨length, length ▸ fits⟩
    · obtain ⟨_, _, other⟩ := cancelled _ here
      cases other

/-- A command whose response stalls is written, read for and cancelled, which tells the error
number. -/
theorem send_dialogue_stalling : ∃ calls after,
    ({ link := Stalling.link } : Session Stalling).send 7 1 [2] {}
      = (.error (.commandFailed 7 1 (commandName 7 1) 16 .stalled), after) ∧
    calls = [.write [7, 0, 0, 0, 1, 0, 0, 0, 2] {} defaultTimeout (.ok ()),
      .read maxCommandSize {} defaultTimeout (.error .stalled),
      .cancel defaultTimeout (.ok [16, 0, 0, 0])] ∧
    Dialogue (({ link := Stalling.link } : Session Stalling).issue 7 1 [2] {} (commandName 7 1))
      calls (.error (.commandFailed 7 1 (commandName 7 1) 16 .stalled)) ∧
    after.memo = none := by
  obtain ⟨calls, result, after, plain, watched, dialogue, _, _, _, forgotten⟩ :=
    send_dialogue ({ link := Stalling.link } : Session Stalling) 7 1 [2] {} (by decide)
  obtain rfl : result = .error (.commandFailed 7 1 (commandName 7 1) 16 .stalled) :=
    congrArg Prod.fst plain.symm
  -- The calls are those that a watched link has noted.
  exact ⟨calls, after, plain, congrArg (fun done => done.2.link.notes) (watched []).symm, dialogue,
    forgotten rfl⟩

end Session

end BoardRpc
