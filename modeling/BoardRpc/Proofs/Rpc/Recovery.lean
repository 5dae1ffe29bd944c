import BoardRpc.Proofs.Rpc.Isolation

/-! Recovery: once nothing fails any more, a command comes to what its device answers, whatever has
happened before. -/

namespace BoardRpc

namespace Session

variable {δ : Type}

/-- What a command comes to over a link that works, given the answer of the device. Without a
response to read, an error without a number goes unnoticed. -/
def settle (frame : CommandFrame) (rpc : String) (limit : Nat) :
    Except UInt32 Bytes → Except RpcError Bytes
  | .ok response => .ok (response.take limit)
  | .error errno =>
    if errno = 0 ∧ limit = 0 then .ok []
    else .error (.commandFailed frame.classNumber frame.verbNumber rpc (Loopback.latched errno)
      .stalled)

section Settling

variable {frame : CommandFrame} {rpc : String} {limit : Nat} {errno : UInt32}

/-- An error with a number is told with that number, whether a response is wanted or not. -/
theorem settle_numbered (told : errno ≠ 0) : settle frame rpc limit (.error errno)
    = .error (.commandFailed frame.classNumber frame.verbNumber rpc errno .stalled) := by
  -- With a number at hand there is no need for that of a request out of order.
  rw [settle, if_neg (fun both => told both.1), Loopback.latched, if_neg told]

/-- Where a response is wanted, every error is told, with a number in any case. -/
theorem settle_heard (heard : limit ≠ 0) : settle frame rpc limit (.error errno)
    = .error (.commandFailed frame.classNumber frame.verbNumber rpc (Loopback.latched errno)
      .stalled) :=
  if_neg fun both => heard both.2

end Settling

/-- A session over a loopback that no failure awaits. What is remembered is stored. -/
structure Ready (session : Session (Loopback δ)) : Prop where
  unfailing : session.link.failures = []
  stored : ∀ frame, session.memo = some frame → session.link.lastFrame = some frame

/-- The exchange of a command has executed it, and comes to what the device answered. -/
inductive Concluded (limit : Nat) (answer : Except UInt32 Bytes) (after : Loopback δ) :
    Except LinkError Bytes → Prop
  | response {whole : Bytes} (succeeded : answer = .ok whole) :
      Concluded limit answer after (.ok (whole.take limit))
  | unheard (failed : answer = .error 0) (silent : limit = 0) :
      Concluded limit answer after (.ok [])
  | stalled {errno : UInt32} (failed : answer = .error errno) (told : ¬ (errno = 0 ∧ limit = 0))
      (kept : after.errno = Loopback.latched errno) :
      Concluded limit answer after (.error .stalled)

/-- What is held is given away, or the read stalls and the error number is kept. -/
theorem giveResponse_concludes {loopback : Loopback δ} {answer : Except UInt32 Bytes}
    (holds : loopback.Holds answer) {limit : Nat} (heard : limit ≠ 0) :
    Concluded limit answer (loopback.giveResponse limit).2 (loopback.giveResponse limit).1 := by
  -- A read stalls for every error, also for one without a number.
  cases answer with
  | ok whole =>
    rw [Loopback.giveResponse_ok holds]
    exact .response rfl
  | error errno =>
    rw [Loopback.giveResponse_error holds]
    exact .stalled rfl (fun both => heard both.2) rfl

variable [CommandHandler δ] {session : Session (Loopback δ)}

/-- A frame that is sent is executed. Without a response to read, the write stalls if there is an
error number to tell. -/
theorem sendFrame_ready (ready : session.Ready) {frame : CommandFrame}
    (fits : frame.size ≤ maxCommandSize) (options : CallOptions) : ∃ result after,
    session.sendFrame frame options = (result, after) ∧ after.Ready ∧
      Loopback.Executed frame session.link.device after.link ∧
      (result = .ok () ∧ (session.responseLimit options = 0 → after.link.errno = 0) ∨
        result = .error .stalled ∧ session.responseLimit options = 0 ∧
          after.link.errno ≠ 0) := by
  -- The device executes the frame, whatever is told of it.
  obtain ⟨link, executed, stored, failures, done⟩ := session.link.performWrite_executes fits
    { skipResponse := session.responseLimit options == 0 }
  have unfailing : link.failures = [] := failures.trans ready.unfailing
  rcases done with ⟨taken, silent⟩ | ⟨stalled, skips, told⟩
  · refine ⟨.ok (), { session with
        link, memo := if session.config.repeatsCommands then some frame else none },
      ?_, ⟨unfailing, fun other same => ?_⟩, executed,
      .inl ⟨rfl, fun none => silent (by simp [none])⟩⟩
    · simp only [sendFrame, Transport.write, Loopback.unlessFailing_none ready.unfailing, taken]
    · -- Only the frame that was just stored may be remembered.
      exact stored.trans (Option.ite_none_right_eq_some.mp same).2
  · -- The write stalls, and what is stored is not remembered.
    refine ⟨.error .stalled, { session with link, memo := none }, ?_,
      ⟨unfailing, fun _ same => by cases same⟩, executed,
      .inr ⟨rfl, by simpa using skips, told⟩⟩
    simp only [sendFrame, Transport.write, Loopback.unlessFailing_none ready.unfailing, stalled]

/-- A read from a loopback that has the answer gives it. -/
theorem readResponse_ready (ready : session.Ready) {options : CallOptions}
    (heard : session.responseLimit options ≠ 0) {repeatLast : Bool}
    {held : Loopback δ} {answer : Except UInt32 Bytes} (holds : held.Holds answer)
    (failures : held.failures = session.link.failures)
    (lastFrame : held.lastFrame = session.link.lastFrame)
    (gives : session.link.performRead (session.responseLimit options) { repeatLast }
      = held.giveResponse (session.responseLimit options)) : ∃ result after,
    session.readResponse repeatLast options = (result, after) ∧ after.Ready ∧
      after.link.device = held.device ∧
      Concluded (session.responseLimit options) answer after.link result := by
  -- Nothing but the loopback changes, and it keeps what it has stored.
  obtain ⟨stored, unfailing⟩ := held.giveResponse_keeps (session.responseLimit options)
  refine ⟨_, { session with link := (held.giveResponse (session.responseLimit options)).2 }, ?_,
    ⟨unfailing.trans (failures.trans ready.unfailing), fun frame same => ?_⟩,
    held.giveResponse_device _, giveResponse_concludes holds heard⟩
  · simp only [readResponse, Transport.read, Loopback.unlessFailing_none ready.unfailing, gives]
  · exact (stored.trans lastFrame).trans (ready.stored frame same)

/-- An exchange executes the command once and comes to what the device answers, whether the frame
is sent or repeated. -/
theorem exchange_ready (ready : session.Ready) {frame : CommandFrame}
    (fits : frame.size ≤ maxCommandSize) (options : CallOptions) : ∃ result after,
    session.exchange frame options = (result, after) ∧ after.Ready ∧
      after.link.device = CommandHandler.next session.link.device frame ∧
      Concluded (session.responseLimit options)
        (CommandHandler.answer session.link.device frame) after.link result := by
  by_cases again : session.canRepeat frame options = true
  · -- What is remembered is stored, so the repeat executes the command.
    have ⟨⟨_, heard⟩, remembered⟩ : (session.config.repeatsCommands = true ∧
        session.responseLimit options ≠ 0) ∧ session.memo = some frame := by
      simpa only [canRepeat, Bool.and_eq_true, bne_iff_ne, beq_iff_eq] using again
    have stored := ready.stored frame remembered
    obtain ⟨held, executed, lastFrame, failures, gives⟩ :=
      Loopback.performRead_repeats stored (session.responseLimit options)
    obtain ⟨result, after, read, still, device, concluded⟩ := readResponse_ready ready heard
      executed.holds failures (lastFrame.trans stored.symm) gives
    refine ⟨result, after, ?_, still, device.trans executed.device, concluded⟩
    rw [exchange, if_pos again, read]
  · -- A frame that is sent is executed by the write.
    obtain ⟨sent, between, written, still, executed, cases⟩ :=
      sendFrame_ready ready fits options
    -- The limit is a matter of the settings, and a write leaves them alone.
    have settings := sendFrame_settings session frame options
    rw [written] at settings
    have limit := settings.responseLimit options
    rw [exchange, if_neg again, written]
    have holds := executed.holds
    rcases cases with ⟨rfl, silent⟩ | ⟨rfl, unheard, told⟩
    · dsimp only
      rw [limit]
      -- Without a response to read, the write is all there is, and only an error of zero escapes
      -- it.
      by_cases unheard : session.responseLimit options = 0
      · rw [if_pos unheard]
        refine ⟨.ok [], between, rfl, still, executed.device, ?_⟩
        have none := silent unheard
        revert holds
        rw [unheard]
        cases CommandHandler.answer session.link.device frame with
        | ok whole =>
          intro _
          have cut : Concluded 0 (.ok whole) between.link (.ok (whole.take 0)) := .response rfl
          exact cut
        | error errno =>
          intro holds
          obtain rfl : errno = 0 := holds.1.symm.trans none
          exact .unheard rfl rfl
      · -- The answer is held, and the read gives it.
        rw [if_neg unheard]
        obtain ⟨counted, rested, failures, gives⟩ :=
          between.link.performRead_gives (between.responseLimit options)
        obtain ⟨result, after, read, stillOn, device, concluded⟩ := readResponse_ready still
          (limit ▸ unheard) (holds.congr rested.errno rested.response) failures rested.lastFrame
          gives
        rw [limit] at concluded
        exact ⟨result, after, read, stillOn,
          device.trans (rested.device.trans executed.device), concluded⟩
    · -- The write has stalled, so the device has a number, and a cancel will fetch it.
      refine ⟨.error .stalled, between, rfl, still, executed.device, ?_⟩
      revert holds
      cases CommandHandler.answer session.link.device frame with
      | ok whole => exact fun holds => absurd holds.1 told
      | error errno =>
        intro holds
        -- Only a number that is not zero makes a write stall.
        have number : errno ≠ 0 := holds.1 ▸ told
        refine .stalled rfl (fun both => number both.1) ?_
        rw [holds.1, Loopback.latched, if_neg number]

/-- An abort fetches the error number, and the loopback forgets it with any response. -/
theorem abort_ready (ready : session.Ready) : ∃ after,
    session.abort = (.ok session.link.errno, after) ∧ after.Ready ∧
      after.link.device = session.link.device ∧ after.link.errno = 0 ∧
      after.link.response = none := by
  -- The cancel is answered by the four bytes of the error number.
  have number : UInt32.ofNat (Word.join (Word.split errnoSize session.link.errno.toNat))
      = session.link.errno := Word.ofNat_join_split _
  refine ⟨{ session with link := session.link.performCancel.2, memo := none }, ?_,
    ⟨ready.unfailing, nofun⟩, rfl, rfl, rfl⟩
  simp only [abort, cancel, Transport.cancel, Loopback.unlessFailing_none ready.unfailing,
    Loopback.performCancel, Word.length_split, if_true, number]

/-- A command that fits a frame is executed once and comes to what the device answers. If it failed,
the loopback keeps neither an error number nor a response. -/
theorem transact_ready (ready : session.Ready) (classNumber verbNumber : UInt32) {payload : Bytes}
    (fits : 8 + payload.length ≤ 4096) (options : CallOptions) (rpc : String) : ∃ result after,
    session.transact classNumber verbNumber payload options rpc = (result, after) ∧
      result = settle ⟨classNumber, verbNumber, payload⟩ rpc (session.responseLimit options)
        (CommandHandler.answer session.link.device ⟨classNumber, verbNumber, payload⟩) ∧
      after.Ready ∧
      after.link.device
        = CommandHandler.next session.link.device ⟨classNumber, verbNumber, payload⟩ ∧
      (∀ error, result = .error error → after.link.errno = 0 ∧ after.link.response = none) := by
  -- The test for the frame is the only one before the exchange.
  have small : ¬ maxCommandSize < (⟨classNumber, verbNumber, payload⟩ : CommandFrame).size :=
    Nat.not_lt.mpr fits
  -- What the exchange concluded with decides whether there is something to cancel.
  obtain ⟨result, between, exchanged, still, device, concluded⟩ :=
    exchange_ready ready (Nat.le_of_not_lt small) options
  simp only [transact, if_neg small, exchanged]
  cases concluded with
  | response succeeded =>
    refine ⟨_, between, rfl, by rw [succeeded]; rfl, still, device, ?_⟩
    intro error none
    cases none
  -- An error of zero was not told, and the command counts as answered by nothing.
  | unheard failed silent =>
    refine ⟨_, between, rfl, ?_, still, device, ?_⟩
    · rw [failed, settle, if_pos ⟨rfl, silent⟩]
    · intro error none
      cases none
  | stalled failed told kept =>
    -- The cancel fetches the number that was kept.
    obtain ⟨after, aborted, stillOn, deviceOn, errno, response⟩ := abort_ready still
    simp only [LinkError.isSignaled, if_true, aborted]
    refine ⟨_, after, rfl, ?_, stillOn, deviceOn.trans device, fun _ _ => ⟨errno, response⟩⟩
    rw [failed, settle, if_neg told, kept]

/-- The session over its loopback alone, into which nothing more is injected. -/
def calm (session : Session (Disturbed δ)) : Session (Loopback δ) where
  link := session.link.board
  config := session.config
  memo := session.memo
  formats := session.formats

/-- A new session with the settings of another, over a new loopback around its device. -/
def renew (session : Session (Loopback δ)) : Session (Loopback δ) :=
  { link := { device := session.link.device }, config := session.config }

/-- A command that does not fit a frame is refused before anything is transferred. -/
theorem send_oversized (session : Session (Loopback δ)) {classNumber verbNumber : UInt32}
    {payload : Bytes} {options : CallOptions} (large : ¬ 8 + payload.length ≤ 4096) :
    session.send classNumber verbNumber payload options
      = (.error (.commandTooLong (8 + payload.length) 4096), session) :=
  transact_oversized session (Nat.lt_of_not_le large)

/-- Whatever has happened, once no failure is pending the next command comes to what it does in a
new session over a new loopback around the same device. A command that fits a frame is executed just
once; its response is what the device answers, cut to the limit, and its error number is the
device's, or that of a request out of order where a response is wanted and the device has no number.
A failed command leaves neither an error number nor a response behind. A command that does not fit a
frame is refused as too long, and the device is left as it was. -/
theorem send_recovers (board : Loopback (Logged δ)) (ahead : List (List (Operation × LinkError)))
    (config : SessionConfig) (uses : List (Use (Loopback (Logged δ))))
    (unfailing : (history board ahead config uses).link.board.failures = [])
    (classNumber verbNumber : UInt32) (payload : Bytes) (options : CallOptions) :
    ∃ session result after renewed,
      session = (history board ahead config uses).calm ∧
      session.send classNumber verbNumber payload options = (result, after) ∧
      session.renew.send classNumber verbNumber payload options = (result, renewed) ∧
      renewed.link.device = after.link.device ∧
      (payload.length ≤ 4088 →
        after.link.device.calls
            = session.link.device.calls ++ [⟨classNumber, verbNumber, payload⟩] ∧
          (∀ response, (CommandHandler.handle session.link.device.device classNumber verbNumber
              payload).1 = .ok response →
            result = .ok (response.take
              (min (options.maxResponseLength.getD config.maxResponseLength) 4096))) ∧
          (∀ errno, (CommandHandler.handle session.link.device.device classNumber verbNumber
              payload).1 = .error errno → errno ≠ 0 →
            result = .error (.commandFailed classNumber verbNumber
              (commandName classNumber verbNumber) errno .stalled)) ∧
          ((CommandHandler.handle session.link.device.device classNumber verbNumber
              payload).1 = .error 0 →
            options.maxResponseLength.getD config.maxResponseLength ≠ 0 →
            result = .error (.commandFailed classNumber verbNumber
              (commandName classNumber verbNumber) 22 .stalled))) ∧
      ((∃ class' verb' rpc code cause,
          result = .error (.commandFailed class' verb' rpc code cause)) →
        after.link.errno = 0 ∧ after.link.response = none) ∧
      (4088 < payload.length → result = .error (.commandTooLong (8 + payload.length) 4096) ∧
        after.link.device = session.link.device) := by
  -- Without a pending failure the history left a session that is ready.
  have tracked := history_tracked board ahead config uses
  have ready : (history board ahead config uses).calm.Ready := ⟨unfailing, tracked.stored⟩
  have anew : (history board ahead config uses).calm.renew.Ready := ⟨rfl, nofun⟩
  have settings : (history board ahead config uses).calm.config = config :=
    history_config board ahead config uses
  -- From here on nothing of the past matters but that the session is ready.
  generalize (history board ahead config uses).calm = session at ready anew settings ⊢
  subst settings
  by_cases fits : 8 + payload.length ≤ 4096
  · -- Both sessions are ready, and only the device decides what a command comes to.
    obtain ⟨result, after, issued, settled, _, device, clean⟩ := transact_ready ready classNumber
      verbNumber fits options (commandName classNumber verbNumber)
    obtain ⟨_, renewed, issuedAnew, settledAnew, _, deviceAnew, _⟩ := transact_ready anew
      classNumber verbNumber fits options (commandName classNumber verbNumber)
    obtain rfl := settledAnew.trans settled.symm
    refine ⟨session, _, after, renewed, rfl, issued, issuedAnew, deviceAnew.trans device.symm,
      fun _ => ⟨congrArg Logged.calls device, fun response succeeded => ?_,
        fun errno failed told => ?_, fun failed heard => ?_⟩, ?_, fun large => ?_⟩
    · -- The response is cut to the limit.
      have succeeded : CommandHandler.answer session.link.device
        ⟨classNumber, verbNumber, payload⟩ = .ok response := succeeded
      rw [settled, succeeded]
      rfl
    · -- A number other than zero is told as it is.
      have failed : CommandHandler.answer session.link.device
        ⟨classNumber, verbNumber, payload⟩ = .error errno := failed
      rw [settled, failed, settle_numbered told]
    · -- Without a number the request counts as one out of order, as a response is wanted.
      have failed : CommandHandler.answer session.link.device
        ⟨classNumber, verbNumber, payload⟩ = .error 0 := failed
      have limit : session.responseLimit options ≠ 0 := by
        simp only [responseLimit, maxCommandSize]
        omega
      rw [settled, failed, settle_heard limit]
      rfl
    · -- A command that failed was cancelled.
      rintro ⟨_, _, _, _, _, failed⟩
      exact clean _ failed
    · omega
  · -- Both sessions refuse the command alike, and neither transfers anything.
    refine ⟨session, _, session, session.renew, rfl, send_oversized _ fits,
      send_oversized _ fits, rfl, fun small => ?_, ?_, fun _ => ⟨rfl, rfl⟩⟩
    · omega
    · rintro ⟨_, _, _, _, _, failed⟩
      cases failed

/-- A response that was left behind by a broken read is not the one of the next command. -/
theorem send_recovers_broken : ∃ session after,
    session = history { device := (⟨Parrot.device, []⟩ : Logged Parrot) }
      [[], [(.read, .disconnected)]] {} [.request (.send 7 1 [1] {})] ∧
    session.link.board.failures = [] ∧ session.link.board.response = some [1] ∧
    session.calm.send 7 2 [2] {} = (.ok [2], after) ∧
    after.link.device.calls = [⟨7, 1, [1]⟩, ⟨7, 2, [2]⟩] := by
  obtain ⟨session, result, after, _, rfl, sent, _, _, executed, _⟩ :=
    send_recovers { device := (⟨Parrot.device, []⟩ : Logged Parrot) }
      [[], [(.read, .disconnected)]] {} [.request (.send 7 1 [1] {})] rfl 7 2 [2] {}
  -- The response that was left behind is not among what the second command is answered.
  obtain ⟨calls, answered, _⟩ := executed (by decide)
  exact ⟨_, after, rfl, rfl, rfl, (answered [2] rfl) ▸ sent, calls⟩

/-- A command whose payload is longer than a frame can hold is not executed at all, so not every
command is. -/
theorem oversized_not_executed : ¬ ∀ payload : Bytes,
    ((history { device := (⟨Parrot.device, []⟩ : Logged Parrot) } [] {} []).calm.send 7 1 payload
      {}).2.link.device.calls = [⟨7, 1, payload⟩] := by
  intro executed
  -- A header of eight bytes and 4089 more are one byte too many.
  have large : ¬ 8 + (List.replicate 4089 (0xab : UInt8)).length ≤ 4096 := by
    rw [List.length_replicate]
    decide
  have calls := executed (List.replicate 4089 0xab)
  rw [send_oversized _ large] at calls
  exact List.cons_ne_nil _ _ calls.symm

end Session

end BoardRpc
