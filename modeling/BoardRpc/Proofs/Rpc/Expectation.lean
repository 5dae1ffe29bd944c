import BoardRpc.Proofs.Rpc.Recovery

/-! Whether a response is wanted decides what a command tells of its answer, but not whether it is
seen to fail, unless the device has no number for its error. -/

namespace BoardRpc

namespace Session

/-- Two results that tell alike whether a command failed: there is a response in both, or the same
error number in both. -/
inductive SeenAlike (frame : CommandFrame) (rpc : String) :
    Except RpcError Bytes → Except RpcError Bytes → Prop
  | succeeded (response other : Bytes) : SeenAlike frame rpc (.ok response) (.ok other)
  | failed (errno : UInt32) (cause : LinkError) : SeenAlike frame rpc
      (.error (.commandFailed frame.classNumber frame.verbNumber rpc errno cause))
      (.error (.commandFailed frame.classNumber frame.verbNumber rpc errno cause))

/-- Any two limits let an answer be seen alike, unless it is an error without a number. -/
theorem settle_alike {frame : CommandFrame} {rpc : String} {answer : Except UInt32 Bytes}
    (told : answer ≠ .error 0) (limit other : Nat) :
    SeenAlike frame rpc (settle frame rpc limit answer) (settle frame rpc other answer) := by
  cases answer with
  | ok response =>
    -- The limits cut the response, each in its own place.
    exact .succeeded (response.take limit) (response.take other)
  | error errno =>
    have number : errno ≠ 0 := by
      intro zero
      rw [zero] at told
      exact told rfl
    -- An error with a number is told whatever the limit is.
    rw [settle_numbered number, settle_numbered number]
    exact .failed errno .stalled

/-- A response is wanted where the limit in force is not zero. -/
theorem responseLimit_eq_zero_iff {σ : Type} (session : Session σ) (options : CallOptions) :
    session.responseLimit options = 0 ↔
      options.maxResponseLength.getD session.config.maxResponseLength = 0 := by
  -- What a frame can hold is no limit to whether anything is read.
  simp only [responseLimit, maxCommandSize]
  omega

variable {δ : Type} [CommandHandler δ]

/-- Whatever has happened, once no failure is pending a command does to the device the same whether
a response is wanted or not, and is seen to fail or to succeed alike, with one error number. Only an
error without a number is missed where no response is wanted; where one is, it is told as that of a
request out of order. What does not fit a frame is refused alike. -/
theorem send_seen_alike (board : Loopback (Logged δ))
    (ahead : List (List (Operation × LinkError))) (config : SessionConfig)
    (uses : List (Use (Loopback (Logged δ))))
    (unfailing : (history board ahead config uses).link.board.failures = [])
    (classNumber verbNumber : UInt32) (payload : Bytes) {silent heard : CallOptions}
    (unwanted : silent.maxResponseLength.getD config.maxResponseLength = 0)
    (wanted : heard.maxResponseLength.getD config.maxResponseLength ≠ 0) :
    ∃ session quiet loud afterQuiet afterLoud,
      session = (history board ahead config uses).calm ∧
      session.send classNumber verbNumber payload silent = (quiet, afterQuiet) ∧
      session.send classNumber verbNumber payload heard = (loud, afterLoud) ∧
      afterQuiet.link.device = afterLoud.link.device ∧
      (payload.length ≤ 4088 →
        (CommandHandler.handle session.link.device.device classNumber verbNumber payload).1
          ≠ .error 0 →
        SeenAlike ⟨classNumber, verbNumber, payload⟩ (commandName classNumber verbNumber)
          quiet loud) ∧
      (payload.length ≤ 4088 →
        (CommandHandler.handle session.link.device.device classNumber verbNumber payload).1
          = .error 0 →
        quiet = .ok [] ∧ loud = .error (.commandFailed classNumber verbNumber
          (commandName classNumber verbNumber) 22 .stalled)) ∧
      (4088 < payload.length →
        quiet = .error (.commandTooLong (8 + payload.length) 4096) ∧ loud = quiet) := by
  have tracked := history_tracked board ahead config uses
  have ready : (history board ahead config uses).calm.Ready := ⟨unfailing, tracked.stored⟩
  have settings : (history board ahead config uses).calm.config = config :=
    history_config board ahead config uses
  -- What the history was does not matter any more, only that it has left a session that is ready.
  generalize (history board ahead config uses).calm = session at ready settings ⊢
  subst settings
  have unread := (session.responseLimit_eq_zero_iff silent).mpr unwanted
  have read : session.responseLimit heard ≠ 0 := by
    intro zero
    exact wanted ((session.responseLimit_eq_zero_iff heard).mp zero)
  by_cases fits : 8 + payload.length ≤ 4096
  · -- From one session, both commands come to what the device answers.
    obtain ⟨quiet, afterQuiet, sentQuiet, settledQuiet, _, deviceQuiet, _⟩ := transact_ready ready
      classNumber verbNumber fits silent (commandName classNumber verbNumber)
    obtain ⟨loud, afterLoud, sentLoud, settledLoud, _, deviceLoud, _⟩ := transact_ready ready
      classNumber verbNumber fits heard (commandName classNumber verbNumber)
    refine ⟨session, quiet, loud, afterQuiet, afterLoud, rfl, sentQuiet, sentLoud,
      deviceQuiet.trans deviceLoud.symm, ?_, ?_, ?_⟩
    · intro _ told
      have told : CommandHandler.answer session.link.device ⟨classNumber, verbNumber, payload⟩
          ≠ .error 0 := told
      rw [settledQuiet, settledLoud]
      exact settle_alike told _ _
    · intro _ failed
      have failed : CommandHandler.answer session.link.device ⟨classNumber, verbNumber, payload⟩
          = .error 0 := failed
      -- The one finds nothing to tell, and the other finds nothing to read.
      rw [settledQuiet, settledLoud, failed, settle_heard read, unread]
      exact ⟨rfl, rfl⟩
    · intro large
      omega
  · -- Nothing is transferred either way.
    refine ⟨session, _, _, session, session, rfl, send_oversized session fits,
      send_oversized session fits, rfl, ?_, ?_, ?_⟩
    · intro small
      omega
    · intro small
      omega
    · intro _
      exact ⟨rfl, rfl⟩

/-- A device that fails every command with one error number. -/
structure Failing where
  errno : UInt32

instance : CommandHandler Failing where
  handle failing _ _ _ := (.error failing.errno, failing)

/-- After a broken read, a command that fails with a number is seen to fail either way. -/
theorem send_seen_alike_failing : ∃ session quiet loud,
    session = (history { device := (⟨⟨5⟩, []⟩ : Logged Failing) }
      [[], [(.read, .disconnected)]] {} [.request (.send 7 1 [1] {})]).calm ∧
    session.link.failures = [] ∧ session.link.errno = 5 ∧
    (session.send 7 1 [2] .noResponse).1 = quiet ∧ (session.send 7 1 [2] {}).1 = loud ∧
    SeenAlike ⟨7, 1, [2]⟩ (commandName 7 1) quiet loud := by
  obtain ⟨_, quiet, loud, _, _, rfl, sentQuiet, sentLoud, _, alike, _⟩ :=
    send_seen_alike { device := (⟨⟨5⟩, []⟩ : Logged Failing) } [[], [(.read, .disconnected)]] {}
      [.request (.send 7 1 [1] {})] rfl 7 1 [2] (show CallOptions.noResponse.maxResponseLength.getD
        maxCommandSize = 0 from rfl) (show ({} : CallOptions).maxResponseLength.getD maxCommandSize
        ≠ 0 by decide)
  -- The device has a number for its error.
  have told : (CommandHandler.handle (⟨5⟩ : Failing) 7 1 [2]).1 ≠ .error 0 := by
    intro same
    cases same
  exact ⟨_, quiet, loud, rfl, rfl, rfl, congrArg Prod.fst sentQuiet, congrArg Prod.fst sentLoud,
    alike (by decide) told⟩

/-- A failure without an error number is seen only where a response is wanted. -/
theorem send_not_seen_alike : ∃ session quiet loud,
    session = (history { device := (⟨⟨0⟩, []⟩ : Logged Failing) } [] {} []).calm ∧
    quiet = .ok [] ∧ loud = .error (.commandFailed 7 1 (commandName 7 1) 22 .stalled) ∧
    (session.send 7 1 [2] .noResponse).1 = quiet ∧ (session.send 7 1 [2] {}).1 = loud ∧
    ¬ SeenAlike ⟨7, 1, [2]⟩ (commandName 7 1) quiet loud := by
  refine ⟨_, _, _, rfl, rfl, rfl, rfl, rfl, ?_⟩
  -- A response and an error are never alike.
  intro alike
  cases alike

end Session

end BoardRpc
