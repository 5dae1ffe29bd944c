import BoardRpc.Proofs.Link.Disturbed
import BoardRpc.Proofs.Rpc.Histories
import BoardRpc.Proofs.Rpc.Repeating

/-! Commands are kept apart: whatever fails in between, a command is executed at most once and a
response is the answer to the very command that it is the response of. -/

namespace BoardRpc

/-- What a caller does with a loopback, done to a disturbed one. -/
def Disturbed.use {δ : Type} : Use (Loopback δ) → Use (Disturbed δ)
  | .request request => .request request
  | .lend change => .lend fun link => { link with board := change link.board }

namespace Session

variable {δ : Type}

/-- A response of at most so many bytes is the answer to a command: what the device gave, cut to the
limit. Where no response is read, a device that fails without an error number is not told from one
that succeeds. -/
def Delivered (limit : Nat) (answer : Except UInt32 Bytes) (response : Bytes) : Prop :=
  (∃ whole, answer = .ok whole ∧ response = whole.take limit) ∨
    limit = 0 ∧ answer = .error 0 ∧ response = []

/-- A command was not executed and failed, or was executed once and any response is the answer. -/
inductive Once {ε : Type} [CommandHandler δ] (frame : CommandFrame) (limit : Nat)
    (before after : δ) (result : Except ε Bytes) : Prop
  | never (idle : after = before) (failed : ∃ error, result = .error error)
  | once (executed : after = CommandHandler.next before frame)
      (delivered : ∀ response, result = .ok response →
        Delivered limit (CommandHandler.answer before frame) response)

/-- What is remembered is stored by the board, and no repeat has missed a stored frame. -/
structure Tracked (session : Session (Disturbed δ)) : Prop where
  stored : ∀ frame, session.memo = some frame → session.link.board.lastFrame = some frame
  found : none ∉ session.link.found

/-- A call that failed may fail in another way. -/
theorem Once.failing {ε ε' : Type} [CommandHandler δ] {frame : CommandFrame} {limit : Nat}
    {before after : δ} {failure : ε}
    (once : Once frame limit before after (.error failure : Except ε Bytes)) (other : ε') :
    Once frame limit before after (.error other : Except ε' Bytes) := by
  -- A call that never ran stays so; one that ran has no answer to be delivered.
  cases once with
  | never idle _ => exact .never idle ⟨other, rfl⟩
  | once executed _ => exact .once executed nofun

variable [CommandHandler δ] {session : Session (Disturbed δ)}

/-- Sending a frame executes it at most once. The frame is stored before it is remembered. -/
theorem sendFrame_tracked (tracked : session.Tracked) {frame : CommandFrame}
    (fits : frame.size ≤ maxCommandSize) (options : CallOptions) : ∃ result after,
    session.sendFrame frame options = (result, after) ∧ after.Tracked ∧
      ((∃ error, result = .error error) ∧
          after.link.board.device = session.link.board.device ∨
        Loopback.Executed frame session.link.board.device after.link.board ∧
          (result = .ok () → session.responseLimit options = 0 → after.link.board.errno = 0)) := by
  -- The write is not performed, or it executes the frame; only then does the stored frame change.
  obtain ⟨result, link, written, found, cases⟩ := session.link.write_cases fits
    { skipResponse := session.responseLimit options == 0 }
    (options.timeout.getD session.config.timeout)
  have found : none ∉ link.found := found ▸ tracked.found
  cases result with
  | error error =>
    -- Nothing is remembered of a write that failed.
    refine ⟨.error error, { session with link, memo := none }, ?_, ⟨nofun, found⟩, ?_⟩
    · simp only [sendFrame, written]
    · rcases cases with ⟨_, rested⟩ | ⟨executed, _, _⟩
      · exact .inl ⟨⟨error, rfl⟩, rested.device⟩
      · exact .inr ⟨executed, fun taken => by cases taken⟩
  | ok taken =>
    -- A write that succeeded was performed, so the frame is stored.
    rcases cases with ⟨⟨_, failed⟩, _⟩ | ⟨executed, stored, silent⟩
    · cases failed
    refine ⟨.ok (), { session with
        link, memo := if session.config.repeatsCommands then some frame else none },
      ?_, ⟨fun other same => ?_, found⟩, .inr ⟨executed, fun _ none => ?_⟩⟩
    · simp only [sendFrame, written]
    · exact stored.trans (Option.ite_none_right_eq_some.mp same).2
    · -- A response that is not read leaves only the error number to tell of a failure.
      exact silent rfl (by simp [none])

/-- A plain read executes nothing. -/
theorem readResponse_tracked (tracked : session.Tracked) (options : CallOptions) :
    ∃ result after, session.readResponse false options = (result, after) ∧ after.Tracked ∧
      after.link.board.device = session.link.board.device ∧
      ∀ answer, session.link.board.Holds answer → ∀ response, result = .ok response →
        ∃ whole, answer = .ok whole ∧ response = whole.take (session.responseLimit options) := by
  -- The link alone changes, and it keeps the stored frame.
  obtain ⟨result, link, read, found, device, lastFrame, answers⟩ := session.link.read_cases
    (session.responseLimit options) (options.commsTimeout.getD session.config.commsTimeout)
  refine ⟨result, { session with link }, ?_,
    ⟨fun frame same => lastFrame.trans (tracked.stored frame same), found ▸ tracked.found⟩,
    device, answers⟩
  simp only [readResponse, read]

/-- A repeat executes the frame that is remembered, at most once. -/
theorem readResponse_repeats (tracked : session.Tracked) {frame : CommandFrame}
    (remembered : session.memo = some frame) (options : CallOptions) : ∃ result after,
    session.readResponse true options = (result, after) ∧ after.Tracked ∧
      Once frame (session.responseLimit options) session.link.board.device
        after.link.board.device result := by
  -- What is remembered is stored, so the repeat finds it.
  have stored := tracked.stored frame remembered
  obtain ⟨result, link, read, found, storedOn, cases⟩ := session.link.repeat_cases stored
    (session.responseLimit options) (options.commsTimeout.getD session.config.commsTimeout)
  refine ⟨result, { session with link }, ?_, ⟨fun other same => ?_, ?_⟩, ?_⟩
  · simp only [readResponse, read]
  · have same : session.memo = some other := same
    rw [remembered] at same
    exact storedOn.trans same
  · rw [found]
    simp [tracked.found]
  · -- The repeat is not performed, or it runs the stored frame, which is the one remembered.
    rcases cases with ⟨failed, idle⟩ | ⟨executed, answers⟩
    · exact .never idle failed
    · exact .once executed fun response answered => .inl (answers response answered)

/-- The transfers of a command execute it at most once. -/
theorem exchange_tracked (tracked : session.Tracked) {frame : CommandFrame}
    (fits : frame.size ≤ maxCommandSize) (options : CallOptions) : ∃ result after,
    session.exchange frame options = (result, after) ∧ after.Tracked ∧
      Once frame (session.responseLimit options) session.link.board.device
        after.link.board.device result := by
  by_cases again : session.canRepeat frame options = true
  · -- The memo holds the frame, so that a read is the only transfer.
    have remembered : session.memo = some frame := by
      simp only [canRepeat, Bool.and_eq_true, beq_iff_eq] at again
      exact again.2
    obtain ⟨result, after, read, kept, once⟩ := readResponse_repeats tracked remembered options
    refine ⟨result, after, ?_, kept, once⟩
    rw [exchange, if_pos again, read]
  · obtain ⟨sent, between, written, kept, cases⟩ := sendFrame_tracked tracked fits options
    have settings := sendFrame_settings session frame options
    rw [written] at settings
    have limit := settings.responseLimit options
    rw [exchange, if_neg again, written]
    cases sent with
    | error error =>
      refine ⟨.error error, between, rfl, kept, ?_⟩
      rcases cases with ⟨_, idle⟩ | ⟨executed, _⟩
      · exact .never idle ⟨error, rfl⟩
      · exact .once executed.device fun _ taken => by cases taken
    | ok =>
      -- A frame that was taken has been executed, and a read cannot execute anything else.
      rcases cases with ⟨⟨_, failed⟩, _⟩ | ⟨executed, silent⟩
      · cases failed
      dsimp only
      rw [limit]
      -- A response that is not read is taken as empty: the handler succeeded, or failed without a
      -- number.
      by_cases unheard : session.responseLimit options = 0
      · rw [if_pos unheard]
        refine ⟨.ok [], between, rfl, kept, .once executed.device fun response same => ?_⟩
        cases same
        have none := silent rfl unheard
        have holds := executed.holds
        revert holds
        rw [unheard]
        cases CommandHandler.answer session.link.board.device frame with
        | ok whole => exact fun _ => .inl ⟨whole, rfl, rfl⟩
        | error errno =>
          intro holds
          have zero : errno = 0 := holds.1.symm.trans none
          exact .inr ⟨rfl, by rw [zero], rfl⟩
      · -- Otherwise the answer is read, and reading it runs nothing.
        rw [if_neg unheard]
        obtain ⟨result, after, read, keptOn, device, answers⟩ :=
          readResponse_tracked kept options
        rw [limit] at answers
        refine ⟨result, after, read, keptOn, .once (device.trans executed.device) ?_⟩
        exact fun response answered => .inl (answers _ executed.holds response answered)

/-- Cancels execute nothing, and forget the command. -/
theorem cancel_tracked (tracked : session.Tracked) : ∃ result after,
    session.cancel = (result, after) ∧ after.Tracked ∧
      after.link.board.device = session.link.board.device := by
  obtain ⟨first, link, cancelled, found, device⟩ :=
    session.link.cancel_cases session.config.cancelTimeout
  have found : none ∉ link.found := found ▸ tracked.found
  cases first with
  | ok response =>
    refine ⟨.ok response, { session with link, memo := none }, ?_, ⟨nofun, found⟩, device⟩
    simp only [cancel, cancelled]
  | error error =>
    cases delay : session.config.cancelRetryDelay with
    | none =>
      refine ⟨.error error, { session with link, memo := none }, ?_, ⟨nofun, found⟩, device⟩
      simp only [cancel, cancelled, delay]
    | some pause =>
      -- The second cancel is like the first.
      obtain ⟨second, last, cancelledOn, foundOn, deviceOn⟩ :=
        link.cancel_cases session.config.cancelTimeout
      refine ⟨second, { session with link := last, memo := none }, ?_, ⟨nofun, foundOn ▸ found⟩,
        deviceOn.trans device⟩
      simp only [cancel, cancelled, delay, cancelledOn]

/-- Aborting executes nothing. -/
theorem abort_tracked (tracked : session.Tracked) : ∃ result after,
    session.abort = (result, after) ∧ after.Tracked ∧
      after.link.board.device = session.link.board.device := by
  -- Reading the answer to the cancel changes nothing.
  obtain ⟨answer, after, cancelled, kept, device⟩ := cancel_tracked tracked
  rw [abort, cancelled]
  cases answer with
  | error error => exact ⟨_, after, rfl, kept, device⟩
  | ok response =>
    dsimp only
    -- The response to the cancel is an error number or malformed; in either case nothing else
    -- happens.
    split <;> exact ⟨_, after, rfl, kept, device⟩

/-- Issuing a command executes it at most once, and nothing else. -/
theorem transact_tracked (tracked : session.Tracked) (classNumber verbNumber : UInt32)
    (payload : Bytes) (options : CallOptions) (rpc : String) : ∃ result after,
    session.transact classNumber verbNumber payload options rpc = (result, after) ∧
      after.Tracked ∧
      Once ⟨classNumber, verbNumber, payload⟩ (session.responseLimit options)
        session.link.board.device after.link.board.device result := by
  unfold transact
  dsimp only
  -- A command that is too long is refused before anything is transferred.
  split
  · exact ⟨_, session, rfl, tracked, .never rfl ⟨_, rfl⟩⟩
  · rename_i fits
    obtain ⟨result, between, exchanged, kept, once⟩ :=
      exchange_tracked tracked (Nat.le_of_not_lt fits) options
    rw [exchanged]
    cases result with
    | ok response =>
      refine ⟨_, between, rfl, kept, ?_⟩
      cases once with
      | never _ failed =>
        obtain ⟨_, failed⟩ := failed
        cases failed
      | once executed delivered =>
        exact .once executed fun other same => delivered other (by cases same; rfl)
    | error cause =>
      dsimp only
      split
      · -- The cancel behind a failure neither executes anything nor gives a response.
        obtain ⟨answer, after, aborted, keptOn, device⟩ := abort_tracked kept
        rw [aborted]
        rw [← device] at once
        cases answer with
        | error error => exact ⟨_, after, rfl, keptOn, once.failing _⟩
        | ok code => exact ⟨_, after, rfl, keptOn, once.failing _⟩
      · -- A failure that is not signaled ends with a reset: nothing is remembered, and nothing
        -- runs.
        exact ⟨_, between.reset, rfl, ⟨nofun, kept.found⟩, once.failing _⟩

/-- Whatever is asked of a session, what it remembers is stored. -/
theorem preserved_tracked : Preserved (σ := Disturbed δ) Tracked where
  -- Commands and aborts are told by their lemmas, of which only the session is of interest.
  transact tracked classNumber verbNumber payload options rpc := by
    obtain ⟨_, _, issued, kept, _⟩ :=
      transact_tracked tracked classNumber verbNumber payload options rpc
    rw [issued]
    exact kept
  abort tracked := by
    obtain ⟨_, _, aborted, kept, _⟩ := abort_tracked tracked
    rw [aborted]
    exact kept
  -- What is forgotten need not be stored.
  reset tracked := ⟨nofun, tracked.found⟩
  formats tracked _ := ⟨tracked.stored, tracked.found⟩

/-- A session that began over a loopback and has come through all that a caller did with it, who
could change the loopback but not what was noted of it. -/
def history (board : Loopback δ) (ahead : List (List (Operation × LinkError)))
    (config : SessionConfig) (uses : List (Use (Loopback δ))) : Session (Disturbed δ) :=
  past { board, ahead } config (uses.map Disturbed.use)

/-- Whatever has happened, what a session remembers is stored. -/
theorem history_tracked (board : Loopback δ) (ahead : List (List (Operation × LinkError)))
    (config : SessionConfig) (uses : List (Use (Loopback δ))) :
    (history board ahead config uses).Tracked := by
  -- The induction over the uses is `past_kept`; what is left is the change made to a lent loopback.
  refine past_kept preserved_tracked ⟨nofun, List.not_mem_nil⟩ fun change lent session tracked => ?_
  obtain ⟨use, _, same⟩ := List.mem_map.mp lent
  cases use with
  | request request => cases same
  | lend =>
    -- A caller who borrows the loopback may leave anything in it, but the memo is gone.
    cases same
    exact ⟨nofun, tracked.found⟩

/-- Whatever has happened, the settings are those that a session began with. -/
@[simp] theorem history_config (board : Loopback δ) (ahead : List (List (Operation × LinkError)))
    (config : SessionConfig) (uses : List (Use (Loopback δ))) :
    (history board ahead config uses).config = config :=
  past_config _ _ _

/-- In every run, whatever fails at whatever moment, a command that is sent is executed at most
once, and no other is. If it has a response, it was executed during that call, and the response is
what the device answered, cut to the limit; only a command whose response is not read may also have
failed without an error number. A repeat always finds a stored frame. -/
theorem send_executes_once (board : Loopback (Logged δ))
    (ahead : List (List (Operation × LinkError))) (config : SessionConfig)
    (uses : List (Use (Loopback (Logged δ)))) (classNumber verbNumber : UInt32) (payload : Bytes)
    (options : CallOptions) : ∃ session result after,
    session = history board ahead config uses ∧
      session.send classNumber verbNumber payload options = (result, after) ∧
      (after.link.board.device.calls = session.link.board.device.calls ∨
        after.link.board.device.calls
          = session.link.board.device.calls ++ [⟨classNumber, verbNumber, payload⟩]) ∧
      (∀ response, result = .ok response →
        after.link.board.device.calls
            = session.link.board.device.calls ++ [⟨classNumber, verbNumber, payload⟩] ∧
          ((∃ whole, (CommandHandler.handle session.link.board.device.device classNumber verbNumber
                payload).1 = .ok whole ∧
              response = whole.take
                (min (options.maxResponseLength.getD config.maxResponseLength) 4096)) ∨
            options.maxResponseLength.getD config.maxResponseLength = 0 ∧
              (CommandHandler.handle session.link.board.device.device classNumber verbNumber
                payload).1 = .error 0 ∧ response = [])) ∧
      none ∉ after.link.found := by
  have tracked := history_tracked board ahead config uses
  obtain ⟨result, after, issued, kept, once⟩ := transact_tracked tracked classNumber verbNumber
    payload options (commandName classNumber verbNumber)
  rw [responseLimit, history_config] at once
  refine ⟨_, result, after, rfl, issued, ?_, fun response answered => ?_, kept.found⟩
  · -- A device that notes its commands notes this one when it executes it.
    cases once with
    | never idle _ => exact .inl (congrArg Logged.calls idle)
    | once executed _ => exact .inr (congrArg Logged.calls executed)
  · -- A response is delivered only by a command that was executed.
    cases once with
    | never _ failed =>
      obtain ⟨_, failed⟩ := failed
      cases answered.symm.trans failed
    | once executed delivered =>
      refine ⟨congrArg Logged.calls executed, ?_⟩
      rcases delivered response answered with whole | ⟨unheard, failed, empty⟩
      · exact .inl whole
      · refine .inr ⟨?_, failed, empty⟩
        -- The limit is zero only if no response is asked for.
        have limit : min (options.maxResponseLength.getD _) maxCommandSize = 0 := unheard
        simp only [maxCommandSize] at limit
        omega

/-- A device that fails every command and never has a number for the error. -/
inductive Mute
  | device

instance : CommandHandler Mute where
  handle mute _ _ _ := (.error 0, mute)

/-- A command that fails without an error number passes for one that succeeded, where no response is
read. -/
theorem unheard_failure_passes :
    ((history { device := (⟨Mute.device, []⟩ : Logged Mute) } [] {} []).send 7 1 [2]
        .noResponse).1 = .ok [] ∧
      (CommandHandler.handle Mute.device 7 1 [2]).1 = .error 0 :=
  ⟨rfl, rfl⟩

end Session

end BoardRpc
