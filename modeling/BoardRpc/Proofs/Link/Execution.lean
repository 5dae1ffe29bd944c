import BoardRpc.Proofs.Link.Loopback

/-! What one transfer does to a loopback: it executes a command, once, or none. -/

namespace BoardRpc

namespace CommandHandler

variable {δ : Type} [CommandHandler δ]

/-- What a device answers to a command. -/
def answer (device : δ) (frame : CommandFrame) : Except UInt32 Bytes :=
  (handle device frame.classNumber frame.verbNumber frame.payload).1

/-- What becomes of a device by executing a command. -/
def next (device : δ) (frame : CommandFrame) : δ :=
  (handle device frame.classNumber frame.verbNumber frame.payload).2

end CommandHandler

namespace Loopback

variable {δ : Type}

/-- The loopback keeps the answer to the last command, all of it. -/
def Holds (loopback : Loopback δ) : Except UInt32 Bytes → Prop
  | .ok response => loopback.errno = 0 ∧ loopback.response = some response
  | .error errno => loopback.errno = errno ∧ loopback.response = none

/-- The error number that is kept once a response was asked for: where there is none although the
device reports no error, the request is out of order. -/
def latched (errno : UInt32) : UInt32 := if errno = 0 then invalidRequest else errno

/-- A loopback at rest: neither its device nor what it keeps for the host has changed. -/
structure Rested (before after : Loopback δ) : Prop where
  device : after.device = before.device
  lastFrame : after.lastFrame = before.lastFrame
  errno : after.errno = before.errno
  response : after.response = before.response

/-- A device has executed a command, and the loopback holds its answer. -/
structure Executed [CommandHandler δ] (frame : CommandFrame) (before : δ) (after : Loopback δ) :
    Prop where
  device : after.device = CommandHandler.next before frame
  holds : after.Holds (CommandHandler.answer before frame)

variable {a b c : Loopback δ}

/-- Rest on rest is rest. -/
theorem Rested.trans (first : Rested a b) (second : Rested b c) : Rested a c :=
  ⟨second.device.trans first.device, second.lastFrame.trans first.lastFrame,
    second.errno.trans first.errno, second.response.trans first.response⟩

/-- What is held is told by the error number and the response. -/
theorem Holds.congr {answer : Except UInt32 Bytes} (holds : a.Holds answer)
    (errno : b.errno = a.errno) (response : b.response = a.response) : b.Holds answer := by
  -- Nothing else of a loopback is looked at.
  cases answer with
  | ok => exact ⟨errno.trans holds.1, response.trans holds.2⟩
  | error => exact ⟨errno.trans holds.1, response.trans holds.2⟩

/-- A loopback that keeps an error number holds no response. -/
theorem Holds.response_eq_none {answer : Except UInt32 Bytes} (holds : a.Holds answer)
    (told : a.errno ≠ 0) : a.response = none := by
  -- A command that succeeded left no error number.
  cases answer with
  | ok => exact absurd holds.1 told
  | error => exact holds.2

/-- A transfer fails by a failure that is bound for it, or is performed. -/
theorem unlessFailing_cases (loopback : Loopback δ) (operation : Operation)
    (perform : Loopback δ → Except LinkError α × Loopback δ) :
    (∃ error failures, loopback.unlessFailing operation perform
      = (.error error, { loopback with failures })) ∨
    loopback.unlessFailing operation perform = perform loopback := by
  -- The oldest failure of the kind decides.
  unfold unlessFailing
  cases takeFailure operation loopback.failures with
  | none => exact .inr rfl
  | some found => exact .inl ⟨found.1, found.2, rfl⟩

/-- A response that is held is given away, as much of it as is asked for. -/
theorem giveResponse_ok {response : Bytes} (holds : a.Holds (.ok response)) (maxLength : Nat) :
    a.giveResponse maxLength = (.ok (response.take maxLength), { a with response := none }) := by
  obtain ⟨none, held⟩ := holds
  -- Only an error number would keep the response back.
  rw [giveResponse, if_neg (by simp [none]), held]

/-- A command that failed has no response, and the error number stays for a cancel to fetch. -/
theorem giveResponse_error {errno : UInt32} (holds : a.Holds (.error errno)) (maxLength : Nat) :
    a.giveResponse maxLength
      = (.error .stalled, { a with errno := latched errno, response := none }) := by
  obtain ⟨kept, held⟩ := holds
  obtain ⟨device, lastFrame, response, number, failures, stats⟩ := a
  obtain rfl : number = errno := kept
  obtain rfl : response = none := held
  -- Without an error number, asking for a response is out of order.
  by_cases zero : number = 0
  · subst zero
    rfl
  · simp [giveResponse, latched, zero]

/-- Giving away a response does not touch the device. -/
theorem giveResponse_device (a : Loopback δ) (maxLength : Nat) :
    (a.giveResponse maxLength).2.device = a.device := by
  -- At most the response and the error number change.
  unfold giveResponse
  split
  · rfl
  · split <;> rfl

/-- What is given away is the answer that is held, cut to what is asked for. -/
theorem giveResponse_answers {answer : Except UInt32 Bytes} (holds : a.Holds answer)
    {maxLength : Nat} {response : Bytes} (given : (a.giveResponse maxLength).1 = .ok response) :
    ∃ whole, answer = .ok whole ∧ response = whole.take maxLength := by
  -- Where the command failed, nothing is given.
  cases answer with
  | ok whole =>
    rw [giveResponse_ok holds] at given
    cases given
    exact ⟨whole, rfl, rfl⟩
  | error errno =>
    rw [giveResponse_error holds] at given
    cases given

variable [CommandHandler δ]

/-- Executing a frame leaves the answer of the device. -/
theorem execute_executed (loopback : Loopback δ) (frame : CommandFrame) :
    Executed frame loopback.device (loopback.execute frame) := by
  -- A response and an error number are held each in its own way.
  have device : (loopback.execute frame).device = CommandHandler.next loopback.device frame := by
    unfold execute
    dsimp only
    split <;> rfl
  have holds : (loopback.execute frame).Holds (CommandHandler.answer loopback.device frame) := by
    unfold execute
    dsimp only
    split
    · rename_i response answered
      have answered : CommandHandler.answer loopback.device frame = .ok response := answered
      rw [answered]
      exact ⟨rfl, rfl⟩
    · -- A command that failed leaves its error number and no response.
      rename_i errno answered
      have answered : CommandHandler.answer loopback.device frame = .error errno := answered
      rw [answered]
      exact ⟨rfl, rfl⟩
  exact ⟨device, holds⟩

/-- A frame that fits is executed and stored. Where no response will be read, the write stalls if
there is an error number to tell. -/
theorem performWrite_executes (loopback : Loopback δ) {frame : CommandFrame}
    (fits : frame.size ≤ maxCommandSize) (flags : CommandFlags) : ∃ after,
    Executed frame loopback.device after ∧ after.lastFrame = some frame ∧
      after.failures = loopback.failures ∧
      (loopback.performWrite frame.encode flags = (.ok (), after) ∧
          (flags.skipResponse = true → after.errno = 0) ∨
        loopback.performWrite frame.encode flags = (.error .stalled, after) ∧
          flags.skipResponse = true ∧ after.errno ≠ 0) := by
  -- An encoded frame is read as itself.
  let counted : Loopback δ :=
    { loopback with stats := { loopback.stats with writes := loopback.stats.writes + 1 } }
  -- Counting comes first and is seen neither by the device nor by the answer.
  have done := execute_executed counted frame
  have kept := (execute_keeps counted frame).2
  have performed : loopback.performWrite frame.encode flags =
      let executed : Loopback δ := { counted.execute frame with lastFrame := some frame }
      if flags.skipResponse ∧ executed.errno ≠ 0 then
        (.error .stalled, { executed with response := none })
      else (.ok (), executed) := by
    have short : ¬ maxCommandSize < frame.encode.length := by
      rw [CommandFrame.length_encode]
      omega
    rw [performWrite, if_neg short, CommandFrame.decode?_encode]
  by_cases stalls : flags.skipResponse = true ∧ (counted.execute frame).errno ≠ 0
  · -- A device that tells an error number gave no response that could be dropped.
    have dropped := done.holds.response_eq_none stalls.2
    refine ⟨{ counted.execute frame with lastFrame := some frame, response := none },
      ⟨done.device, done.holds.congr rfl dropped.symm⟩, rfl, kept, .inr ⟨?_, stalls⟩⟩
    rw [performed]
    exact if_pos stalls
  · refine ⟨{ counted.execute frame with lastFrame := some frame },
      ⟨done.device, done.holds.congr rfl rfl⟩, rfl, kept, .inl ⟨?_, fun skips => ?_⟩⟩
    · rw [performed]
      exact if_neg stalls
    · -- With an error number the write would have stalled.
      by_contra told
      exact stalls ⟨skips, told⟩

/-- A repeat executes the stored frame and gives its response. -/
theorem performRead_repeats {loopback : Loopback δ} {frame : CommandFrame}
    (stored : loopback.lastFrame = some frame) (maxLength : Nat) : ∃ executed,
    Executed frame loopback.device executed ∧ executed.lastFrame = some frame ∧
      executed.failures = loopback.failures ∧
      loopback.performRead maxLength { repeatLast := true } = executed.giveResponse maxLength := by
  -- Counting the read and the repeat changes nothing that the device sees.
  obtain ⟨device, lastFrame, response, errno, failures, stats⟩ := loopback
  obtain rfl : lastFrame = some frame := stored
  let counted : Loopback δ :=
    { device, lastFrame := some frame, response, errno, failures,
      stats := { stats with reads := stats.reads + 1, repeats := stats.repeats + 1 } }
  obtain ⟨kept, failures⟩ := execute_keeps counted frame
  exact ⟨counted.execute frame, execute_executed counted frame, kept, failures, rfl⟩

/-- A plain read gives away what is held. -/
theorem performRead_gives (loopback : Loopback δ) (maxLength : Nat) : ∃ counted,
    Rested loopback counted ∧ counted.failures = loopback.failures ∧
      loopback.performRead maxLength {} = counted.giveResponse maxLength :=
  ⟨{ loopback with stats := { loopback.stats with reads := loopback.stats.reads + 1 } },
    ⟨rfl, rfl, rfl, rfl⟩, rfl, rfl⟩

end Loopback

end BoardRpc
