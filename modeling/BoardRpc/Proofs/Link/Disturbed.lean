import BoardRpc.Proofs.Link.Execution

/-! Loopbacks that are disturbed: failures are injected at any moment, also in the middle of a
command. -/

namespace BoardRpc

/-- A loopback, the failures that are injected in front of each of the transfers to come, and what
it had stored whenever it was asked to repeat. A failure that is injected at any moment is in time
for the next transfer, and for none before it. -/
structure Disturbed (δ : Type) where
  board : Loopback δ
  ahead : List (List (Operation × LinkError)) := []
  found : List (Option CommandFrame) := []

namespace Disturbed

variable {δ : Type}

/-- Injects the failures that are due. -/
def advance (link : Disturbed δ) : Disturbed δ :=
  { link with
    board := (link.ahead.headD []).foldl (fun board failure => board.inject failure.1 failure.2)
      link.board
    ahead := link.ahead.tail }

/-- Notes what is stored. -/
def look (link : Disturbed δ) : Disturbed δ :=
  { link with found := link.found ++ [link.board.lastFrame] }

/-- Whatever is due is injected in front of each transfer. -/
instance [CommandHandler δ] : Transport (Disturbed δ) where
  write link frame flags timeout :=
    let due := link.advance
    let (result, board) := Transport.write due.board frame flags timeout
    (result, { due with board })
  read link maxLength flags timeout :=
    let due := link.advance
    let seen := if flags.repeatLast then due.look else due
    let (result, board) := Transport.read due.board maxLength flags timeout
    (result, { seen with board })
  cancel link timeout :=
    let due := link.advance
    let (result, board) := Transport.cancel due.board timeout
    (result, { due with board })

/-- Injecting failures leaves the board at rest. -/
theorem advance_rested (link : Disturbed δ) : Loopback.Rested link.board link.advance.board := by
  -- Each failure is put behind the others, and nothing else happens.
  have injected : ∀ (failures : List (Operation × LinkError)) (board : Loopback δ),
      Loopback.Rested board
        (failures.foldl (fun board failure => board.inject failure.1 failure.2) board) := by
    intro failures
    induction failures with
    | nil =>
      intro board
      exact ⟨rfl, rfl, rfl, rfl⟩
    | cons failure others ih =>
      intro board
      have first : Loopback.Rested board (board.inject failure.1 failure.2) := ⟨rfl, rfl, rfl, rfl⟩
      exact first.trans (ih _)
  exact injected _ _

variable [CommandHandler δ] (link : Disturbed δ)

/-- A write fails and leaves the board at rest, or the frame is executed and stored; then it is
taken, unless no response will be read and there is an error number to tell. -/
theorem write_cases {frame : CommandFrame} (fits : frame.size ≤ maxCommandSize)
    (flags : CommandFlags) (timeout : Nat) : ∃ result after,
    Transport.write link frame.encode flags timeout = (result, after) ∧
      after.found = link.found ∧
      ((∃ error, result = .error error) ∧ Loopback.Rested link.board after.board ∨
        Loopback.Executed frame link.board.device after.board ∧
          after.board.lastFrame = some frame ∧
          (result = .ok () → flags.skipResponse = true → after.board.errno = 0)) := by
  -- Either a failure was bound for the write, or the board performs it.
  have rested := link.advance_rested
  rcases link.advance.board.unlessFailing_cases .write (·.performWrite frame.encode flags) with
    -- The failure is used up, and the board stays as it was.
    ⟨error, failures, failed⟩ | performed
  · refine ⟨.error error, { link.advance with board := { link.advance.board with failures } }, ?_,
      rfl, .inl ⟨⟨error, rfl⟩, rested.trans ⟨rfl, rfl, rfl, rfl⟩⟩⟩
    simp only [Transport.write, failed]
  · obtain ⟨after, executed, stored, _, done⟩ :=
      link.advance.board.performWrite_executes fits flags
    rw [rested.device] at executed
    -- The frame is executed before anything is told of it.
    rcases done with ⟨taken, silent⟩ | ⟨stalled, _⟩
    · refine ⟨.ok (), { link.advance with board := after }, ?_, rfl,
        .inr ⟨executed, stored, fun _ => silent⟩⟩
      simp only [Transport.write, performed, taken]
    · refine ⟨.error .stalled, { link.advance with board := after }, ?_, rfl,
        .inr ⟨executed, stored, nofun⟩⟩
      simp only [Transport.write, performed, stalled]

/-- A plain read leaves the device alone; what is read is the answer that was held. -/
theorem read_cases (maxLength timeout : Nat) : ∃ result after,
    Transport.read link maxLength {} timeout = (result, after) ∧ after.found = link.found ∧
      after.board.device = link.board.device ∧ after.board.lastFrame = link.board.lastFrame ∧
      ∀ answer, link.board.Holds answer → ∀ response, result = .ok response →
        ∃ whole, answer = .ok whole ∧ response = whole.take maxLength := by
  -- Before the read only failures were injected.
  have rested := link.advance_rested
  rcases link.advance.board.unlessFailing_cases .read (·.performRead maxLength {}) with
    ⟨error, failures, failed⟩ | performed
  · -- The failure takes the place of the read.
    refine ⟨.error error, { link.advance with board := { link.advance.board with failures } }, ?_,
      rfl, rested.device, rested.lastFrame, nofun⟩
    simp only [Transport.read, failed]
    rfl
  · -- The board gives away what it held when the read began.
    obtain ⟨counted, restedOn, _, gives⟩ := link.advance.board.performRead_gives maxLength
    have rested := rested.trans restedOn
    refine ⟨_, { link.advance with board := (counted.giveResponse maxLength).2 }, ?_, rfl,
      (counted.giveResponse_device maxLength).trans rested.device,
      (counted.giveResponse_keeps maxLength).1.trans rested.lastFrame,
      fun answer holds response => Loopback.giveResponse_answers (holds.congr rested.errno
        rested.response)⟩
    simp only [Transport.read, performed, gives]
    rfl

/-- A repeat finds the frame that is stored. It fails and leaves the device alone, or executes the
frame; what is read is the answer. -/
theorem repeat_cases {frame : CommandFrame} (stored : link.board.lastFrame = some frame)
    (maxLength timeout : Nat) : ∃ result after,
    Transport.read link maxLength { repeatLast := true } timeout = (result, after) ∧
      after.found = link.found ++ [some frame] ∧ after.board.lastFrame = some frame ∧
      ((∃ error, result = .error error) ∧ after.board.device = link.board.device ∨
        after.board.device = CommandHandler.next link.board.device frame ∧
          ∀ response, result = .ok response → ∃ whole,
            CommandHandler.answer link.board.device frame = .ok whole ∧
              response = whole.take maxLength) := by
  -- What is noted is the frame that is stored, as injecting leaves it alone.
  have rested := link.advance_rested
  have kept : link.advance.board.lastFrame = some frame := rested.lastFrame.trans stored
  have seen : link.advance.look.found = link.found ++ [some frame] := by
    rw [look, kept]
    rfl
  rcases link.advance.board.unlessFailing_cases .read
      (·.performRead maxLength { repeatLast := true }) with ⟨error, failures, failed⟩ | performed
  · -- The failure takes the place of the repeat, which was noted already.
    refine ⟨.error error,
      { link.advance.look with board := { link.advance.board with failures } }, ?_, seen, kept,
      .inl ⟨⟨error, rfl⟩, rested.device⟩⟩
    simp only [Transport.read, failed, if_true]
  · -- The stored frame is executed, and its answer is what is given away.
    obtain ⟨executed, ran, storedOn, _, gives⟩ := Loopback.performRead_repeats kept maxLength
    rw [rested.device] at ran
    refine ⟨_, { link.advance.look with board := (executed.giveResponse maxLength).2 }, ?_, seen,
      (executed.giveResponse_keeps maxLength).1.trans storedOn,
      .inr ⟨(executed.giveResponse_device maxLength).trans ran.device,
        fun response => Loopback.giveResponse_answers ran.holds⟩⟩
    simp only [Transport.read, performed, gives, if_true]

/-- A cancel leaves the device alone. -/
theorem cancel_cases (timeout : Nat) : ∃ result after,
    Transport.cancel link timeout = (result, after) ∧ after.found = link.found ∧
      after.board.device = link.board.device := by
  -- Whether it fails or not, a cancel only concerns what the board keeps for the host.
  have rested := link.advance_rested
  rcases link.advance.board.unlessFailing_cases .cancel (·.performCancel) with
    ⟨error, failures, failed⟩ | performed
  · refine ⟨.error error, { link.advance with board := { link.advance.board with failures } }, ?_,
      rfl, rested.device⟩
    simp only [Transport.cancel, failed]
  · refine ⟨link.advance.board.performCancel.1,
      { link.advance with board := link.advance.board.performCancel.2 }, ?_, rfl, rested.device⟩
    simp only [Transport.cancel, performed]

end Disturbed

end BoardRpc
