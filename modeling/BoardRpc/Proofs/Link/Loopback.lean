import BoardRpc.Link.Loopback
import Mathlib

/-! Loopbacks that differ in their counts only, and what each transfer leaves as it was. -/

namespace BoardRpc

namespace Loopback

variable {δ : Type} {a b c : Loopback δ}

/-- Loopbacks that differ in their counts only. -/
def Same (a b : Loopback δ) : Prop := ∃ stats, b = { a with stats }

/-- Counting changes nothing else. -/
theorem same_counted (a : Loopback δ) (stats : LoopbackStats) : Same a { a with stats } :=
  -- These are the counts of the other one.
  ⟨stats, rfl⟩

/-- A loopback differs in nothing from itself. -/
theorem Same.refl (a : Loopback δ) : Same a a := ⟨a.stats, rfl⟩

/-- Differences in counts only add up to one. -/
theorem Same.trans (first : Same a b) (second : Same b c) : Same a c := by
  -- The last counts win.
  obtain ⟨_, rfl⟩ := first
  obtain ⟨stats, rfl⟩ := second
  exact ⟨stats, rfl⟩

/-- Storing a frame that is stored already changes nothing. -/
theorem Same.store (same : Same a b) {frame : CommandFrame} (stored : a.lastFrame = some frame) :
    Same a { b with lastFrame := some frame } := by
  obtain ⟨stats, rfl⟩ := same
  -- The frame replaces itself.
  rw [← stored]
  exact ⟨stats, rfl⟩

/-- Transfers with one result, and loopbacks behind them that differ in their counts only. -/
def Agree (x y : α × Loopback δ) : Prop := x.1 = y.1 ∧ Same x.2 y.2

/-- What is held is given away alike. -/
theorem Same.giveResponse (same : Same a b) (maxLength : Nat) :
    Agree (a.giveResponse maxLength) (b.giveResponse maxLength) := by
  obtain ⟨stats, rfl⟩ := same
  unfold Loopback.giveResponse
  dsimp only
  -- Only the error number and the response decide what happens.
  split
  · exact ⟨rfl, stats, rfl⟩
  · split <;> exact ⟨rfl, _, rfl⟩

/-- A cancel is answered alike. -/
theorem Same.performCancel (same : Same a b) : Agree a.performCancel b.performCancel := by
  obtain ⟨stats, rfl⟩ := same
  exact ⟨rfl, _, rfl⟩

/-- Giving away a response neither stores a frame nor takes a failure. -/
theorem giveResponse_keeps (a : Loopback δ) (maxLength : Nat) :
    (a.giveResponse maxLength).2.lastFrame = a.lastFrame ∧
      (a.giveResponse maxLength).2.failures = a.failures := by
  unfold Loopback.giveResponse
  -- At most the response and the error number change.
  split
  · exact ⟨rfl, rfl⟩
  · split <;> exact ⟨rfl, rfl⟩

/-- Without failures to come, a transfer is performed. -/
theorem unlessFailing_none (unfailing : a.failures = []) (operation : Operation)
    (perform : Loopback δ → Except LinkError α × Loopback δ) :
    a.unlessFailing operation perform = perform a := by
  -- No failure is found in an empty list.
  rw [unlessFailing, unfailing]
  rfl

variable [CommandHandler δ]

/-- A frame is executed alike, as no handler sees the counts. -/
theorem Same.execute (same : Same a b) (frame : CommandFrame) :
    Same (a.execute frame) (b.execute frame) := by
  obtain ⟨stats, rfl⟩ := same
  unfold Loopback.execute
  dsimp only
  split <;> exact ⟨_, rfl⟩

/-- A frame is taken alike. -/
theorem Same.performWrite (same : Same a b) (data : Bytes) (flags : CommandFlags) :
    Agree (a.performWrite data flags) (b.performWrite data flags) := by
  obtain ⟨stats, rfl⟩ := same
  unfold Loopback.performWrite
  dsimp only
  -- What is too long or no frame is refused by both.
  split
  · exact ⟨rfl, _, rfl⟩
  · split
    · exact ⟨rfl, _, rfl⟩
    · -- The frame is executed on devices that were counted differently.
      rename_i frame _
      obtain ⟨_, executed⟩ := Same.execute
        (same_counted { a with stats := { a.stats with writes := a.stats.writes + 1 } }
          { stats with writes := stats.writes + 1 }) frame
      rw [executed]
      split <;> exact ⟨rfl, _, rfl⟩

/-- A read is answered alike. -/
theorem Same.performRead (same : Same a b) (maxLength : Nat) (flags : CommandFlags) :
    Agree (a.performRead maxLength flags) (b.performRead maxLength flags) := by
  obtain ⟨stats, rfl⟩ := same
  unfold Loopback.performRead
  dsimp only
  -- A repeat executes the stored frame first, and both give what is held then.
  split
  · split
    · exact ((same_counted _ _).execute _).giveResponse maxLength
    · exact ⟨rfl, _, rfl⟩
  · exact (same_counted _ _).giveResponse maxLength

/-- Executing a frame neither stores it nor takes a failure. -/
theorem execute_keeps (a : Loopback δ) (frame : CommandFrame) :
    (a.execute frame).lastFrame = a.lastFrame ∧ (a.execute frame).failures = a.failures := by
  unfold Loopback.execute
  dsimp only
  split <;> exact ⟨rfl, rfl⟩

/-- A read leaves the stored frame and takes no failure. -/
theorem performRead_keeps (a : Loopback δ) (maxLength : Nat) (flags : CommandFlags) :
    (a.performRead maxLength flags).2.lastFrame = a.lastFrame ∧
      (a.performRead maxLength flags).2.failures = a.failures := by
  unfold Loopback.performRead
  dsimp only
  split
  · split
    · -- Neither the repeat nor the answer to it stores anything.
      rename_i frame _
      obtain ⟨stored, failures⟩ := execute_keeps { a with stats := _ } frame
      obtain ⟨storedAfter, failuresAfter⟩ :=
        giveResponse_keeps (execute { a with stats := _ } frame) maxLength
      exact ⟨storedAfter.trans stored, failuresAfter.trans failures⟩
    · exact ⟨rfl, rfl⟩
  · exact giveResponse_keeps _ maxLength

/-- A write takes no failure, and a frame that is taken is stored. -/
theorem performWrite_keeps (a : Loopback δ) (frame : CommandFrame)
    (flags : CommandFlags) : (a.performWrite frame.encode flags).2.failures = a.failures ∧
      ((a.performWrite frame.encode flags).1 = .ok () →
        (a.performWrite frame.encode flags).2.lastFrame = some frame) := by
  unfold Loopback.performWrite
  dsimp only
  split
  · exact ⟨rfl, nofun⟩
  · -- An encoded frame is read as itself, executed and then stored.
    rw [CommandFrame.decode?_encode]
    dsimp only
    obtain ⟨_, failures⟩ :=
      execute_keeps { a with stats := { a.stats with writes := a.stats.writes + 1 } } frame
    split
    · exact ⟨failures, nofun⟩
    · exact ⟨failures, fun _ => rfl⟩

/-- Executing the stored frame again by a read is as good as sending it again and reading. -/
theorem performRead_repeat {frame : CommandFrame} (same : Same a b)
    (stored : a.lastFrame = some frame) (fits : frame.size ≤ maxCommandSize) (maxLength : Nat) :
    ∃ executed, b.performWrite frame.encode {} = (.ok (), executed) ∧
      Agree (a.performRead maxLength { repeatLast := true })
        (executed.performRead maxLength {}) := by
  obtain ⟨stats, rfl⟩ := same
  obtain ⟨device, lastFrame, response, errno, failures, before⟩ := a
  obtain rfl : lastFrame = some frame := stored
  unfold Loopback.performWrite
  dsimp only
  rw [if_neg (by rw [CommandFrame.length_encode]; omega), CommandFrame.decode?_encode]
  refine ⟨_, rfl, ?_⟩
  simp only [Loopback.performRead, if_true, Bool.false_eq_true, if_false]
  refine Same.giveResponse ?_ maxLength
  -- Both execute the frame on equal devices, and it is stored already.
  exact (((same_counted _ _).execute frame).store (execute_keeps _ frame).1).trans
    (same_counted _ _)

end Loopback

/-- A device that answers every command with its payload. -/
inductive Parrot
  | device

instance : CommandHandler Parrot where
  handle parrot _ _ payload := (.ok payload, parrot)

end BoardRpc
