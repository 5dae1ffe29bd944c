import BoardRpc.Proofs.Link.Execution

/-! Loopbacks as machines of three phases: idle, holding a response, or failed. Whatever is
transferred, a loopback answers as the machine does, so that it never keeps an error number and a
response at once. -/

namespace BoardRpc

namespace CommandFrame

/-- Two frames have the same bytes only if they are one. -/
theorem encode_injective {frame other : CommandFrame} (same : frame.encode = other.encode) :
    frame = other := by
  -- Each of them is what its bytes are read as.
  have read := decode?_encode frame
  rw [same, decode?_encode] at read
  exact (Option.some.inj read).symm

/-- An encoded frame is malformed only if it is too long, as it has its header. -/
theorem not_malformed {frame : CommandFrame} {data : Bytes} (encoded : data = frame.encode)
    (fits : data.length ≤ 4096) : ¬ (data.length < 8 ∨ 4096 < data.length) := by
  rw [encoded, length_encode] at fits ⊢
  simp only [size, headerSize] at fits ⊢
  omega

/-- Bytes that are enough for a header are those of a frame. -/
theorem exists_encode {data : Bytes} (enough : 8 ≤ data.length) :
    ∃ frame : CommandFrame, data = frame.encode := by
  -- Four bytes are a word and a word is four bytes, twice in front of the payload.
  have word : ∀ bytes : Bytes, bytes.length = 4 →
      Word.split 4 (UInt32.ofNat (Word.join bytes)).toNat = bytes := by
    intro bytes four
    have small := Word.join_lt bytes
    have whole := Word.split_join bytes
    rw [four] at small whole
    rw [UInt32.toNat_ofNat_of_lt' small, whole]
  refine ⟨⟨UInt32.ofNat (Word.join (data.take 4)),
    UInt32.ofNat (Word.join ((data.drop 4).take 4)), data.drop 8⟩, ?_⟩
  have first : (data.take 4).length = 4 := List.length_take_of_le (by omega)
  have second : ((data.drop 4).take 4).length = 4 :=
    List.length_take_of_le (by rw [List.length_drop]; omega)
  show data = _ ++ _ ++ _
  rw [word _ first, word _ second, List.append_assoc]
  have rest : data.drop 8 = (data.drop 4).drop 4 := by rw [List.drop_drop]
  rw [rest, List.take_append_drop, List.take_append_drop]

end CommandFrame

/-- What a board owes its host between two transfers: nothing, a response, or an error number. -/
inductive Phase
  | idle
  | held (response : Bytes)
  | failed (errno : UInt32) (told : errno ≠ 0)

namespace Phase

/-- The error number that is owed; there is none where it is zero. -/
def errno : Phase → UInt32
  | .failed errno _ => errno
  | _ => 0

/-- The response that is owed. -/
def response? : Phase → Option Bytes
  | .held response => some response
  | _ => none

/-- The phase of a request that is malformed or out of order. -/
def invalid : Phase := .failed 22 (by decide)

/-- The phase behind a command, given the answer of the device. An error without a number leaves
nothing to tell. -/
def after : Except UInt32 Bytes → Phase
  | .ok response => .held response
  | .error errno => if told : errno ≠ 0 then .failed errno told else .idle

/-- What a write is answered by, given the phase that it leads to. One that is taken gives no bytes;
it stalls if it is the last chance to tell that the command failed. -/
def receipt (phase : Phase) (flags : CommandFlags) : Except LinkError Bytes :=
  if flags.skipResponse = true ∧ phase.errno ≠ 0 then .error .stalled else .ok []

end Phase

/-- A board as a machine: its device, the frame that it can repeat, and its phase. -/
structure Machine (δ : Type) where
  device : δ
  stored : Option CommandFrame := none
  phase : Phase := .idle

namespace Machine

variable {δ : Type}

/-- The machine once a request was out of order; nothing but the phase has changed. -/
def refuse (machine : Machine δ) : Machine δ := { machine with phase := .invalid }

/-- What a read is answered by and leaves, as far as the phase decides it. -/
inductive Gives (maxLength : Nat) : Machine δ → Except LinkError Bytes → Machine δ → Prop
  | held (device : δ) (stored : Option CommandFrame) (response : Bytes) :
      Gives maxLength ⟨device, stored, .held response⟩ (.ok (response.take maxLength))
        ⟨device, stored, .idle⟩
  | failed (device : δ) (stored : Option CommandFrame) (errno : UInt32) (told : errno ≠ 0) :
      Gives maxLength ⟨device, stored, .failed errno told⟩ (.error .stalled)
        ⟨device, stored, .failed errno told⟩
  | idle (device : δ) (stored : Option CommandFrame) :
      Gives maxLength ⟨device, stored, .idle⟩ (.error .stalled) ⟨device, stored, .invalid⟩

/-- Only one answer can be given to a read. -/
theorem Gives.unique {machine next other : Machine δ} {maxLength : Nat}
    {answer reply : Except LinkError Bytes} (one : Gives maxLength machine answer next)
    (two : Gives maxLength machine reply other) : answer = reply ∧ next = other := by
  -- The phase alone decides which rule there is.
  cases one <;> cases two <;> exact ⟨rfl, rfl⟩

variable [CommandHandler δ]

/-- The machine once its device has executed a frame, which is stored. -/
def execute (machine : Machine δ) (frame : CommandFrame) : Machine δ where
  device := CommandHandler.next machine.device frame
  stored := some frame
  phase := .after (CommandHandler.answer machine.device frame)

/-- The rules of the machine: what a transfer is answered by and leaves. -/
inductive Step (machine : Machine δ) :
    Transfer → Except LinkError Bytes → Machine δ → Prop
  | malformed {data : Bytes} {flags : CommandFlags} {timeout : Nat}
      (size : data.length < 8 ∨ 4096 < data.length) :
      Step machine (.write data flags timeout) (.error .stalled) machine.refuse
  | written {data : Bytes} {frame : CommandFrame} {flags : CommandFlags} {timeout : Nat}
      (size : data.length ≤ 4096) (encoded : data = frame.encode) :
      Step machine (.write data flags timeout) ((machine.execute frame).phase.receipt flags)
        (machine.execute frame)
  | read {maxLength : Nat} {flags : CommandFlags} {timeout : Nat} {answer : Except LinkError Bytes}
      {next : Machine δ} (plain : flags.repeatLast = false)
      (gives : Gives maxLength machine answer next) :
      Step machine (.read maxLength flags timeout) answer next
  | repeated {frame : CommandFrame} {maxLength : Nat} {flags : CommandFlags} {timeout : Nat}
      {answer : Except LinkError Bytes} {next : Machine δ} (again : flags.repeatLast = true)
      (known : machine.stored = some frame)
      (gives : Gives maxLength (machine.execute frame) answer next) :
      Step machine (.read maxLength flags timeout) answer next
  | missing {maxLength : Nat} {flags : CommandFlags} {timeout : Nat}
      (again : flags.repeatLast = true) (unknown : machine.stored = none) :
      Step machine (.read maxLength flags timeout) (.error .stalled) machine.refuse
  | cancelled {timeout : Nat} :
      Step machine (.cancel timeout) (.ok (Word.split 4 machine.phase.errno.toNat))
        { machine with phase := .idle }

/-- Transfers one after the other, with their answers. -/
inductive Run : Machine δ → List Transfer → List (Except LinkError Bytes) → Machine δ → Prop
  | nil (machine : Machine δ) : Run machine [] [] machine
  | cons {machine next last : Machine δ} {transfer : Transfer} {others : List Transfer}
      {answer : Except LinkError Bytes} {answers : List (Except LinkError Bytes)}
      (first : Step machine transfer answer next) (rest : Run next others answers last) :
      Run machine (transfer :: others) (answer :: answers) last

/-- The rules leave no choice: a transfer has one answer, and leaves one machine. -/
theorem Step.unique {machine next other : Machine δ} {transfer : Transfer}
    {answer reply : Except LinkError Bytes} (one : Step machine transfer answer next)
    (two : Step machine transfer reply other) : answer = reply ∧ next = other := by
  -- Two rules for one kind of transfer differ in what they ask of its bytes, flags and phase.
  cases one with
  | malformed size =>
    cases two with
    | malformed => exact ⟨rfl, rfl⟩
    | written small encoded => exact absurd size (CommandFrame.not_malformed encoded small)
  | written small encoded =>
    cases two with
    | malformed size => exact absurd size (CommandFrame.not_malformed encoded small)
    | written _ other =>
      -- The bytes are those of one frame only.
      obtain rfl := CommandFrame.encode_injective (encoded.symm.trans other)
      exact ⟨rfl, rfl⟩
  -- A read is plain or a repeat, and a repeat finds a frame or none.
  | read plain gives =>
    cases two with
    | read _ others => exact gives.unique others
    | repeated again => cases plain.symm.trans again
    | missing again => cases plain.symm.trans again
  | repeated again known gives =>
    cases two with
    | read plain => cases plain.symm.trans again
    | repeated _ other others =>
      cases known.symm.trans other
      exact gives.unique others
    | missing _ unknown => cases known.symm.trans unknown
  | missing again unknown =>
    cases two with
    | read plain => cases plain.symm.trans again
    | repeated _ known => cases known.symm.trans unknown
    | missing => exact ⟨rfl, rfl⟩
  | cancelled =>
    cases two
    exact ⟨rfl, rfl⟩

/-- Nor do they over a whole run. -/
theorem Run.unique {machine last other : Machine δ} {transfers : List Transfer}
    {answers replies : List (Except LinkError Bytes)} (one : Run machine transfers answers last)
    (two : Run machine transfers replies other) : answers = replies ∧ last = other := by
  -- The induction is on the first run: its next machine is that of the other one.
  induction one generalizing replies other with
  | nil machine =>
    cases two
    exact ⟨rfl, rfl⟩
  | cons first rest ih =>
    cases two with
    | cons second others =>
      obtain ⟨rfl, rfl⟩ := first.unique second
      obtain ⟨rfl, rfl⟩ := ih others
      exact ⟨rfl, rfl⟩

end Machine

namespace Transfer

variable {σ : Type} [Transport σ]

/-- Makes a transfer over a link. A write that is taken gives no bytes. -/
def perform (link : σ) : Transfer → Except LinkError Bytes × σ
  | .write frame flags timeout =>
    (Transport.write link frame flags timeout).map (fun answer => answer.map fun _ => []) id
  | .read maxLength flags timeout => Transport.read link maxLength flags timeout
  | .cancel timeout => Transport.cancel link timeout

/-- Makes transfers one after the other. -/
def performAll (link : σ) : List Transfer → List (Except LinkError Bytes) × σ
  | [] => ([], link)
  | transfer :: others =>
    -- A transfer that failed does not keep the host from making the next one.
    let (answer, next) := transfer.perform link
    let (answers, last) := performAll next others
    (answer :: answers, last)

end Transfer

namespace Loopback

variable {δ : Type}

/-- A loopback that no failure awaits is in the state of a machine. -/
structure Plays (loopback : Loopback δ) (machine : Machine δ) : Prop where
  device : loopback.device = machine.device
  stored : loopback.lastFrame = machine.stored
  errno : loopback.errno = machine.phase.errno
  response : loopback.response = machine.phase.response?
  unfailing : loopback.failures = []

variable {loopback : Loopback δ} {machine : Machine δ}

/-- What answers a command is kept as the phase behind it says. -/
theorem Holds.phase {answer : Except UInt32 Bytes} (holds : loopback.Holds answer) :
    loopback.errno = (Phase.after answer).errno ∧
      loopback.response = (Phase.after answer).response? := by
  -- An error number of zero is no error number, in the phase as in the loopback.
  cases answer with
  | ok response => exact holds
  | error errno =>
    by_cases told : errno ≠ 0
    · rw [Phase.after, dif_pos told]
      exact holds
    · obtain rfl : errno = 0 := not_not.mp told
      exact holds

/-- No phase owes both an error number and a response. -/
theorem Plays.exclusive (plays : loopback.Plays machine) (told : loopback.errno ≠ 0) :
    loopback.response = none := by
  obtain ⟨device, stored, phase⟩ := machine
  rw [plays.errno] at told
  rw [plays.response]
  -- Only the phase of failure has a number, and it has no response.
  cases phase with
  | idle => exact absurd rfl told
  | held response => exact absurd rfl told
  | failed errno _ => rfl

/-- A request out of order is refused by both. -/
theorem Plays.refuse (plays : loopback.Plays machine) :
    (loopback.fail invalidRequest).Plays machine.refuse :=
  ⟨plays.device, plays.stored, rfl, rfl, plays.unfailing⟩

/-- Counting is not seen by the machine. -/
theorem Plays.counted (plays : loopback.Plays machine) (stats : LoopbackStats) :
    Plays { loopback with stats } machine :=
  ⟨plays.device, plays.stored, plays.errno, plays.response, plays.unfailing⟩

/-- Nor is anything seen of a loopback at rest. -/
theorem Plays.rested {after : Loopback δ} (plays : loopback.Plays machine)
    (rested : Rested loopback after) (failures : after.failures = loopback.failures) :
    after.Plays machine :=
  ⟨rested.device.trans plays.device, rested.lastFrame.trans plays.stored,
    rested.errno.trans plays.errno, rested.response.trans plays.response,
    failures.trans plays.unfailing⟩

/-- A read is answered by both alike. -/
theorem Plays.gives (plays : loopback.Plays machine) (maxLength : Nat) : ∃ next,
    Machine.Gives maxLength machine (loopback.giveResponse maxLength).1 next ∧
      (loopback.giveResponse maxLength).2.Plays next := by
  obtain ⟨device, stored, phase⟩ := machine
  obtain ⟨sameDevice, sameFrame, errno, response, unfailing⟩ := plays
  -- Without a response the read stalls, and with no error number either it is out of order.
  cases phase with
  | idle =>
    -- Nothing is held and no error number is kept: the read is out of order.
    have holds : loopback.Holds (.error 0) := ⟨errno, response⟩
    rw [giveResponse_error holds]
    exact ⟨_, .idle device stored, sameDevice, sameFrame, rfl, rfl, unfailing⟩
  | held whole =>
    have holds : loopback.Holds (.ok whole) := ⟨errno, response⟩
    rw [giveResponse_ok holds]
    exact ⟨_, .held device stored whole, sameDevice, sameFrame, errno, rfl, unfailing⟩
  | failed number told =>
    have holds : loopback.Holds (.error number) := ⟨errno, response⟩
    have kept : latched number = number := if_neg told
    rw [giveResponse_error holds, kept]
    exact ⟨_, .failed device stored number told, sameDevice, sameFrame, rfl, rfl, unfailing⟩

variable [CommandHandler δ]

/-- A frame that the device has executed and that is stored leaves the machine that executed it. -/
theorem Plays.executed (plays : loopback.Plays machine) {frame : CommandFrame}
    {after : Loopback δ} (executed : Executed frame loopback.device after)
    (stored : after.lastFrame = some frame) (failures : after.failures = loopback.failures) :
    after.Plays (machine.execute frame) := by
  obtain ⟨device, holds⟩ := executed
  rw [plays.device] at device holds
  -- The phase is told by the answer of the device, which both have asked.
  obtain ⟨errno, response⟩ := holds.phase
  exact ⟨device, stored, errno, response, failures.trans plays.unfailing⟩

/-- A write is answered as the rules of the machine say. -/
theorem Plays.write (plays : loopback.Plays machine) (data : Bytes) (flags : CommandFlags)
    (timeout : Nat) : ∃ answer after next, loopback.performWrite data flags = (answer, after) ∧
      machine.Step (.write data flags timeout) (answer.map fun _ => []) next ∧
      after.Plays next := by
  by_cases size : data.length < 8 ∨ 4096 < data.length
  · -- Bytes that are no frame are counted and refused.
    have refused := plays.counted { loopback.stats with writes := loopback.stats.writes + 1 }
    refine ⟨.error .stalled, _, machine.refuse, ?_, .malformed size, refused.refuse⟩
    unfold performWrite
    rcases size with short | long
    · have small : ¬ maxCommandSize < data.length := by
        rw [maxCommandSize]
        omega
      have none : CommandFrame.decode? data = none := if_pos short
      simp only [if_neg small, none]
    · exact if_pos long
  · -- All others are a frame, which is executed and stored.
    rw [not_or, Nat.not_lt, Nat.not_lt] at size
    obtain ⟨frame, rfl⟩ := CommandFrame.exists_encode size.1
    have fits : frame.size ≤ maxCommandSize := by
      rw [← CommandFrame.length_encode]
      exact size.2
    obtain ⟨after, executed, stored, failures, done⟩ := loopback.performWrite_executes fits flags
    have next := plays.executed executed stored failures
    have step : machine.Step (.write frame.encode flags timeout)
        ((machine.execute frame).phase.receipt flags) (machine.execute frame) :=
      .written size.2 rfl
    -- The receipt is told by the error number, which both keep.
    rw [Phase.receipt, ← next.errno] at step
    rcases done with ⟨taken, silent⟩ | ⟨stalled, told⟩
    · rw [if_neg fun both => both.2 (silent both.1)] at step
      exact ⟨.ok (), after, _, taken, step, next⟩
    · rw [if_pos told] at step
      exact ⟨.error .stalled, after, _, stalled, step, next⟩

/-- A read is answered as the rules of the machine say. -/
theorem Plays.read (plays : loopback.Plays machine) (maxLength : Nat) (flags : CommandFlags)
    (timeout : Nat) : ∃ answer after next, loopback.performRead maxLength flags = (answer, after) ∧
      machine.Step (.read maxLength flags timeout) answer next ∧ after.Plays next := by
  -- Of the flags, a read looks at one only.
  have flagged : loopback.performRead maxLength flags =
      loopback.performRead maxLength { repeatLast := flags.repeatLast } := rfl
  rw [flagged]
  cases plain : flags.repeatLast with
  | false =>
    -- The response is given from what is held already.
    obtain ⟨counted, rested, failures, given⟩ := loopback.performRead_gives maxLength
    obtain ⟨next, gives, after⟩ := (plays.rested rested failures).gives maxLength
    exact ⟨_, _, next, given, .read plain gives, after⟩
  | true =>
    cases known : machine.stored with
    | none =>
      -- Without a stored frame there is nothing to repeat.
      have missing : loopback.lastFrame = none := plays.stored.trans known
      let stats : LoopbackStats := { loopback.stats with
        reads := loopback.stats.reads + 1, repeats := loopback.stats.repeats + 1 }
      refine ⟨.error .stalled, _, machine.refuse, ?_, .missing plain known,
        (plays.counted stats).refuse⟩
      unfold performRead
      simp only [if_true, missing]
      rfl
    | some frame =>
      -- The stored frame is executed first, and stays what it is.
      have stored : loopback.lastFrame = some frame := plays.stored.trans known
      obtain ⟨executed, done, kept, failures, given⟩ := performRead_repeats stored maxLength
      obtain ⟨next, gives, after⟩ := (plays.executed done kept failures).gives maxLength
      exact ⟨_, _, next, given, .repeated plain known gives, after⟩

/-- A cancel is answered as the rules of the machine say. -/
theorem Plays.cancel (plays : loopback.Plays machine) (timeout : Nat) : ∃ answer after next,
    loopback.performCancel = (answer, after) ∧ machine.Step (.cancel timeout) answer next ∧
      after.Plays next := by
  -- The number is told, and forgotten with any response.
  have told : Word.split errnoSize loopback.errno.toNat =
      Word.split 4 machine.phase.errno.toNat := by
    rw [plays.errno]
    rfl
  have answered : loopback.performCancel.1 = .ok (Word.split 4 machine.phase.errno.toNat) :=
    congrArg Except.ok told
  exact ⟨_, loopback.performCancel.2, { machine with phase := .idle }, Prod.ext answered rfl,
    .cancelled, plays.device, plays.stored, rfl, rfl, plays.unfailing⟩

/-- A transfer takes the loopback one step of the machine on. -/
theorem Plays.step (plays : loopback.Plays machine) (transfer : Transfer) :
    ∃ answer after next, transfer.perform loopback = (answer, after) ∧
      machine.Step transfer answer next ∧ after.Plays next := by
  -- No failure awaits a transfer of any kind, so that each is performed.
  cases transfer with
  | write data flags timeout =>
    obtain ⟨answer, after, next, written, step, followed⟩ := plays.write data flags timeout
    have performed := unlessFailing_none plays.unfailing .write (·.performWrite data flags)
    refine ⟨_, after, next, ?_, step, followed⟩
    exact congrArg (Prod.map _ id) (performed.trans written)
  | read maxLength flags timeout =>
    obtain ⟨answer, after, next, given, step, followed⟩ := plays.read maxLength flags timeout
    have performed := unlessFailing_none plays.unfailing .read (·.performRead maxLength flags)
    exact ⟨answer, after, next, performed.trans given, step, followed⟩
  | cancel timeout =>
    obtain ⟨answer, after, next, fetched, step, followed⟩ := plays.cancel timeout
    have performed := unlessFailing_none plays.unfailing .cancel (·.performCancel)
    exact ⟨answer, after, next, performed.trans fetched, step, followed⟩

/-- Transfers take the loopback along a run of the machine. -/
theorem Plays.run (plays : loopback.Plays machine) (transfers : List Transfer) :
    ∃ answers after last, Transfer.performAll loopback transfers = (answers, after) ∧
      machine.Run transfers answers last ∧ after.Plays last := by
  -- The induction is on the transfers, and what one leaves is where the others start.
  induction transfers generalizing loopback machine with
  | nil => exact ⟨[], loopback, machine, rfl, .nil machine, plays⟩
  | cons transfer others ih =>
    obtain ⟨answer, between, next, performed, step, followed⟩ := plays.step transfer
    obtain ⟨answers, after, last, rest, run, reached⟩ := ih followed
    refine ⟨answer :: answers, after, last, ?_, .cons step run, reached⟩
    rw [Transfer.performAll, performed]
    show (answer :: (Transfer.performAll between others).1, (Transfer.performAll between others).2)
      = _
    rw [rest]

/-- A loopback refines the machine: the answers to any transfers are those of the run that the
rules of the machine allow, and it keeps of every phase what the phase owes. It never keeps an
error number and a response at once. -/
theorem performAll_refines (device : δ) (transfers : List Transfer) :
    ∃ answers loopback machine,
      Transfer.performAll ({ device } : Loopback δ) transfers = (answers, loopback) ∧
      Machine.Run { device } transfers answers machine ∧
      (∀ others other, Machine.Run { device } transfers others other →
        others = answers ∧ other = machine) ∧
      loopback.device = machine.device ∧ loopback.lastFrame = machine.stored ∧
      loopback.errno = machine.phase.errno ∧ loopback.response = machine.phase.response? ∧
      (loopback.errno ≠ 0 → loopback.response = none) := by
  -- A new loopback owes nothing and no failure awaits it, which each transfer keeps.
  have plays : Plays ({ device } : Loopback δ) { device } := ⟨rfl, rfl, rfl, rfl, rfl⟩
  obtain ⟨answers, after, last, performed, run, reached⟩ := plays.run transfers
  -- The rules leave no choice, so that there is no other run.
  have only : ∀ others other, Machine.Run { device } transfers others other →
      others = answers ∧ other = last := by
    intro others other another
    exact another.unique run
  exact ⟨answers, after, last, performed, run, only, reached.device, reached.stored,
    reached.errno, reached.response, reached.exclusive⟩

end Loopback

end BoardRpc
