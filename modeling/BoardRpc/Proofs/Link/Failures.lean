import BoardRpc.Proofs.Link.Machine

/-! Failures that are injected into a loopback: the one list of them is three queues, one for each
kind of transfer, beside a loopback that nothing disturbs. -/

namespace BoardRpc

/-- The kind of a transfer. -/
def Transfer.operation : Transfer → Operation
  | .write .. => .write
  | .read .. => .read
  | .cancel .. => .cancel

/-- What can happen to a link: a failure is bound for its next transfer of a kind, or a transfer is
made. -/
inductive Event
  | inject (operation : Operation) (error : LinkError)
  | perform (transfer : Transfer)
  deriving DecidableEq, Repr, Inhabited

/-- Links into which failures can be injected. -/
class Failing (σ : Type) where
  /-- Lets the next transfer of a kind fail, behind those already bound to. -/
  inject (link : σ) (operation : Operation) (error : LinkError) : σ
  /-- Makes a transfer. -/
  perform (link : σ) (transfer : Transfer) : Except LinkError Bytes × σ

/-- Lets events happen one after the other; the answers are those of the transfers. -/
def Event.run {σ : Type} [Failing σ] (link : σ) : List Event → List (Except LinkError Bytes) × σ
  | [] => ([], link)
  | .inject operation error :: others => run (Failing.inject link operation error) others
  | .perform transfer :: others =>
    let (answer, next) := Failing.perform link transfer
    let (answers, last) := run next others
    (answer :: answers, last)

/-- A view of a link that passes through both kinds of events passes through every run. -/
theorem Event.run_view {σ τ : Type} [Failing σ] [Failing τ] (view : σ → τ)
    (injects : ∀ link operation error,
      view (Failing.inject link operation error) = Failing.inject (view link) operation error)
    (performs : ∀ link transfer, Failing.perform (view link) transfer =
      (Failing.perform link transfer).map id view)
    (link : σ) (events : List Event) : run (view link) events = (run link events).map id view := by
  -- The induction is on the events, each of which leads to links that are in view again.
  induction events generalizing link with
  | nil => rfl
  | cons event others ih =>
    cases event with
    | inject operation error => rw [run, run, ← injects, ih]
    | perform transfer =>
      simp only [run, performs, Prod.map, ih]
      rfl

namespace Loopback

variable {δ : Type} {operation kind : Operation} {failures : List (Operation × LinkError)}

/-- The failures to come for one kind of transfer, the oldest first. -/
def pending (failures : List (Operation × LinkError)) (operation : Operation) : List LinkError :=
  failures.filterMap fun (kind, error) => if kind = operation then some error else none

/-- The failures to come for all other kinds, the oldest first. -/
def aside (failures : List (Operation × LinkError)) (operation : Operation) :
    List (Operation × LinkError) :=
  failures.filter fun (kind, _) => kind ≠ operation

section Queues

variable {error : LinkError} {rest : List (Operation × LinkError)}

/-- A failure of the kind is in front of those behind it. -/
@[simp] theorem pending_cons_self :
    pending ((operation, error) :: rest) operation = error :: pending rest operation := by
  simp [pending]

/-- A failure of another kind is passed over. -/
theorem pending_cons_of_ne (other : kind ≠ operation) :
    pending ((kind, error) :: rest) operation = pending rest operation := by
  simp [pending, other]

/-- A failure of the kind does not stand aside. -/
@[simp] theorem aside_cons_self :
    aside ((operation, error) :: rest) operation = aside rest operation := by
  simp [aside]

/-- A failure of another kind does. -/
theorem aside_cons_of_ne (other : kind ≠ operation) :
    aside ((kind, error) :: rest) operation = (kind, error) :: aside rest operation := by
  simp [aside, other]

/-- Failures of one kind stand aside from any other. -/
theorem pending_aside (other : kind ≠ operation) :
    pending (aside failures operation) kind = pending failures kind := by
  -- What is left out is of a kind that would not be found anyway.
  rw [aside, pending, pending, List.filterMap_filter]
  congr 1
  funext ⟨here, error⟩
  -- A failure of the kind is not of the other.
  by_cases same : here = kind
  · subst same
    simp [other]
  · simp [same]

/-- The failure that is taken is the oldest of its kind, and the others stay as they are. -/
theorem takeFailure_cases (operation : Operation) (failures : List (Operation × LinkError)) :
    (takeFailure operation failures = none ∧ pending failures operation = []) ∨
    ∃ error left, takeFailure operation failures = some (error, left) ∧
      pending failures operation = error :: pending left operation ∧
      aside left operation = aside failures operation := by
  -- The induction follows the search, which ends at the first failure of the kind.
  induction failures with
  | nil => exact .inl ⟨rfl, rfl⟩
  | cons failure rest ih =>
    obtain ⟨kind, error⟩ := failure
    by_cases same : kind = operation
    · subst same
      exact .inr ⟨error, rest, if_pos rfl, pending_cons_self, aside_cons_self.symm⟩
    · -- Any other is kept in front of whatever is left behind it.
      rw [takeFailure, if_neg same, pending_cons_of_ne same]
      rcases ih with ⟨none, empty⟩ | ⟨found, left, taken, oldest, others⟩
      · rw [none]
        exact .inl ⟨rfl, empty⟩
      · rw [taken]
        refine .inr ⟨found, (kind, error) :: left, rfl, ?_, ?_⟩
        · rw [pending_cons_of_ne same, oldest]
        · rw [aside_cons_of_ne same, aside_cons_of_ne same, others]

end Queues

/-- The loopback without its failures to come. -/
def calm (loopback : Loopback δ) : Loopback δ := { loopback with failures := [] }

/-- Where there are none, that is the loopback itself. -/
theorem calm_of_unfailing {loopback : Loopback δ} (unfailing : loopback.failures = []) :
    loopback.calm = loopback := by
  rw [calm, ← unfailing]

/-- Giving away a response has nothing to do with the failures to come. -/
theorem giveResponse_failures (loopback : Loopback δ) (failures : List (Operation × LinkError))
    (maxLength : Nat) :
    giveResponse { loopback with failures } maxLength =
      (loopback.giveResponse maxLength).map id ({ · with failures }) := by
  -- The error number and the response decide what is given.
  unfold giveResponse
  dsimp only
  split
  · rfl
  · split <;> rfl

variable [CommandHandler δ]

/-- Executing a frame has nothing to do with them. -/
theorem execute_failures (loopback : Loopback δ) (failures : List (Operation × LinkError))
    (frame : CommandFrame) :
    execute { loopback with failures } frame = { loopback.execute frame with failures } := by
  -- The handler sees its device and the frame only.
  unfold execute
  dsimp only
  split <;> rfl

/-- Nor has a write. -/
theorem performWrite_failures (loopback : Loopback δ) (failures : List (Operation × LinkError))
    (data : Bytes) (flags : CommandFlags) :
    performWrite { loopback with failures } data flags =
      (loopback.performWrite data flags).map id ({ · with failures }) := by
  -- What is too long or no frame is refused, whatever is to come.
  unfold performWrite
  dsimp only
  split
  · rfl
  · split
    · rfl
    · -- The frame is executed on loopbacks that differ in their failures only.
      rename_i frame _
      have executed := execute_failures
        { loopback with stats := { loopback.stats with writes := loopback.stats.writes + 1 } }
        failures frame
      dsimp only at executed
      rw [executed]
      split <;> rfl

/-- Nor has a read. -/
theorem performRead_failures (loopback : Loopback δ) (failures : List (Operation × LinkError))
    (maxLength : Nat) (flags : CommandFlags) :
    performRead { loopback with failures } maxLength flags =
      (loopback.performRead maxLength flags).map id ({ · with failures }) := by
  -- Both are counted alike, and only then executed or asked for what they hold.
  unfold performRead
  dsimp only
  split
  · split
    · rename_i frame _
      have executed := execute_failures
        { loopback with
          stats := { loopback.stats with
            reads := loopback.stats.reads + 1
            repeats := loopback.stats.repeats + 1 } } failures frame
      dsimp only at executed
      rw [executed]
      exact giveResponse_failures _ failures maxLength
    · rfl
  · exact giveResponse_failures
      { loopback with stats := { loopback.stats with reads := loopback.stats.reads + 1 } }
      failures maxLength

end Loopback

namespace Transfer

open Loopback

variable {δ : Type} [CommandHandler δ]

/-- Makes a transfer whatever failures are to come. -/
def bare (loopback : Loopback δ) : Transfer → Except LinkError Bytes × Loopback δ
  | .write frame flags _ => (loopback.performWrite frame flags).map (·.map fun _ => []) id
  | .read maxLength flags _ => loopback.performRead maxLength flags
  | .cancel _ => loopback.performCancel

/-- A transfer is made bare unless a failure is bound for its kind. -/
theorem perform_eq (loopback : Loopback δ) (transfer : Transfer) :
    transfer.perform loopback = loopback.unlessFailing transfer.operation (bare · transfer) := by
  -- Only a write is answered without bytes, and these are added behind the transfer.
  cases transfer with
  | write frame flags timeout =>
    -- A failure is told the same with bytes as without.
    show (loopback.unlessFailing .write (·.performWrite frame flags)).map _ id =
      loopback.unlessFailing .write fun board => (board.performWrite frame flags).map _ id
    unfold unlessFailing
    cases takeFailure .write loopback.failures <;> rfl
  | read => rfl
  | cancel => rfl

/-- A transfer that is made has nothing to do with the failures to come. -/
theorem bare_failures (loopback : Loopback δ) (failures : List (Operation × LinkError))
    (transfer : Transfer) : bare { loopback with failures } transfer =
      (bare loopback transfer).map id ({ · with failures }) := by
  -- A write is answered without bytes, which are added in both.
  cases transfer with
  | write frame flags timeout =>
    rw [bare, performWrite_failures]
    rfl
  | read maxLength flags timeout => exact performRead_failures loopback failures maxLength flags
  | cancel timeout => rfl

/-- It leaves them as they are. -/
theorem bare_keeps (loopback : Loopback δ) (transfer : Transfer) :
    (bare loopback transfer).2.failures = loopback.failures := by
  -- Putting the failures in place that are there already changes nothing.
  have same : bare loopback transfer =
      (bare loopback transfer).map id ({ · with failures := loopback.failures }) :=
    bare_failures loopback loopback.failures transfer
  rw [same]
  rfl

/-- On a loopback that no failure awaits every transfer is made. -/
theorem perform_unfailing {board : Loopback δ} (unfailing : board.failures = [])
    (transfer : Transfer) : transfer.perform board = bare board transfer := by
  rw [perform_eq, unlessFailing_none unfailing]

end Transfer

/-- A loopback that no failure awaits, and beside it a queue of failures for each kind of
transfer. -/
@[ext] structure Queued (δ : Type) where
  board : Loopback δ
  unfailing : board.failures = []
  queues : Operation → List LinkError

namespace Queued

variable {δ : Type}

/-- Puts a failure at the end of the queue for its kind. -/
def enqueue (link : Queued δ) (operation : Operation) (error : LinkError) : Queued δ :=
  { link with
    queues := Function.update link.queues operation (link.queues operation ++ [error]) }

variable [CommandHandler δ]

/-- Lets a transfer fail by the first failure in the queue for its kind, which leaves the queue;
the board makes it if there is none. -/
def perform (link : Queued δ) (transfer : Transfer) : Except LinkError Bytes × Queued δ :=
  match link.queues transfer.operation with
  | error :: later =>
    (.error error, { link with queues := Function.update link.queues transfer.operation later })
  | [] =>
    ((transfer.perform link.board).1,
      { link with
        board := (transfer.perform link.board).2
        unfailing := by
          rw [transfer.perform_unfailing link.unfailing, transfer.bare_keeps, link.unfailing] })

instance : Failing (Queued δ) where
  inject := enqueue
  perform := perform

end Queued

namespace Loopback

variable {δ : Type} {operation : Operation}

/-- The loopback as one without failures to come, and their queues. -/
def queued (loopback : Loopback δ) : Queued δ := ⟨loopback.calm, rfl, pending loopback.failures⟩

/-- A failure that is injected goes to the end of the queue for its kind. -/
theorem queued_inject (loopback : Loopback δ) (operation : Operation) (error : LinkError) :
    (loopback.inject operation error).queued = loopback.queued.enqueue operation error := by
  -- At the end of the one list it is at the end of its own queue, and in no other.
  have queues : pending (loopback.inject operation error).failures =
      Function.update (pending loopback.failures) operation
        (pending loopback.failures operation ++ [error]) := by
    funext kind
    -- Only the queue for its own kind becomes longer.
    by_cases same : kind = operation
    · subst same
      simp [inject, pending]
    · have other : ¬ operation = kind := fun back => same back.symm
      simp [inject, pending, same, other]
  exact Queued.ext rfl queues

/-- What a transfer of a kind does to the failures to come: it fails by the oldest of its kind and
takes this one only, leaving everything else as it was, or there is none and it takes none. -/
inductive Takes (before : Loopback δ) (operation : Operation) :
    Except LinkError Bytes × Loopback δ → Prop
  | oldest {error : LinkError} {later : List LinkError} {failures : List (Operation × LinkError)}
      (first : pending before.failures operation = error :: later)
      (taken : pending failures operation = later)
      (others : aside failures operation = aside before.failures operation) :
      Takes before operation (.error error, { before with failures })
  | none {answer : Except LinkError Bytes} {after : Loopback δ}
      (empty : pending before.failures operation = []) (kept : after.failures = before.failures) :
      Takes before operation (answer, after)

variable [CommandHandler δ]

instance : Failing (Loopback δ) where
  inject := inject
  perform loopback transfer := transfer.perform loopback

variable {loopback : Loopback δ} {transfer : Transfer}

/-- A transfer for which failures are to come fails by the oldest, and the others stay. -/
theorem perform_failing {error : LinkError} {later : List LinkError}
    (first : pending loopback.failures transfer.operation = error :: later) : ∃ failures,
    transfer.perform loopback = (.error error, { loopback with failures }) ∧
      pending failures transfer.operation = later ∧
      aside failures transfer.operation = aside loopback.failures transfer.operation := by
  -- The search finds the head of the queue, wherever it stands in the list.
  rw [Transfer.perform_eq, unlessFailing]
  rcases takeFailure_cases transfer.operation loopback.failures with
    ⟨_, empty⟩ | ⟨oldest, left, taken, queue, others⟩
  · cases empty.symm.trans first
  · cases queue.symm.trans first
    exact ⟨left, by rw [taken], rfl, others⟩

/-- A transfer for which none is to come is made as if there were none at all. -/
theorem perform_made (empty : pending loopback.failures transfer.operation = []) :
    transfer.perform loopback = (transfer.perform loopback.calm).map id
      ({ · with failures := loopback.failures }) := by
  -- The failures for other kinds are put aside for the transfer and are in place again behind it.
  have calmed : transfer.perform loopback.calm = transfer.bare loopback.calm :=
    Transfer.perform_unfailing rfl transfer
  rw [calmed, ← Transfer.bare_failures, Transfer.perform_eq, unlessFailing]
  -- There is no failure of the kind to be found.
  rcases takeFailure_cases transfer.operation loopback.failures with
    ⟨untaken, _⟩ | ⟨_, _, _, queue, _⟩
  · rw [untaken]
    rfl
  · cases empty.symm.trans queue

/-- A transfer takes the failure that its queue holds first, or is made on the board. -/
theorem queued_perform (loopback : Loopback δ) (transfer : Transfer) :
    loopback.queued.perform transfer = (transfer.perform loopback).map id queued := by
  -- What decides is whether there is a failure in the queue for the kind.
  cases queue : pending loopback.failures transfer.operation with
  | nil =>
    -- The board makes the transfer, and no queue changes.
    have empty : loopback.queued.queues transfer.operation = [] := queue
    have unfailing : (transfer.perform loopback.calm).2.failures = [] := by
      rw [Transfer.perform_unfailing rfl, Transfer.bare_keeps]
      rfl
    rw [perform_made queue, Queued.perform, empty]
    exact congrArg (Prod.mk _) (Queued.ext (calm_of_unfailing unfailing).symm rfl)
  | cons error later =>
    have found : loopback.queued.queues transfer.operation = error :: later := queue
    obtain ⟨failures, failed, taken, others⟩ := perform_failing queue
    -- The other queues are read off what stands aside, which is as it was.
    have queues : Function.update (pending loopback.failures) transfer.operation later =
        pending failures := by
      funext kind
      by_cases same : kind = transfer.operation
      · subst same
        rw [Function.update_self, taken]
      · rw [Function.update_of_ne same, ← pending_aside same, ← others, pending_aside same]
    rw [failed, Queued.perform, found]
    exact congrArg (Prod.mk _) (Queued.ext rfl queues)

/-- The failures injected into a loopback are three queues, each of its kind: over every run the
loopback answers and ends as one that no failure awaits does beside three queues. A transfer that
fails by one leaves everything but this failure, and one that finds none takes none. -/
theorem failures_are_queues (loopback : Loopback δ) :
    (∀ events, Event.run loopback.queued events = (Event.run loopback events).map id queued) ∧
    ∀ transfer : Transfer, Takes loopback transfer.operation (transfer.perform loopback) := by
  -- The queues are a view of the loopback, which passes through every event.
  refine ⟨Event.run_view queued queued_inject queued_perform loopback, fun transfer => ?_⟩
  -- The queue for the kind is empty, or its head is the failure.
  cases queue : pending loopback.failures transfer.operation with
  | nil =>
    have kept : (transfer.perform loopback).2.failures = loopback.failures := by
      rw [perform_made queue]
      rfl
    exact .none queue kept
  | cons error later =>
    obtain ⟨failures, failed, taken, others⟩ := perform_failing queue
    rw [failed]
    exact .oldest queue taken others

end Loopback

end BoardRpc
