import BoardRpc.Link.Transport

/-! A device within the program: it answers commands as firmware does, through a handler. -/

namespace BoardRpc

/-- The verbs of a device, as a machine whose state is a value of a type. -/
class CommandHandler (δ : Type) where
  /-- Executes a command: a response, or the number of the error that the device reports. -/
  handle (device : δ) (classNumber verbNumber : UInt32) (payload : Bytes) :
    Except UInt32 Bytes × δ

/-- A kind of transfer. -/
inductive Operation
  | write
  | read
  | cancel
  deriving DecidableEq, Repr, Inhabited

/-- Counts of what a loopback did. -/
structure LoopbackStats where
  writes : Nat := 0
  reads : Nat := 0
  /-- Reads that executed the last frame again. -/
  repeats : Nat := 0
  cancels : Nat := 0
  /-- Commands that the handler executed. -/
  executions : Nat := 0
  deriving DecidableEq, Repr, Inhabited

/-- A device within the program. A frame is executed when it is written and its response held;
an error number is kept until a cancel fetches it, and lets every read fail until then. -/
structure Loopback (δ : Type) where
  device : δ
  lastFrame : Option CommandFrame := none
  response : Option Bytes := none
  errno : UInt32 := 0
  /-- Failures yet to come, each for the next transfer of its kind. -/
  failures : List (Operation × LinkError) := []
  stats : LoopbackStats := {}

namespace Loopback

/-- The error number of a request that is malformed or out of order. -/
def invalidRequest : UInt32 := 22

/-- Lets the next transfer of a kind fail, behind those already bound to. -/
def inject (loopback : Loopback δ) (operation : Operation) (error : LinkError) : Loopback δ :=
  { loopback with failures := loopback.failures ++ [(operation, error)] }

/-- Forgets all counts. -/
def resetStats (loopback : Loopback δ) : Loopback δ := { loopback with stats := {} }

/-- The oldest failure bound for a kind of transfer, and those that remain. -/
def takeFailure (operation : Operation) :
    List (Operation × LinkError) → Option (LinkError × List (Operation × LinkError))
  | [] => none
  | (kind, error) :: rest =>
    -- Failures of other kinds keep their order.
    if kind = operation then some (error, rest)
    else (takeFailure operation rest).map fun (found, others) => (found, (kind, error) :: others)

/-- Keeps an error number and drops any response. -/
def fail (loopback : Loopback δ) (errno : UInt32) : Loopback δ :=
  { loopback with errno, response := none }

/-- Lets the handler execute a frame. -/
def execute [CommandHandler δ] (loopback : Loopback δ) (frame : CommandFrame) : Loopback δ :=
  let (result, device) :=
    CommandHandler.handle loopback.device frame.classNumber frame.verbNumber frame.payload
  let executed :=
    { loopback with
      device
      stats := { loopback.stats with executions := loopback.stats.executions + 1 } }
  -- Either way nothing is left of the command before.
  match result with
  | .ok response => { executed with errno := 0, response := some response }
  | .error errno => { executed with errno, response := none }

/-- Takes a frame, unless it is malformed, and executes it. -/
def performWrite [CommandHandler δ] (loopback : Loopback δ) (data : Bytes)
    (flags : CommandFlags) : Except LinkError Unit × Loopback δ :=
  let counted :=
    { loopback with stats := { loopback.stats with writes := loopback.stats.writes + 1 } }
  -- A frame that is refused is kept nowhere, and the one before it stays stored.
  if maxCommandSize < data.length then (.error .stalled, counted.fail invalidRequest)
  else match CommandFrame.decode? data with
    | none => (.error .stalled, counted.fail invalidRequest)
    | some frame =>
      let executed : Loopback δ := { counted.execute frame with lastFrame := some frame }
      -- Where no read will follow, the write itself tells that the command failed.
      if flags.skipResponse ∧ executed.errno ≠ 0 then
        (.error .stalled, { executed with response := none })
      else (.ok (), executed)

/-- Gives away the response held, if there is one and no error number is kept. -/
def giveResponse (loopback : Loopback δ) (maxLength : Nat) :
    Except LinkError Bytes × Loopback δ :=
  if loopback.errno ≠ 0 then (.error .stalled, loopback)
  else match loopback.response with
    -- What is longer than asked for is cut off and lost.
    | some response => (.ok (response.take maxLength), { loopback with response := none })
    -- A response is given once; to ask for another is out of order.
    | none => (.error .stalled, loopback.fail invalidRequest)

/-- Answers a read, after executing the last frame again where that is asked for. -/
def performRead [CommandHandler δ] (loopback : Loopback δ) (maxLength : Nat)
    (flags : CommandFlags) : Except LinkError Bytes × Loopback δ :=
  let counted :=
    { loopback with stats := { loopback.stats with reads := loopback.stats.reads + 1 } }
  if flags.repeatLast then
    let repeated :=
      { counted with stats := { counted.stats with repeats := counted.stats.repeats + 1 } }
    -- The stored frame is executed as if it had been written again.
    match repeated.lastFrame with
    | some frame => (repeated.execute frame).giveResponse maxLength
    | none => (.error .stalled, repeated.fail invalidRequest)
  else counted.giveResponse maxLength

/-- Answers a cancel with the error number kept, and forgets it and any response. -/
def performCancel (loopback : Loopback δ) : Except LinkError Bytes × Loopback δ :=
  (.ok (Word.split errnoSize loopback.errno.toNat),
    { loopback with
      errno := 0
      response := none
      stats := { loopback.stats with cancels := loopback.stats.cancels + 1 } })

/-- Performs a transfer, unless a failure is bound for it. -/
def unlessFailing (loopback : Loopback δ) (operation : Operation)
    (perform : Loopback δ → Except LinkError α × Loopback δ) :
    Except LinkError α × Loopback δ :=
  -- A transfer that fails so does not reach the device.
  match takeFailure operation loopback.failures with
  | some (error, failures) => (.error error, { loopback with failures })
  | none => perform loopback

instance [CommandHandler δ] : Transport (Loopback δ) where
  write loopback frame flags _ := loopback.unlessFailing .write (·.performWrite frame flags)
  read loopback maxLength flags _ :=
    loopback.unlessFailing .read (·.performRead maxLength flags)
  cancel loopback _ := loopback.unlessFailing .cancel (·.performCancel)

end Loopback

end BoardRpc
