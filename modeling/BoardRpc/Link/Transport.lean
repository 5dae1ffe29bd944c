import BoardRpc.Link.Error
import BoardRpc.Link.Frame

/-! Transports: the ways to exchange frames with one device. -/

namespace BoardRpc

/-- Links whose state, on both ends of the wire, is a value of a type. A command is a write,
followed by a read unless none was announced; a device that failed waits for a cancel. Each
transfer may take a number of milliseconds. -/
class Transport (σ : Type) where
  /-- Sends an encoded frame. -/
  write (link : σ) (frame : Bytes) (flags : CommandFlags) (timeout : Nat) :
    Except LinkError Unit × σ
  /-- Reads a response of at most so many bytes. -/
  read (link : σ) (maxLength : Nat) (flags : CommandFlags) (timeout : Nat) :
    Except LinkError Bytes × σ
  /-- Aborts the current command; the answer is the device's error number. -/
  cancel (link : σ) (timeout : Nat) : Except LinkError Bytes × σ

/-- One transfer as it was asked for. -/
inductive Transfer
  | write (frame : Bytes) (flags : CommandFlags) (timeout : Nat)
  | read (maxLength : Nat) (flags : CommandFlags) (timeout : Nat)
  | cancel (timeout : Nat)
  deriving DecidableEq, Repr, Inhabited

/-- A transfer as it was asked for and answered. -/
inductive Answered
  | write (frame : Bytes) (flags : CommandFlags) (timeout : Nat) (answer : Except LinkError Unit)
  | read (maxLength : Nat) (flags : CommandFlags) (timeout : Nat) (answer : Except LinkError Bytes)
  | cancel (timeout : Nat) (answer : Except LinkError Bytes)

namespace Answered

/-- The transfer without its answer. -/
def transfer : Answered → Transfer
  | .write frame flags timeout _ => .write frame flags timeout
  | .read maxLength flags timeout _ => .read maxLength flags timeout
  | .cancel timeout _ => .cancel timeout

/-- Whether a transfer succeeded. -/
def succeeded : Answered → Bool
  | .write _ _ _ answer => answer.isOk
  | .read _ _ _ answer | .cancel _ answer => answer.isOk

end Answered

/-- Notes that can be taken of transfers. -/
class Note (ν : Type) where
  /-- What is noted of a transfer. -/
  ofAnswered : Answered → ν

/-- Transfers may be noted as they are. -/
instance : Note Answered where
  ofAnswered call := call

/-- A link together with what was noted over it so far, in order. -/
structure Recorded (ν σ : Type) where
  link : σ
  notes : List ν := []

/-- Every transfer is passed on, and noted. -/
instance [Note ν] [Transport σ] : Transport (Recorded ν σ) where
  write recorded frame flags timeout :=
    let (answer, link) := Transport.write recorded.link frame flags timeout
    (answer, ⟨link, recorded.notes ++ [Note.ofAnswered (.write frame flags timeout answer)]⟩)
  read recorded maxLength flags timeout :=
    let (answer, link) := Transport.read recorded.link maxLength flags timeout
    (answer, ⟨link, recorded.notes ++ [Note.ofAnswered (.read maxLength flags timeout answer)]⟩)
  cancel recorded timeout :=
    let (answer, link) := Transport.cancel recorded.link timeout
    (answer, ⟨link, recorded.notes ++ [Note.ofAnswered (.cancel timeout answer)]⟩)

end BoardRpc
