import BoardRpc.Format.Error
import BoardRpc.Reply.Render
import BoardRpc.Rpc.Error

/-! How the program ends: exit codes, and the failures that lead to them. -/

namespace BoardRpc.Cli

namespace ExitCode

/-- Everything was done. -/
def success : Nat := 0

/-- No device was found. -/
def failure : Nat := 1

/-- The link to the device does not work. -/
def transportError : Nat := 3

/-- The device reports that a command failed. -/
def deviceError : Nat := 40

/-- The device answered with bytes that do not fit the format. -/
def dataInvalid : Nat := 60

/-- The caller asked for something that cannot be. -/
def usage : Nat := 64

/-- A transfer took too long. -/
def timeout : Nat := 124

/-- Anything else. -/
def internal : Nat := 125

/-- The exit code after a failed transfer. -/
def ofLink : LinkError → Nat
  | .deviceNotFound _ => failure
  | .timeout => timeout
  | _ => transportError

/-- The exit code after an error of a command. What is the caller's goes by that first, and an
error behind a failed discovery by its own. -/
def ofRpc (error : RpcError) : Nat :=
  if error.isUsage then usage
  else match error with
    | .commandFailed _ _ _ _ _ => deviceError
    | .transport cause => ofLink cause
    | .malformedCancel _ => transportError
    | .format _ _ => dataInvalid
    | .discovery _ source => ofRpc source
    | _ => internal

end ExitCode

/-- Why the program ends without success. -/
structure Failure where
  code : Nat
  message : String
  deriving DecidableEq, Repr, Inhabited

namespace Failure

/-- A message behind the place or the purpose that it belongs to. -/
def within (context message : String) : String := context ++ ": " ++ message

/-- A failure that is the caller's. -/
def usage (message : String) : Failure := ⟨ExitCode.usage, message⟩

/-- The failure that a failed transfer leads to. -/
def ofLink (context : String) (error : LinkError) : Failure :=
  ⟨ExitCode.ofLink error, within context error.message⟩

/-- The failure that a command's error leads to. -/
def ofRpc (context : String) (error : RpcError) : Failure :=
  ⟨ExitCode.ofRpc error, within context error.message⟩

/-- The failure that a format or arguments given by the caller lead to. -/
def ofFormat (context : String) (error : FormatError) : Failure :=
  usage (within context error.message)

/-- The failure that a text without arguments leads to. -/
def ofArguments (fault : ArgumentFault) : Failure := usage fault.message

end Failure

end BoardRpc.Cli
