import BoardRpc.Format.Error
import BoardRpc.Link.Error
import BoardRpc.Rpc.Errno
import BoardRpc.Text.Numeral

/-! What can go wrong when a command is issued. -/

namespace BoardRpc

/-- Why a command was not carried out. -/
inductive RpcError
  /-- A format is malformed, or arguments or a response do not fit it. -/
  | format (rpc : String) (error : FormatError)
  /-- The command does not fit a frame. -/
  | commandTooLong (size max : Nat)
  /-- The device reports that the command failed. -/
  | commandFailed (classNumber verbNumber : UInt32) (rpc : String) (code : UInt32)
      (cause : LinkError)
  /-- A transfer failed, and not because the device reports anything. -/
  | transport (cause : LinkError)
  /-- A cancel was answered by something other than an error number. -/
  | malformedCancel (length : Nat)
  | unknownClass (name : String)
  | unknownVerb (className verbName : String)
  /-- Discovery cannot start, since one of its first steps failed. -/
  | discovery (stage : String) (source : RpcError)
  deriving DecidableEq, Repr, Inhabited

namespace RpcError

/-- An error number with its name. -/
def errnoText (code : UInt32) : String :=
  match errnoName? code with
  | some name => s!"error {code.toNat} ({name})"
  | none => s!"error {code.toNat}"

/-- The message of an error. -/
def message : RpcError → String
  | .format rpc error => rpc ++ ": " ++ error.message
  | .commandTooLong size max => s!"command too long ({size} bytes, max {max})"
  | .commandFailed classNumber verbNumber rpc code _ =>
    rpc ++ " (class " ++ Text.hexLiteral classNumber.toNat ++ ", verb "
      ++ Text.hexLiteral verbNumber.toNat ++ ") failed on the device: " ++ errnoText code
  | .transport cause => "transport error: " ++ cause.message
  | .malformedCancel length => s!"malformed cancel response ({length} bytes, expected 4)"
  | .unknownClass name => "unknown class " ++ Text.quoted name
  | .unknownVerb className verbName =>
    "class " ++ Text.quoted className ++ " has no verb " ++ Text.quoted verbName
  | .discovery stage source => "discovery failed while " ++ stage ++ ": " ++ source.message

/-- The message of the error behind an error. -/
def sourceMessage? : RpcError → Option String
  | .format _ error => some error.message
  | .commandFailed _ _ _ _ cause | .transport cause => some cause.message
  | .discovery _ source => some source.message
  | _ => none

/-- The error number that the device reported. -/
def deviceCode? : RpcError → Option UInt32
  | .commandFailed _ _ _ code _ => some code
  | .discovery _ source => source.deviceCode?
  | _ => none

end RpcError

/-- Whether a fault is one of a format's text or of the arguments, and not of a payload. -/
def FormatFault.isUsage : FormatFault → Bool
  | .malformed _ _ => true
  | .trailingBytes _ => false
  | .inField _ fault =>
    match fault with
    | .argumentCount _ _ | .typeMismatch _ _ | .outOfRange _ _ | .lengthMismatch _ _
    | .groupCount _ _ => true
    | _ => false

/-- Whether an error is the caller's: a command, a name, a format or arguments that cannot be. -/
def RpcError.isUsage : RpcError → Bool
  | .commandTooLong _ _ | .unknownClass _ | .unknownVerb _ _ => true
  | .format _ error => error.fault.isUsage
  | _ => false

end BoardRpc
