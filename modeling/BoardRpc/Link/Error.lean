/-! What can go wrong between the host and a device. -/

namespace BoardRpc

/-- The outcomes of USB transfers that are no success. -/
inductive UsbStatus
  | io
  | invalidParam
  | access
  | noDevice
  | notFound
  | busy
  | timeout
  | overflow
  | pipe
  | interrupted
  | noMem
  | notSupported
  | badDescriptor
  | other
  deriving DecidableEq, Repr, Inhabited

/-- The status as messages name it. -/
def UsbStatus.message : UsbStatus → String
  | .io => "Input/Output Error"
  | .invalidParam => "Invalid parameter"
  | .access => "Access denied (insufficient permissions)"
  | .noDevice => "No such device (it may have been disconnected)"
  | .notFound => "Entity not found"
  | .busy => "Resource busy"
  | .timeout => "Operation timed out"
  | .overflow => "Overflow"
  | .pipe => "Pipe error"
  | .interrupted => "System call interrupted (perhaps due to signal)"
  | .noMem => "Insufficient memory"
  | .notSupported => "Operation not supported or unimplemented on this platform"
  | .badDescriptor => "Malformed descriptor"
  | .other => "Other error"

/-- Why a transfer failed. -/
inductive LinkError
  /-- No device is the one asked for, which a text may describe. -/
  | deviceNotFound (selector : Option String)
  /-- The device refused the transfer, which tells that the command failed. -/
  | stalled
  /-- The transfer took too long. -/
  | timeout
  /-- The device is gone. -/
  | disconnected
  | usb (status : UsbStatus)
  deriving DecidableEq, Repr, Inhabited

namespace LinkError

/-- The failure that a status of a transfer stands for. -/
def ofUsb : UsbStatus → LinkError
  | .pipe => .stalled
  | .timeout => .timeout
  | .noDevice => .disconnected
  | status => .usb status

/-- Whether this is how a device tells that a command failed. Such a device waits for a cancel;
after any other failure the link is of no more use. -/
def isSignaled : LinkError → Bool
  | .stalled | .timeout => true
  | _ => false

/-- The message of a failure. -/
def message : LinkError → String
  | .deviceNotFound (some selector) => s!"no matching device found ({selector})"
  | .deviceNotFound none => "no matching device found"
  | .stalled => "device stalled the transfer"
  | .timeout => "transfer timed out"
  | .disconnected => "device disconnected"
  | .usb status => s!"USB error: {status.message}"

end LinkError

end BoardRpc
