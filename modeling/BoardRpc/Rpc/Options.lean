import BoardRpc.Link.Frame

/-! Settings of sessions, of single calls, and of discovery. All times are in milliseconds. -/

namespace BoardRpc

/-- The time that commands, responses and cancels are given by default. -/
def defaultTimeout : Nat := 1000

/-- The default pause before a failed cancel is tried once more. -/
def defaultCancelRetryDelay : Nat := 1000

/-- Settings of a session. -/
structure SessionConfig where
  /-- The time in which a device must take and execute a command. -/
  timeout : Nat := defaultTimeout
  /-- The time for reading a response. -/
  commsTimeout : Nat := defaultTimeout
  /-- The largest response that is read; none is read where this is zero. -/
  maxResponseLength : Nat := maxCommandSize
  /-- The time for each cancel. -/
  cancelTimeout : Nat := defaultTimeout
  /-- The pause before a failed cancel is tried once more, if it is. -/
  cancelRetryDelay : Option Nat := some defaultCancelRetryDelay
  /-- Whether a command that equals the last one is not sent again. -/
  repeatsCommands : Bool := true
  deriving DecidableEq, Repr, Inhabited

/-- Settings of one call, in place of those of its session. -/
structure CallOptions where
  timeout : Option Nat := none
  commsTimeout : Option Nat := none
  maxResponseLength : Option Nat := none
  deriving DecidableEq, Repr, Inhabited

namespace CallOptions

/-- The options of a command without a response. -/
def noResponse : CallOptions := { maxResponseLength := some 0 }

/-- The options with what they leave open taken from others. -/
def orElse (options others : CallOptions) : CallOptions where
  timeout := options.timeout <|> others.timeout
  commsTimeout := options.commsTimeout <|> others.commsTimeout
  maxResponseLength := options.maxResponseLength <|> others.maxResponseLength

end CallOptions

/-- Settings of discovery. -/
structure DiscoveryConfig where
  /-- Whether classes already known are replaced by what the device tells of them. -/
  overwrite : Bool := false
  deriving DecidableEq, Repr, Inhabited

end BoardRpc
