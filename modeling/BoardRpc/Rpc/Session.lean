import BoardRpc.Codec.Decode
import BoardRpc.Codec.Encode
import BoardRpc.Format.Cache
import BoardRpc.Link.Transport
import BoardRpc.Reply
import BoardRpc.Rpc.Error
import BoardRpc.Rpc.Options

/-! Sessions: commands issued one after the other over one link. The last command is remembered,
and an identical one is executed again by a read alone. -/

namespace BoardRpc

/-- A link with its settings, the command that the device can repeat, and the formats in use. -/
structure Session (σ : Type) where
  link : σ
  config : SessionConfig := {}
  /-- The command that the device was sent last, if a read can repeat it. -/
  memo : Option CommandFrame := none
  formats : FormatCache := {}

/-- Steps over a session that may fail. -/
abbrev Action (σ : Type) := ExceptT RpcError (StateM (Session σ))

/-- The name of a command that is known by its numbers only. -/
def commandName (classNumber verbNumber : UInt32) : String :=
  "command " ++ Text.hexLiteral classNumber.toNat ++ ":" ++ Text.hexLiteral verbNumber.toNat

namespace Session

/-- Forgets what is known about the device. -/
def reset (session : Session σ) : Session σ := { session with memo := none }

/-- Lends the link, which may change, so that the device can no longer be known. -/
def modifyLink (session : Session σ) (change : σ → σ) : Session σ :=
  { session with link := change session.link, memo := none }

/-- The largest response that a call reads. -/
def responseLimit (session : Session σ) (options : CallOptions) : Nat :=
  -- No response is larger than the largest frame.
  min (options.maxResponseLength.getD session.config.maxResponseLength) maxCommandSize

/-- Whether a call executes the remembered command again instead of sending its frame. -/
def canRepeat (session : Session σ) (frame : CommandFrame) (options : CallOptions) : Bool :=
  -- A repeat is a read, so a response must be wanted.
  session.config.repeatsCommands && session.responseLimit options != 0
    && session.memo == some frame

/-- Sends a frame, and remembers it once it has been taken. -/
def sendFrame [Transport σ] (session : Session σ) (frame : CommandFrame) (options : CallOptions) :
    Except LinkError Unit × Session σ :=
  let flags : CommandFlags := { skipResponse := session.responseLimit options == 0 }
  let timeout := options.timeout.getD session.config.timeout
  match Transport.write session.link frame.encode flags timeout with
  -- The device may have taken the frame or not, so nothing is known of it.
  | (.error error, link) => (.error error, { session with link, memo := none })
  | (.ok (), link) =>
    let memo := if session.config.repeatsCommands then some frame else none
    (.ok (), { session with link, memo })

/-- Reads the response to the frame sent last, which may be executed again for it. -/
def readResponse [Transport σ] (session : Session σ) (repeatLast : Bool) (options : CallOptions) :
    Except LinkError Bytes × Session σ :=
  let timeout := options.commsTimeout.getD session.config.commsTimeout
  match Transport.read session.link (session.responseLimit options) { repeatLast } timeout with
  | (result, link) => (result, { session with link })

/-- The transfers of one command: a frame, a response, or both. -/
def exchange [Transport σ] (session : Session σ) (frame : CommandFrame) (options : CallOptions) :
    Except LinkError Bytes × Session σ :=
  if session.canRepeat frame options then session.readResponse true options
  else match session.sendFrame frame options with
    | (.error error, session) => (.error error, session)
    | (.ok (), session) =>
      -- Without room for a response there is nothing to read.
      if session.responseLimit options = 0 then (.ok [], session)
      else session.readResponse false options

/-- Cancels the current command, once more if that fails and the settings say so. -/
def cancel [Transport σ] (session : Session σ) : Except LinkError Bytes × Session σ :=
  match Transport.cancel session.link session.config.cancelTimeout with
  | (.ok response, link) => (.ok response, { session with link, memo := none })
  | (.error error, link) =>
    match session.config.cancelRetryDelay with
    | none => (.error error, { session with link, memo := none })
    | some _ =>
      -- How long to wait in between makes no difference to the second attempt.
      match Transport.cancel link session.config.cancelTimeout with
      | (result, link) => (result, { session with link, memo := none })

/-- Aborts the current command; the answer is the device's error number. -/
def abort [Transport σ] (session : Session σ) : Except RpcError UInt32 × Session σ :=
  match session.cancel with
  | (.error error, session) => (.error (.transport error), session)
  | (.ok response, session) =>
    -- The answer to a cancel is the error number and nothing else.
    if response.length = errnoSize then (.ok (UInt32.ofNat (Word.join response)), session)
    else (.error (.malformedCancel response.length), session)

/-- Issues a command under a name and tells the response. A failure that the device signals is
followed by a cancel, which tells the error number. -/
def transact [Transport σ] (session : Session σ) (classNumber verbNumber : UInt32)
    (payload : Bytes) (options : CallOptions) (rpc : String) :
    Except RpcError Bytes × Session σ :=
  let frame : CommandFrame := ⟨classNumber, verbNumber, payload⟩
  -- A frame that is too long never reaches the link.
  if maxCommandSize < frame.size then (.error (.commandTooLong frame.size maxCommandSize), session)
  else match session.exchange frame options with
    | (.ok response, session) => (.ok response, session)
    | (.error cause, session) =>
      -- The device keeps its error number until a cancel fetches it.
      if cause.isSignaled then
        match session.abort with
        | (.error error, session) => (.error error, session)
        | (.ok code, session) =>
          (.error (.commandFailed classNumber verbNumber rpc code cause), session)
      else (.error (.transport cause), session.reset)

/-- Issues a command with a raw payload and tells the raw response. -/
def send [Transport σ] (session : Session σ) (classNumber verbNumber : UInt32) (payload : Bytes)
    (options : CallOptions) : Except RpcError Bytes × Session σ :=
  session.transact classNumber verbNumber payload options (commandName classNumber verbNumber)

/-- The reply that a response stands for in a format. -/
def interpret (format : Format) (rpc : String) (response : Bytes) : Except RpcError Reply :=
  match format.extent response with
  | .error error => .error (.format rpc error)
  | .ok used =>
    -- Bytes that are left over are told before any fault inside the response.
    if used ≠ response.length then
      .error (.format rpc ⟨format.source, .trailingBytes (response.length - used)⟩)
    else match format.decode response with
      | .error error => .error (.format rpc error)
      | .ok values => .ok (format.collapse values)

/-- Issues a command with arguments and a reply in given formats. -/
def executeFormats [Transport σ] (session : Session σ) (classNumber verbNumber : UInt32)
    (inFormat outFormat : Format) (args : List Value) (options : CallOptions) (rpc : String) :
    Except RpcError Reply × Session σ :=
  -- Arguments that do not fit are refused before anything is transferred.
  match inFormat.encode args with
  | .error error => (.error (.format rpc error), session)
  | .ok payload =>
    match session.transact classNumber verbNumber payload options rpc with
    | (.error error, session) => (.error error, session)
    | (.ok response, session) => (interpret outFormat rpc response, session)

/-- The format of a text, read once for the whole session. -/
def fetchFormat (session : Session σ) (source rpc : String) :
    Except RpcError Format × Session σ :=
  match session.formats.fetch source with
  | (.ok format, formats) => (.ok format, { session with formats })
  | (.error error, formats) => (.error (.format rpc error), { session with formats })

/-- Issues a command with arguments and a reply in formats that are given as texts. -/
def executeNamed [Transport σ] (session : Session σ) (classNumber verbNumber : UInt32)
    (inFormat outFormat : String) (args : List Value) (options : CallOptions) (rpc : String) :
    Except RpcError Reply × Session σ :=
  match session.fetchFormat inFormat rpc with
  | (.error error, session) => (.error error, session)
  | (.ok inFormat, session) =>
    -- Both texts are read before the command is issued, so that no reply is left unread for its
    -- text.
    match session.fetchFormat outFormat rpc with
    | (.error error, session) => (.error error, session)
    | (.ok outFormat, session) =>
      session.executeFormats classNumber verbNumber inFormat outFormat args options rpc

/-- Issues a command that is known by its numbers only. -/
def execute [Transport σ] (session : Session σ) (classNumber verbNumber : UInt32)
    (inFormat outFormat : String) (args : List Value) (options : CallOptions) :
    Except RpcError Reply × Session σ :=
  session.executeNamed classNumber verbNumber inFormat outFormat args options
    (commandName classNumber verbNumber)

end Session

end BoardRpc
