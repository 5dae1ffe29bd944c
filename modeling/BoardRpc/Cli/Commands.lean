import BoardRpc.Cli.Arguments
import BoardRpc.Cli.BoardInfo
import BoardRpc.Cli.Listing
import BoardRpc.Rpc.Discovery

/-! Commands: what the program does for its caller, over any link. -/

namespace BoardRpc.Cli

/-- The name of the program. -/
def programName : String := "greatwire"

/-- The version of the program. -/
def programVersion : String := "0.1.0"

/-- Everything that can be called on a device. -/
def fetchApi [Transport σ] : Task σ ApiCollection :=
  Task.ofAction "discovery failed" (discover {})

/-- The classes to list: one of a name, or all of them. -/
def selectClasses (api : ApiCollection) : Option String → Except Failure (List ClassDescriptor)
  | none => .ok api.classes
  | some name =>
    match api.getClass name with
    | .ok descriptor => .ok [descriptor]
    | .error error => .error (.ofRpc "lookup failed" error)

/-- Lists classes of a device. -/
def listApis [Transport σ] (onlyClass : Option String) (format : OutputFormat) :
    Task σ String := do
  let classes ← Task.ofResult (selectClasses (← fetchApi) onlyClass)
  return renderClasses classes format

/-- Calls a verb by the names of its class and itself. -/
def callByName [Transport σ] (className verbName : String) (args : List Value)
    (options : CallOptions) (format : OutputFormat) : Task σ String := do
  let api ← fetchApi
  let binding ← Task.ofAction "lookup failed" fun session =>
    (api.getBinding className verbName, session)
  let reply ← Task.ofAction (className ++ "." ++ verbName) (binding.invoke · args options)
  return renderReply reply binding.outParamNames format

/-- Calls a verb by numbers, with formats that are given as texts. -/
def callByNumber [Transport σ] (classNumber verbNumber : UInt32) (inFormat outFormat : String)
    (args : List Value) (options : CallOptions) (format : OutputFormat) : Task σ String := do
  let reply ← Task.ofAction (commandName classNumber verbNumber)
    (·.execute classNumber verbNumber inFormat outFormat args options)
  return renderReply reply none format

/-- The arguments of a call. -/
def readValues (json : Option String) : Except Failure (List Value) :=
  match readArguments json with
  | .ok values => .ok values
  | .error fault => .error (.ofArguments fault)

/-- Whether formats are well-formed and the arguments fit theirs. -/
def checkFormats (inFormat outFormat : String) (args : List Value) : Except Failure Unit :=
  match Format.parse inFormat with
  | .error error => .error (.ofFormat "--in-format" error)
  | .ok inFormat =>
    -- The arguments are looked at last, when both formats are known to be right.
    match Format.parse outFormat with
    | .error error => .error (.ofFormat "--out-format" error)
    | .ok _ =>
      match inFormat.encode args with
      | .error error => .error (.ofFormat "--args" error)
      | .ok _ => .ok ()

/-- The lines that tell of the program. -/
def describeProgram (extended : Bool) : String :=
  if extended then
    unlines [
      "name: " ++ programName,
      "version: " ++ programVersion,
      "features: usb=true, cli=true",
      "usb_ids: " ++ ({} : DeviceSelector).describe]
  else unlines [programName ++ " " ++ programVersion]

/-- What a command is once its arguments are known to be good: a text that is known without a
device, or steps on one. -/
inductive Plan (σ : Type)
  | answer (text : String)
  | onDevice (task : Task σ String)

/-- Checks what can be checked of a command without a device. -/
def Command.plan [Transport σ] (command : Command) (format : OutputFormat) :
    Except Failure (Plan σ) :=
  match command with
  | .info => .ok (.onDevice (do return (← BoardInfo.fetch).render format))
  | .apis onlyClass => .ok (.onDevice (listApis onlyClass format))
  | .call className verbName json options => do
    let args ← readValues json
    return .onDevice (callByName className verbName args options format)
  | .exec classNumber verbNumber inFormat outFormat json options => do
    let args ← readValues json
    -- The session checks them too, but only once a device has been opened.
    checkFormats inFormat outFormat args
    return .onDevice (callByNumber classNumber verbNumber inFormat outFormat args options format)
  | .version extended => .ok (.answer (describeProgram extended))

/-- What the program leaves behind: its output or the failure that ended it, and the link, if one
was opened. -/
structure Outcome (σ : Type) where
  result : Except Failure String
  link : Option σ := none

/-- Does what the program is to do. A device is opened only for a command that can use it. -/
def Invocation.run [Transport σ] (invocation : Invocation) (fallback : OutputFormat)
    (connect : DeviceSelector → Except LinkError σ) : Outcome σ :=
  match invocation.command.plan (invocation.format.getD fallback) with
  | .error failure => { result := .error failure }
  | .ok (.answer text) => { result := .ok text }
  | .ok (.onDevice task) =>
    -- Only now is a device opened.
    match connect invocation.device with
    | .error error => { result := .error (.ofLink "failed to open device" error) }
    | .ok link =>
      match task.run { link } with
      | (result, session) => { result, link := some session.link }

end BoardRpc.Cli
