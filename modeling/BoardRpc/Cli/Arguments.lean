import BoardRpc.Cli.Parameter
import BoardRpc.Rpc.Options

/-! Arguments of the command line: those of the program, the name of a command, and those of the
command. -/

namespace BoardRpc.Cli

/-- An argument by its form. -/
inductive Token
  /-- The mark behind which everything is an operand. -/
  | separator
  | long (name : String) (value : Option String)
  /-- Letters behind one dash, of which the first decides. -/
  | short (letter : Char)
  | plain
  deriving DecidableEq, Repr, Inhabited

/-- The form of an argument. A dash on its own is plain. -/
def Token.ofText (text : String) : Token :=
  match text.toList with
  | ['-', '-'] => .separator
  | '-' :: '-' :: rest =>
    -- A value may stand with the name, behind the first equals sign.
    let name := String.ofList (rest.takeWhile (· != '='))
    match rest.dropWhile (· != '=') with
    | _ :: value => .long name (some (String.ofList value))
    | [] => .long name none
  | '-' :: letter :: _ => .short letter
  | _ => .plain

/-- Arguments of one scope, as far as they have been read. -/
structure Reading where
  /-- What has been said, each under the name by which it may not be said again. -/
  given : List (String × Setting) := []
  /-- The option or operand that was met last, with its value unless that is yet to come. -/
  pending : Option (Parameter × Option String) := none
  /-- The operands yet to come. -/
  operands : List Parameter
  /-- Whether everything that follows is an operand. -/
  trailing : Bool := false

namespace Reading

/-- Nothing read yet. -/
def start (scope : Scope) : Reading :=
  { operands := (scope.map CommandName.operands).getD [] }

/-- What has been said, without the names. -/
def settings (reading : Reading) : List Setting := reading.given.map Prod.snd

/-- Takes note of a setting, unless there has been one under its name. -/
def note (reading : Reading) (name : String) (setting : Except ArgumentStop Setting) :
    Except ArgumentStop Reading :=
  -- Saying a thing twice is refused before its value is read.
  if reading.given.any (·.1 == name) then .error (.repeated name)
  else match setting with
    | .error stop => .error stop
    | .ok setting => .ok { reading with given := reading.given ++ [(name, setting)] }

/-- Reads the value of what was met last. -/
def settle (reading : Reading) : Except ArgumentStop Reading :=
  match reading.pending with
  | none => .ok reading
  | some (parameter, none) => .error (.missingValue parameter.name)
  | some (parameter, some value) =>
    { reading with pending := none }.note parameter.name (parameter.read value)

/-- The option whose value comes next, if there is one. -/
def awaiting? (reading : Reading) : Option Parameter :=
  match reading.pending with
  | some (parameter, none) => some parameter
  | _ => none

/-- Meets a name with a meaning, and the value that stands with it. What was met before is read
first, unless the argument is refused without that. -/
def takeNamed (reading : Reading) (text : String) :
    Option Meaning → Option String → Except ArgumentStop Reading
  | none, _ => .error (.unexpected text)
  | some (.option parameter), none => do
    let settled ← reading.settle
    return { settled with pending := some (parameter, none) }
  | some (.option parameter), some value => do
    (← reading.settle).note parameter.name (parameter.read value)
  | some _, some _ => .error (.unwantedValue text)
  | some (.flag name setting), none => do (← reading.settle).note name (.ok setting)
  -- A request for help counts only if what was said before it is right.
  | some (.stop stop), none => do
    let _ ← reading.settle
    throw stop

/-- Meets an operand. In front of the command there are none, so that it can only be a command
that is unknown, or one that is named too late. -/
def takeOperand (reading : Reading) (scope : Scope) (text : String) :
    Except ArgumentStop Reading :=
  match reading.operands with
  | operand :: rest => do
    let settled ← reading.settle
    return { settled with pending := some (operand, some text), operands := rest }
  | [] =>
    -- A word that would have named a command, had no separator been in front of it.
    let isKnown := (CommandName.ofText? text).isSome || text == "help"
    if scope.isNone && !(reading.trailing && isKnown) then .error (.unknownCommand text)
    else .error (.unexpected text)

/-- Meets an argument that is no command. -/
def take (reading : Reading) (scope : Scope) (text : String) : Except ArgumentStop Reading :=
  if reading.trailing then reading.takeOperand scope text
  else match Token.ofText text with
    | .separator => .ok { reading with trailing := true }
    | .long name value => reading.takeNamed text (Meaning.ofLong? scope name) value
    | .short letter => reading.takeNamed text (Meaning.ofShort? scope letter) none
    -- An option that waits for its value takes whatever is plain.
    | .plain =>
      match reading.awaiting? with
      | some parameter => .ok { reading with pending := some (parameter, some text) }
      | none => reading.takeOperand scope text

/-- Meets arguments one after the other. -/
def takeAll (reading : Reading) (scope : Scope) (texts : List String) :
    Except ArgumentStop Reading :=
  texts.foldlM (fun reading text => reading.take scope text) reading

end Reading

/-- A command with everything that it needs to know. -/
inductive Command
  | info
  | apis (onlyClass : Option String)
  | call (className verbName : String) (values : Option String) (options : CallOptions)
  | exec (classNumber verbNumber : UInt32) (inFormat outFormat : String) (values : Option String)
      (options : CallOptions)
  | version (extended : Bool)
  deriving DecidableEq, Repr, Inhabited

/-- An operand that a command cannot do without: what the settings say of it. -/
def requireSetting (settings : List Setting) (name : String) (pick : Setting → Option α) :
    Except ArgumentStop α :=
  match settings.findSome? pick with
  | some value => .ok value
  | none => .error (.missingOperand name)

namespace Command

/-- The command of a name, with what its arguments say. -/
def ofSettings (name : CommandName) (settings : List Setting) : Except ArgumentStop Command := do
  let values := settings.findSome? fun | .values json => some json | _ => none
  let timeout := settings.findSome? fun | .timeout duration => some duration | _ => none
  match name with
  | .info => return .info
  | .apis => return .apis (settings.findSome? fun | .onlyClass name => some name | _ => none)
  | .call =>
    let className ← requireSetting settings "class" fun
      | .className name => some name
      | _ => none
    let verbName ← requireSetting settings "verb" fun
      | .verbName name => some name
      | _ => none
    return .call className verbName values { timeout }
  | .exec =>
    let classNumber ← requireSetting settings "class" fun
      | .classNumber number => some number
      | _ => none
    let verbNumber ← requireSetting settings "verb" fun
      | .verbNumber number => some number
      | _ => none
    let inFormat := settings.findSome? fun | .inFormat text => some text | _ => none
    let outFormat := settings.findSome? fun | .outFormat text => some text | _ => none
    let maxResponseLength := settings.findSome? fun | .maxResponse size => some size | _ => none
    -- A format that is not given is that of no values.
    return .exec classNumber verbNumber (inFormat.getD "") (outFormat.getD "") values
      { timeout, maxResponseLength }
  | .version => return .version (settings.contains .extended)

end Command

/-- What the program is to do. -/
structure Invocation where
  command : Command
  device : DeviceSelector := {}
  /-- The output format, where one is asked for. -/
  format : Option OutputFormat := none
  deriving DecidableEq, Repr, Inhabited

namespace Invocation

/-- A command with what all arguments together say, those that count most coming first. -/
def ofSettings (command : Command) (settings : List Setting) : Invocation where
  command
  device :=
    { vendorId := (settings.findSome? fun | .vendorId id => some id | _ => none).getD
        defaultVendorId
      productId := (settings.findSome? fun | .productId id => some id | _ => none).getD
        defaultProductId
      serialNumber := settings.findSome? fun | .serialNumber serial => some serial | _ => none }
  format := settings.findSome? fun | .format format => some format | _ => none

/-- The end of a request for help, which may name a command. -/
def stopForHelp : List String → ArgumentStop
  | [] => .help
  | name :: rest =>
    if (CommandName.ofText? name).isSome || name == "help" then
      -- Help is told of one command at a time.
      match rest with
      | [] => .help
      | extra :: _ => .unknownCommand extra
    else .unknownCommand name

/-- Reads the arguments behind the name of a command, and then what is still to be read in front
of it. What a command is told counts more than what the program is told. -/
def ofCommand (front : Reading) (name : CommandName) (arguments : List String) :
    Except ArgumentStop Invocation := do
  let read ← (Reading.start (some name)).takeAll (some name) arguments
  let behind ← read.settle
  let command ← Command.ofSettings name behind.settings
  -- What is wrong behind the command is told before what is wrong in front of it.
  let front ← front.settle
  return ofSettings command (behind.settings ++ front.settings)

/-- Reads arguments up to the name of a command, and all that follow. -/
def ofFront (front : Reading) : List String → Except ArgumentStop Invocation
  | [] => do
    let front ← front.settle
    throw (if front.given.isEmpty then .nothing else .missingCommand)
  | text :: rest =>
    -- Behind a separator, or as the value of an option, a word names no command.
    let mayName := !front.trailing && front.awaiting?.isNone
    if mayName && text == "help" then .error (stopForHelp rest)
    else match CommandName.ofText? text, mayName with
      | some name, true => ofCommand front name rest
      | _, _ =>
        match front.take none text with
        | .error stop => .error stop
        | .ok front => ofFront front rest

/-- Reads the arguments of the command line, without the name of the program. -/
def ofArguments (arguments : List String) : Except ArgumentStop Invocation :=
  ofFront (Reading.start none) arguments

end Invocation

end BoardRpc.Cli
