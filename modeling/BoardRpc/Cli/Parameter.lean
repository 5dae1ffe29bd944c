import BoardRpc.Cli.Operand
import BoardRpc.Cli.Output
import BoardRpc.Link.Selector

/-! Parameters: the options, flags and operands that the program and its commands take. -/

namespace BoardRpc.Cli

/-- What one argument says. -/
inductive Setting
  | format (format : OutputFormat)
  /-- What is logged and how, which has no effect on the output. -/
  | logging (choice : String)
  | serialNumber (serial : String)
  | vendorId (id : UInt16)
  | productId (id : UInt16)
  | onlyClass (name : String)
  | className (name : String)
  | verbName (name : String)
  | classNumber (number : UInt32)
  | verbNumber (number : UInt32)
  | values (json : String)
  | inFormat (text : String)
  | outFormat (text : String)
  | maxResponse (size : Nat)
  | timeout (duration : Nat)
  | extended
  deriving DecidableEq, Repr, Inhabited

/-- Why arguments lead to no command that runs. -/
inductive ArgumentStop
  /-- Help is asked for. -/
  | help
  /-- The version of the program is asked for. -/
  | version
  /-- There are no arguments, or none that say anything. -/
  | nothing
  | missingCommand
  | unknownCommand (text : String)
  | unexpected (text : String)
  | missingOperand (name : String)
  | missingValue (name : String)
  | repeated (name : String)
  /-- A value stands with what takes none. -/
  | unwantedValue (text : String)
  /-- A value is not one of those to choose from. -/
  | notAChoice (name value : String)
  | malformedValue (name : String) (fault : OperandFault)
  deriving DecidableEq, Repr, Inhabited

namespace ArgumentStop

/-- Whether the program does what it was asked for when it stops. -/
def isAnswer : ArgumentStop → Bool
  | .help | .version => true
  | _ => false

/-- The exit code of a program that stops at its arguments. -/
def exitCode (stop : ArgumentStop) : Nat := if stop.isAnswer then 0 else 2

/-- What is wrong with the arguments. -/
def message : ArgumentStop → String
  | .help | .version => "nothing to run"
  | .nothing | .missingCommand => "a command is required"
  | .unknownCommand text => "unknown command " ++ text
  | .unexpected text => "unexpected argument " ++ text
  | .missingOperand name => name ++ " is required"
  | .missingValue name => name ++ " needs a value"
  | .repeated name => name ++ " is given more than once"
  | .unwantedValue text => "no value is taken by " ++ text
  | .notAChoice name value => value ++ " is no choice for " ++ name
  | .malformedValue name fault => name ++ ": " ++ fault.message

end ArgumentStop

/-- An option with a value, or an operand. -/
structure Parameter where
  name : String
  read : String → Except ArgumentStop Setting

namespace Parameter

/-- A parameter whose value is any text. -/
def text (name : String) (setting : String → Setting) : Parameter :=
  ⟨name, fun value => .ok (setting value)⟩

/-- A parameter whose value is one of a few words. -/
def choice (name : String) (choices : List (String × Setting)) : Parameter :=
  ⟨name, fun value =>
    match choices.lookup value with
    | some setting => .ok setting
    | none => .error (.notAChoice name value)⟩

/-- A parameter whose value is read by a rule of its own. -/
def reading (name : String) (read : String → Except OperandFault α) (setting : α → Setting) :
    Parameter :=
  ⟨name, fun value =>
    match read value with
    | .ok result => .ok (setting result)
    | .error fault => .error (.malformedValue name fault)⟩

end Parameter

/-- The options that may stand in front of a command as well as behind it. -/
def commonOptions : List Parameter := [
  .choice "format" [("json", .format .json), ("table", .format .table),
    ("pretty", .format .pretty), ("raw", .format .raw)],
  .choice "log-format" (["text", "json"].map fun name => (name, .logging name)),
  .choice "log-level"
    (["error", "warn", "info", "debug", "trace"].map fun name => (name, .logging name)),
  .text "serial" .serialNumber,
  .reading "vid" readUsbId .vendorId,
  .reading "pid" readUsbId .productId]

/-- The commands of the program. -/
inductive CommandName
  | info
  | apis
  | call
  | exec
  | version
  deriving DecidableEq, Repr, Inhabited

namespace CommandName

/-- The command that a word names. -/
def ofText? : String → Option CommandName
  | "info" => some .info
  | "apis" => some .apis
  | "call" => some .call
  | "exec" => some .exec
  | "version" => some .version
  | _ => none

/-- The options of a command, beside the common ones. -/
def options : CommandName → List Parameter
  | .info | .version => []
  | .apis => [.text "class" .onlyClass]
  | .call => [.text "args" .values, .reading "timeout" readDuration .timeout]
  | .exec => [.text "in-format" .inFormat, .text "out-format" .outFormat, .text "args" .values,
      .reading "max-response" readSize .maxResponse, .reading "timeout" readDuration .timeout]

/-- The flags of a command. -/
def flags : CommandName → List (String × Setting)
  | .version => [("extended", .extended)]
  | _ => []

/-- The operands of a command, all of which have to be given. -/
def operands : CommandName → List Parameter
  | .call => [.text "class" .className, .text "verb" .verbName]
  | .exec => [.reading "class" readNumber .classNumber, .reading "verb" readNumber .verbNumber]
  | _ => []

end CommandName

/-- Where an argument stands: in front of the command, or behind it. -/
abbrev Scope := Option CommandName

/-- What an argument with a name means. -/
inductive Meaning
  | option (parameter : Parameter)
  | flag (name : String) (setting : Setting)
  | stop (stop : ArgumentStop)

namespace Meaning

/-- The meaning of a name behind two dashes. -/
def ofLong? (scope : Scope) (name : String) : Option Meaning :=
  let options := commonOptions ++ (scope.map CommandName.options).getD []
  match options.find? (·.name == name) with
  | some parameter => some (.option parameter)
  | none =>
    match (scope.map CommandName.flags).bind (·.lookup name) with
    | some setting => some (.flag name setting)
    | none =>
      if name = "help" then some (.stop .help)
      else if name = "version" ∧ scope.isNone then some (.stop .version)
      else none

/-- The meaning of a letter behind one dash. -/
def ofShort? (scope : Scope) (letter : Char) : Option Meaning :=
  if letter = 'h' then some (.stop .help)
  else if letter = 'V' ∧ scope.isNone then some (.stop .version)
  else none

end Meaning

end BoardRpc.Cli
