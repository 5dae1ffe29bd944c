import BoardRpc.Cli.Commands

/-! The program on a machine without USB support: every command can be given, and those that need
a device find none. -/

namespace BoardRpc.Cli

/-- There is no link without a device. -/
instance : Transport Empty where
  write link := nomatch link
  read link := nomatch link
  cancel link := nomatch link

/-- No device is the one asked for. -/
def findNoDevice (selector : DeviceSelector) : Except LinkError Empty :=
  .error (.deviceNotFound (some selector.describe))

/-- How the program is used. -/
def usageText : String := unlines [
  "Usage: " ++ programName ++ " [OPTIONS] <COMMAND>",
  "",
  "Commands:",
  "  info                 print the identity of the board",
  "  apis                 list the classes and verbs of the device",
  "  call <CLASS> <VERB>  call a verb by name",
  "  exec <CLASS> <VERB>  call a verb by number",
  "  version              print the version of the program",
  "  help                 print this text",
  "",
  "Options: --format, --log-format, --log-level, --serial, --vid, --pid, --help, --version"]

/-- Prints text where answers go. -/
def printAnswer (text : String) : IO Unit := do (← IO.getStdout).putStr text

/-- Prints what went wrong. -/
def printFault (message : String) : IO Unit := do
  (← IO.getStderr).putStrLn ("error: " ++ message)

/-- Tells why the program stops at its arguments. -/
def tellStop : ArgumentStop → IO Unit
  | .help => printAnswer usageText
  | .version => printAnswer (describeProgram false)
  | stop => do
    printFault stop.message
    (← IO.getStderr).putStr usageText

/-- Runs the program on its arguments, and tells the exit code. -/
def runProgram (arguments : List String) : IO UInt32 := do
  match Invocation.ofArguments arguments with
  | .error stop =>
    tellStop stop
    return UInt32.ofNat stop.exitCode
  | .ok invocation =>
    -- A person reads a table, and another program reads JSON.
    let fallback : OutputFormat := if ← (← IO.getStdout).isTty then .table else .json
    match (invocation.run fallback findNoDevice).result with
    | .ok text =>
      printAnswer text
      return UInt32.ofNat ExitCode.success
    | .error failure =>
      printFault failure.message
      return UInt32.ofNat failure.code

end BoardRpc.Cli

/-- The command line of the program. -/
def main (arguments : List String) : IO UInt32 := BoardRpc.Cli.runProgram arguments
