import BoardRpc.Cli.Table
import BoardRpc.Json.Printer
import BoardRpc.Reply.Render

/-! Replies as the program prints them. -/

namespace BoardRpc.Cli

/-- The forms that the program's output takes. -/
inductive OutputFormat
  | json
  | table
  | pretty
  | raw
  deriving DecidableEq, Repr, Inhabited

/-- JSON on a line of its own. -/
def jsonLine (json : Json) : String := json.render ++ "\n"

/-- A reply in an output format. In JSON the results have names where any are known. -/
def renderReply (reply : Reply) (names : Option (List String)) : OutputFormat → String
  | .json =>
    match names with
    | some _ => jsonLine (reply.toNamedJson names)
    | none => jsonLine reply.toJson
  | .table =>
    Table.render
      { header := ["RESULT", "VALUE"]
        rows := (reply.namedValues names).map fun (name, value) => [name, value.display] }
  | .pretty =>
    unlines ((reply.namedValues names).map fun (name, value) => name ++ ": " ++ value.display)
  | .raw => unlines (reply.values.map Value.display)

end BoardRpc.Cli
