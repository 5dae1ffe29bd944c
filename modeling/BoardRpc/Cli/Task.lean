import BoardRpc.Cli.Exit
import BoardRpc.Rpc.Session

/-! Tasks: steps over a session that may end the program. -/

namespace BoardRpc.Cli

/-- Steps over a session that may end the program. -/
abbrev Task (σ : Type) := ExceptT Failure (StateM (Session σ))

namespace Task

/-- Steps of a session, whose error is told behind their purpose. -/
def ofAction (purpose : String) (action : Action σ α) : Task σ α := fun session =>
  match action session with
  | (.ok result, session) => (.ok result, session)
  | (.error error, session) => (.error (.ofRpc purpose error), session)

/-- A result, or the failure that ends the program. -/
def ofResult (result : Except Failure α) : Task σ α := fun session => (result, session)

end Task

end BoardRpc.Cli
