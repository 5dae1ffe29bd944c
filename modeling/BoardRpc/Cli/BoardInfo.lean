import BoardRpc.Cli.Output
import BoardRpc.Cli.Task
import BoardRpc.Rpc.Core

/-! The identity of a board, as it is fetched and printed. -/

namespace BoardRpc.Cli

/-- What identifies a board. -/
structure BoardInfo where
  boardId : UInt32
  version : String
  partId : List UInt32
  serialNumber : List UInt32
  deriving DecidableEq, Repr, Inhabited

/-- Words in order, each as eight hexadecimal digits. -/
def hexWords (words : List UInt32) : String :=
  String.join (words.map fun word => Text.hexPadded 8 word.toNat)

namespace BoardInfo

/-- The identity of a board in an output format. -/
def render (info : BoardInfo) : OutputFormat → String
  | .json => jsonLine (.obj [
      ("board_id", .nat info.boardId.toNat),
      ("version", .str info.version),
      ("part_id", .str (hexWords info.partId)),
      ("serial_number", .str (hexWords info.serialNumber))])
  | .table => Table.render
      { header := ["FIELD", "VALUE"]
        rows := [
          ["Board ID", toString info.boardId.toNat],
          ["Version", info.version],
          ["Part ID", hexWords info.partId],
          ["Serial number", hexWords info.serialNumber]] }
  | .pretty => unlines [
      "Board Info:",
      "  Board ID:      " ++ toString info.boardId.toNat,
      "  Version:       " ++ info.version,
      "  Part ID:       " ++ hexWords info.partId,
      "  Serial number: " ++ hexWords info.serialNumber]
  | .raw => unlines [hexWords info.serialNumber]

/-- Asks a board who it is. -/
def fetch [Transport σ] : Task σ BoardInfo := do
  let boardId ← Task.ofAction "reading board id" Core.readBoardId
  let version ← Task.ofAction "reading version" Core.readVersionString
  let partId ← Task.ofAction "reading part id" Core.readPartId
  let serialNumber ← Task.ofAction "reading serial number" Core.readSerialNumber
  return { boardId, version, partId, serialNumber }

end BoardInfo

end BoardRpc.Cli
