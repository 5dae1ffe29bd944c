import BoardRpc.Format.Parser

/-! A store of formats that have been read before, by their text. -/

namespace BoardRpc

/-- Formats read so far, the latest first. Each text occurs at most once. -/
structure FormatCache where
  formats : List Format := []
  deriving BEq, Repr, Inhabited

namespace FormatCache

/-- The format kept for a text. -/
def find? (cache : FormatCache) (source : String) : Option Format :=
  cache.formats.find? (·.source == source)

/-- The format of a text, read and kept at the first request. A text that is no format is not
kept. -/
def fetch (cache : FormatCache) (source : String) : Except FormatError Format × FormatCache :=
  -- Reading a text twice gives one format, so that the first one does for all.
  match cache.find? source with
  | some format => (.ok format, cache)
  | none =>
    match Format.parse source with
    | .ok format => (.ok format, ⟨format :: cache.formats⟩)
    | .error error => (.error error, cache)

/-- The number of formats kept. -/
def size (cache : FormatCache) : Nat := cache.formats.length

/-- Whether no format is kept. -/
def isEmpty (cache : FormatCache) : Bool := cache.formats.isEmpty

end FormatCache

end BoardRpc
