import TorrentQuery.Field.Registry
import TorrentQuery.Field.Value
import TorrentQuery.Text.Columns

namespace TorrentQuery.Cli

open Number Text

def row {α : Type} [Scalar α] {m : Type → Type} [Monad m] (read : String → m (Value α))
    (names : List String) : m String := do
  let values ← names.mapM fun name => do return (← read name).render
  return joinWith "\t" values

/-- Lines of cells. Each column but the last is as wide as its widest cell. -/
def table (rows : List (String × String × String)) : String :=
  let widest (cells : List String) : Nat := (cells.map columns).foldl max 0
  let first := widest (rows.map (·.1))
  let second := widest (rows.map (·.2.1))
  String.join (rows.map fun (a, b, c) =>
    padTo first a ++ "  " ++ padTo second b ++ "  " ++ c ++ "\n")

def keysTable (names : List String) : Lookup String := do
  let rows ← names.mapM fun name => do
    let f ← Registry.resolve name
    return (f.name, f.type.label, if f.requires.isEmpty then "-" else joinWith " " f.requires)
  return table (("Field", "Type", "Requires") :: rows)

end TorrentQuery.Cli
