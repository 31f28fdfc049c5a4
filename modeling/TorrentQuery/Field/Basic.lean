namespace TorrentQuery

inductive ValueType where
  | bool
  | int
  | float
  | str
  | set
  | list
  | duration
  | timestamp
  | byteSize
  deriving DecidableEq, Repr

def ValueType.label : ValueType → String
  | .bool => "Bool"
  | .int => "Int"
  | .float => "Float"
  | .str => "Str"
  | .set => "Set"
  | .list => "List"
  | .duration => "Duration"
  | .timestamp => "Timestamp"
  | .byteSize => "ByteSize"

/-- How the value of a condition is read and compared with a field. -/
inductive FilterKind where
  | pattern
  | files
  | taggedAs
  | bool
  | float
  | byteSize
  | time
  | timeNotNull
  | duration
  deriving DecidableEq, Repr

namespace FilterKind

def label : FilterKind → String
  | .pattern => "Pattern"
  | .files => "Files"
  | .taggedAs => "TaggedAs"
  | .bool => "Bool"
  | .float => "Float"
  | .byteSize => "ByteSize"
  | .time => "Time"
  | .timeNotNull => "TimeNotNull"
  | .duration => "Duration"

/-- Whether values are amounts, so that a sign before one can stand for an operator. -/
def isNumeric : FilterKind → Bool
  | .float | .byteSize | .time | .timeNotNull | .duration => true
  | .pattern | .files | .taggedAs | .bool => false

end FilterKind

structure Field where
  name : String
  doc : String := ""
  type : ValueType
  filter : FilterKind
  /-- The daemon's command for the value, if the daemon can filter by it. -/
  key : Option String := none
  /-- The daemon's integers are this many times the values. -/
  scale : Int := 1
  /-- Daemon calls whose answers the value is computed from. -/
  requires : List String := []
  deriving DecidableEq, Repr

end TorrentQuery
