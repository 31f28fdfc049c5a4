import TorrentQuery.Field.Basic
import TorrentQuery.Field.Similarity
import TorrentQuery.Query.Cond
import TorrentQuery.Query.Error
import TorrentQuery.Text.Quoted

namespace TorrentQuery

open Text

/-- A family of fields whose names start alike. `make` gets a name and what follows its start. -/
structure Generator where
  start : String
  make : (name suffix : String) → Except QueryError (Option Field)

structure Registry where
  fields : List Field := []
  /-- Families, in the order in which they are asked. -/
  generators : List Generator := []

namespace Registry

def get? (r : Registry) (name : String) : Option Field := r.fields.find? (·.name = name)

def names (r : Registry) : List String := r.fields.map (·.name)

/-- Enters a field, unless there is one of its name. -/
def insert (r : Registry) (f : Field) : Registry :=
  match r.get? f.name with
  | some _ => r
  | none => { r with fields := r.fields ++ [f] }

def entered (r : Registry) (f : Field) : Field := (r.get? f.name).getD f

def generateFrom (name : String) : List Generator → Except QueryError (Option Field)
  | [] => .ok none
  | g :: r =>
    match after? g.start.toList name.toList with
    | none => generateFrom name r
    | some suffix =>
      match g.make name (String.ofList suffix) with
      | .ok none => generateFrom name r
      | answer => answer

def generate (r : Registry) (name : String) : Except QueryError (Option Field) :=
  generateFrom name r.generators

def shown (r : Registry) : String :=
  let list (xs : List String) : String := "[" ++ joinWith ", " (xs.map quoted) ++ "]"
  "FieldRegistry \x7b fields: " ++ list r.names ++ ", generators: " ++
    list (r.generators.map (·.start)) ++ " \x7d"

end Registry

/-- Work that asks for fields. Fields entered before a failure stay. -/
abbrev Lookup (α : Type) := ExceptT QueryError (StateM Registry) α

namespace Registry

/-- The field of a name, entered if a family makes it. -/
def lookup (name : String) : Lookup (Option Field) := do
  let r ← get
  match r.get? name with
  | some f => return some f
  | none =>
    match r.generate name with
    | .error e => throw e
    | .ok none => return none
    | .ok (some f) =>
      modify (·.insert f)
      return some (r.entered f)

def resolve (name : String) : Lookup Field := do
  match ← lookup name with
  | some f => return f
  | none => throw (.unknownField name (Similarity.closest? name (← get).names))

def requiredCalls (names : List String) : Lookup (List String) := do
  let fields ← names.mapM resolve
  return firstOccurrences (fields.flatMap (·.requires))

end Registry

end TorrentQuery
