import TorrentQuery.Json.Value

namespace TorrentQuery

/-- How a table came to be, which decides what may still be entered into it. -/
inductive Toml.Origin where
  /-- By a header of its own. The whole document counts as such a table. -/
  | header
  /-- By the header of a table inside it. -/
  | implied
  /-- By a key with points. -/
  | dotted
  /-- Between braces, and complete with them. -/
  | inline
  deriving DecidableEq, Repr

inductive Toml where
  | str (s : String)
  | int (n : Int)
  | float (x : Float)
  | bool (b : Bool)
  /-- A date, a time or both, as written. -/
  | moment (text : String)
  | array (items : List Toml)
  | table (origin : Toml.Origin) (members : List (String × Toml))
  /-- The tables of an array that is written with headers, the last of them being open. -/
  | tables (closed : List Toml) (last : Toml)
  deriving Inhabited, Repr

namespace Toml

abbrev Members := List (String × Toml)

def member? (key : String) (members : Members) : Option Toml :=
  (members.find? (·.1 = key)).map (·.2)

/-- Whether a path may lead on through a table. A header may pass all tables but those in braces; a
key with points may only pass tables that have no header of their own. -/
def Origin.admits (way : Origin) (o : Origin) : Bool :=
  o != .inline && (way != .dotted || o != .header)

/-- Changes the table at the end of a path. Tables that are missing on the way are entered, with `way`
as their origin; an array of tables stands for the last of them. -/
def change (way : Origin) (f : Origin → Members → Option Toml) : List String → Toml → Option Toml
  | [], .table origin members => f origin members
  | key :: path, .table origin members => do
    let child ←
      match (member? key members).getD (.table way []) with
      | .tables closed last => (change way f path last).map (.tables closed)
      | .table o ms => if way.admits o then change way f path (.table o ms) else none
      | _ => none
    some (.table origin (Json.setMember key child members))
  | _, _ => none

/-- Enters a new key with points before its last part. The table that it leads to must have come about
by keys with points, or be the one that the document or a header has opened. -/
def enter (t : Toml) (path : List String) (key : String) (value : Toml) : Option Toml :=
  change .dotted (fun origin members =>
    if (origin == .dotted) == path.isEmpty then none
    else match member? key members with
      | some _ => none
      | none => some (.table origin (members ++ [(key, value)]))) path t

def openTable (t : Toml) (path : List String) (key : String) : Option Toml :=
  change .implied (fun origin members =>
    match member? key members with
    | none => some (.table origin (members ++ [(key, .table .header [])]))
    | some (.table .implied ms) =>
      some (.table origin (Json.setMember key (.table .header ms) members))
    | some _ => none) path t

def openNext (t : Toml) (path : List String) (key : String) : Option Toml :=
  change .implied (fun origin members =>
    match member? key members with
    | none => some (.table origin (members ++ [(key, .tables [] (.table .header []))]))
    | some (.tables closed last) =>
      some (.table origin
        (Json.setMember key (.tables (closed ++ [last]) (.table .header [])) members))
    | some _ => none) path t

def enterBelow (t : Toml) (header path : List String) (key : String) (value : Toml) : Option Toml :=
  change .implied (fun origin members => enter (.table origin members) path key value) header t

def members? : Toml → Option Members
  | .table _ members => some members
  | _ => none

end Toml

end TorrentQuery
