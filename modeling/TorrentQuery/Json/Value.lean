import TorrentQuery.Number.Scalar
import TorrentQuery.Text.Quoted

namespace TorrentQuery

inductive Json where
  | null
  | bool (b : Bool)
  | int (n : Int)
  | float (x : Float)
  | str (s : String)
  | arr (items : List Json)
  | obj (members : List (String × Json))
  deriving Inhabited, Repr

namespace Json

/-- Enters a member: a new key goes last, a key that is there keeps its place and gets the value. -/
def setMember (key : String) (value : α) : List (String × α) → List (String × α)
  | [] => [(key, value)]
  | (k, v) :: r => if k = key then (key, value) :: r else (k, v) :: setMember key value r

/-- The value with one member for each key of an object: the first place and the last value. -/
def collapse : Json → Json
  | .arr items => .arr (collapseItems items)
  | .obj members => .obj ((collapseEach members).foldl (fun acc m => setMember m.1 m.2 acc) [])
  | j => j
where
  collapseItems : List Json → List Json
    | [] => []
    | j :: r => j.collapse :: collapseItems r
  collapseEach : List (String × Json) → List (String × Json)
    | [] => []
    | (k, j) :: r => (k, j.collapse) :: collapseEach r

def get? (j : Json) (key : String) : Option Json :=
  match j with
  | .obj members => (members.find? (·.1 = key)).map (·.2)
  | _ => none

end Json

end TorrentQuery
