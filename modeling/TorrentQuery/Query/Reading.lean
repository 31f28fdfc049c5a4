import TorrentQuery.Query.Token

namespace TorrentQuery

/-- A statement of which the last alternative is still being read. -/
structure Draft where
  finished : List (List Cond) := []
  current : List Cond := []
  deriving Inhabited

namespace Draft

def add (d : Draft) (c : Cond) : Draft := { d with current := d.current ++ [c] }

def nextAlternative (d : Draft) : Draft := ⟨d.finished ++ [d.current], []⟩

def close (d : Draft) : Stmt := d.finished ++ [d.current]

end Draft

/-- A group that is still open: where its bracket stands, and the statement it is part of. -/
structure OpenGroup where
  position : Nat
  negated : Bool
  outer : Draft
  deriving Inhabited

namespace Stmt

/-- Reads the remaining tokens; `length` is the position of the end of the text. -/
def ofLexemesFrom (length : Nat) (d : Draft) (stack : List OpenGroup) :
    List Lexeme → Except (Nat × Fault) Stmt
  | [] =>
    if d.current.isEmpty then .error (length, .missingCondition)
    else match stack with
      | [] => .ok d.close
      | g :: _ => .error (g.position, .unmatchedOpening)
  | ⟨.opening, p⟩ :: r => ofLexemesFrom length {} (⟨p, false, d⟩ :: stack) r
  | ⟨.negation, _⟩ :: ⟨.opening, q⟩ :: r => ofLexemesFrom length {} (⟨q, true, d⟩ :: stack) r
  | ⟨.negation, p⟩ :: _ => .error (p, .looseNegation)
  | ⟨.named field op v, _⟩ :: r => ofLexemesFrom length (d.add (.named field op v)) stack r
  | ⟨.bare v, _⟩ :: r => ofLexemesFrom length (d.add (.bare v)) stack r
  | ⟨.alternative, p⟩ :: r =>
    if d.current.isEmpty then .error (p, .missingCondition)
    else ofLexemesFrom length d.nextAlternative stack r
  | ⟨.closing, p⟩ :: r =>
    if d.current.isEmpty then .error (p, .missingCondition)
    else match stack with
      | [] => .error (p, .unmatchedClosing)
      | g :: stack => ofLexemesFrom length (g.outer.add (.group g.negated d.close)) stack r

def ofLexemes (length : Nat) : List Lexeme → Except (Nat × Fault) Stmt
  | [] => .error (0, .emptyFilter)
  | ts => ofLexemesFrom length {} [] ts

def read (s : String) : Except QueryError Stmt :=
  match Token.scan s with
  | .error (p, fault) => .error (.malformed s p fault)
  | .ok ts =>
    match ofLexemes s.length ts with
    | .error (p, fault) => .error (.malformed s p fault)
    | .ok stmt => .ok stmt

end Stmt

end TorrentQuery
