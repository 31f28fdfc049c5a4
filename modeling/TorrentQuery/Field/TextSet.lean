namespace TorrentQuery

/-- Texts in ascending order, each once. -/
structure TextSet where
  toList : List String
  ascending : toList.Pairwise (· < ·)
  deriving DecidableEq, Repr

namespace TextSet

def insertSorted (x : String) : List String → List String
  | [] => [x]
  | y :: r => if x < y then x :: y :: r else if x = y then y :: r else y :: insertSorted x r

theorem mem_insertSorted {x z : String} {r : List String} :
    z ∈ insertSorted x r ↔ z = x ∨ z ∈ r := by
  induction r with
  | nil => simp [insertSorted]
  | cons y r ih => grind [insertSorted]

theorem insertSorted_ascending (x : String) {r : List String} (h : r.Pairwise (· < ·)) :
    (insertSorted x r).Pairwise (· < ·) := by
  induction r with
  | nil => simp [insertSorted]
  | cons y r ih =>
    have hy := List.pairwise_cons.1 h
    unfold insertSorted
    split
    · next hxy =>
      refine List.pairwise_cons.2 ⟨fun z hz => ?_, h⟩
      rcases List.mem_cons.1 hz with rfl | hz
      · exact hxy
      · exact String.lt_trans hxy (hy.1 z hz)
    · split
      · exact h
      · next hxy hne =>
        refine List.pairwise_cons.2 ⟨fun z hz => ?_, ih hy.2⟩
        rcases mem_insertSorted.1 hz with rfl | hz
        · grind
        · exact hy.1 z hz

def empty : TextSet := ⟨[], .nil⟩

def insert (s : TextSet) (x : String) : TextSet :=
  ⟨insertSorted x s.toList, insertSorted_ascending x s.ascending⟩

def ofList (xs : List String) : TextSet := xs.foldl insert empty

theorem mem_insert {s : TextSet} {x z : String} :
    z ∈ (s.insert x).toList ↔ z = x ∨ z ∈ s.toList := mem_insertSorted

theorem mem_ofList {xs : List String} {z : String} : z ∈ (ofList xs).toList ↔ z ∈ xs := by
  have fold (s : TextSet) : z ∈ (xs.foldl insert s).toList ↔ z ∈ s.toList ∨ z ∈ xs := by
    induction xs generalizing s with
    | nil => simp
    | cons x xs ih => simp only [List.foldl_cons, ih, mem_insert, List.mem_cons]; grind
  exact (fold empty).trans (by simp [empty])

def contains (s : TextSet) (x : String) : Bool := s.toList.contains x

def isEmpty (s : TextSet) : Bool := s.toList.isEmpty

def map (f : String → String) (s : TextSet) : TextSet := ofList (s.toList.map f)

end TextSet

end TorrentQuery
