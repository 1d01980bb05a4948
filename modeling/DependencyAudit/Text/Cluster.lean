import DependencyAudit.Text.Columns

namespace DependencyAudit.Text

/-- The zero-width joiner. -/
def joiner : Char := '\u200D'

/-- The selector that asks for the picture of a character. -/
def pictureSelector : Char := '\uFE0F'

/-- Characters that stand in one place, and the columns that they take there. -/
structure Cluster where
  chars : List Char
  size : Nat
  deriving DecidableEq, Repr

namespace Cluster

def empty : Cluster := ⟨[], 0⟩

def ofChar (c : Char) : Cluster := ⟨[c], columnsOf c⟩

/-- A cluster with a character that takes no column. -/
def add (cluster : Cluster) (c : Char) : Cluster :=
  let picture := c = pictureSelector ∧ cluster.chars.head?.any becomesPicture
  ⟨cluster.chars ++ [c], if picture then 2 else cluster.size⟩

/-- A cluster with characters that do not count towards its columns. -/
def join (cluster : Cluster) (joined : List Char) : Cluster :=
  { cluster with chars := cluster.chars ++ joined }

@[simp] theorem chars_ofChar (c : Char) : (ofChar c).chars = [c] := rfl

@[simp] theorem chars_add (cluster : Cluster) (c : Char) :
    (cluster.add c).chars = cluster.chars ++ [c] := rfl

@[simp] theorem chars_join (cluster : Cluster) (joined : List Char) :
    (cluster.join joined).chars = cluster.chars ++ joined := rfl

end Cluster

/-- The clusters of a text that goes on after the cluster `current`. -/
def clustersAfter (current : Cluster) : List Char → List Cluster
  | [] => [current]
  | [c] => if columnsOf c = 0 then [current.add c] else [current, .ofChar c]
  | c :: d :: rest =>
    if c = joiner then clustersAfter (current.join [c, d]) rest
    else if columnsOf c = 0 then clustersAfter (current.add c) (d :: rest)
    else current :: clustersAfter (.ofChar c) (d :: rest)

/-- The clusters of a text. The first one starts with the first character, whatever that is. -/
def clusters : List Char → List Cluster
  | [] => []
  | c :: rest => clustersAfter (.ofChar c) rest

/-- The columns that a text takes. Where it starts with a joiner, the character that is joined has
nothing to stand in and takes none. -/
def columns (s : List Char) : Nat :=
  (clustersAfter .empty s).foldl (fun size cluster => size + cluster.size) 0

theorem flatMap_chars_clustersAfter (current : Cluster) (s : List Char) :
    (clustersAfter current s).flatMap Cluster.chars = current.chars ++ s := by
  fun_induction clustersAfter current s with
  | case1 => simp
  | case2 => simp
  | case3 => simp
  | case4 _ _ _ ih => simp [ih]
  | case5 _ _ _ _ _ _ ih => simp [ih]
  | case6 _ _ _ _ _ _ ih => simp [ih]

/-- Nothing is lost in cutting a text into clusters. -/
theorem flatMap_chars_clusters (s : List Char) : (clusters s).flatMap Cluster.chars = s := by
  cases s with
  | nil => rfl
  | cons c rest => simp [clusters, flatMap_chars_clustersAfter]

end DependencyAudit.Text
