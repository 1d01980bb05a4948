import DependencyAudit.Proofs.Text.Digit
import DependencyAudit.Text.Cluster
import Mathlib.Data.List.Basic

namespace DependencyAudit.Text

/-- The columns of some clusters. -/
def totalSize (clusters : List Cluster) : Nat :=
  clusters.foldr (fun cluster size => cluster.size + size) 0

@[simp] theorem totalSize_nil : totalSize [] = 0 := rfl

@[simp] theorem totalSize_cons (cluster : Cluster) (clusters : List Cluster) :
    totalSize (cluster :: clusters) = cluster.size + totalSize clusters := rfl

@[simp] theorem totalSize_append (clusters more : List Cluster) :
    totalSize (clusters ++ more) = totalSize clusters + totalSize more := by
  induction clusters with
  | nil => simp
  | cons first others ih => simp [ih, Nat.add_assoc]

theorem foldl_size (clusters : List Cluster) (size : Nat) :
    clusters.foldl (fun size cluster => size + cluster.size) size = size + totalSize clusters := by
  induction clusters generalizing size with
  | nil => rfl
  | cons first others ih => rw [List.foldl_cons, ih, totalSize_cons, Nat.add_assoc]

section

variable {c : Char} {s rest : List Char}

theorem columns_eq_totalSize (s : List Char) : columns s = totalSize (clustersAfter .empty s) := by
  rw [columns, foldl_size, Nat.zero_add]

@[simp] theorem columnsOf_joiner : columnsOf joiner = 0 := by decide +kernel

/-- The printable characters of ASCII take one column each. -/
theorem columnsOf_of_ascii (first : 0x20 ≤ c.toNat) (last : c.toNat < 0x7F) : columnsOf c = 1 := by
  unfold columnsOf
  dsimp only
  rw [if_neg (by simp; omega), if_pos (by omega)]

/-- A character that takes a column starts a cluster. -/
theorem clustersAfter_cons (visible : columnsOf c ≠ 0) (current : Cluster) (rest : List Char) :
    clustersAfter current (c :: rest) = current :: clusters (c :: rest) := by
  have notJoiner : c ≠ joiner := by
    rintro rfl
    exact visible columnsOf_joiner
  cases rest with
  | nil => simp only [clustersAfter, if_neg visible, clusters]
  | cons d more => simp only [clustersAfter, if_neg visible, if_neg notJoiner, clusters]

theorem columns_cons (visible : columnsOf c ≠ 0) (rest : List Char) :
    columns (c :: rest) = totalSize (clusters (c :: rest)) := by
  rw [columns_eq_totalSize, clustersAfter_cons visible, totalSize_cons]
  exact Nat.zero_add _

/-- Before a character that takes a column a text falls into two, or the character is joined to what
is before it. -/
theorem clustersAfter_append_or (visible : columnsOf c ≠ 0) (current : Cluster) (s : List Char) :
    (∀ rest, clustersAfter current (s ++ c :: rest) =
      clustersAfter current s ++ clusters (c :: rest)) ∨
    s.getLast? = some joiner ∧
      totalSize (clustersAfter current (s ++ [c])) = totalSize (clustersAfter current s) := by
  fun_induction clustersAfter current s with
  | case1 current => exact .inl fun rest => clustersAfter_cons visible current rest
  | case2 current d hollow =>
    by_cases joins : d = joiner
    · -- Nothing but a joiner can draw the character into the cluster.
      subst joins
      refine .inr ⟨rfl, ?_⟩
      have noPicture : joiner ≠ pictureSelector := by decide
      simp [clustersAfter, Cluster.join, Cluster.add, noPicture]
    · refine .inl fun rest => ?_
      rw [List.singleton_append, clustersAfter, if_neg joins, if_pos hollow,
        clustersAfter_cons visible]
      rfl
  | case3 current d visible' =>
    refine .inl fun rest => ?_
    rw [List.singleton_append, clustersAfter_cons visible', clusters, clustersAfter_cons visible]
    rfl
  | case4 current joined rest ih =>
    rcases ih with splits | ⟨last, same⟩
    · refine .inl fun more => ?_
      rw [List.cons_append, List.cons_append, clustersAfter, if_pos rfl, splits]
    · refine .inr ⟨?_, ?_⟩
      · rw [List.getLast?_cons_cons, List.getLast?_cons, last]
        rfl
      · rw [List.cons_append, List.cons_append, clustersAfter, if_pos rfl, same]
  | case5 current d e rest notJoiner hollow ih =>
    rcases ih with splits | ⟨last, same⟩
    · refine .inl fun more => ?_
      rw [List.cons_append, List.cons_append, clustersAfter, if_neg notJoiner, if_pos hollow,
        ← splits, List.cons_append]
    · refine .inr ⟨by rw [List.getLast?_cons_cons, last], ?_⟩
      rw [List.cons_append, List.cons_append, clustersAfter, if_neg notJoiner, if_pos hollow, ← same,
        List.cons_append]
  | case6 current d e rest notJoiner visible' ih =>
    rcases ih with splits | ⟨last, same⟩
    · refine .inl fun more => ?_
      rw [List.cons_append, List.cons_append, clustersAfter, if_neg notJoiner, if_neg visible',
        List.cons_append, ← splits, List.cons_append]
    · refine .inr ⟨by rw [List.getLast?_cons_cons, last], ?_⟩
      rw [List.cons_append, List.cons_append, clustersAfter, if_neg notJoiner, if_neg visible',
        totalSize_cons, totalSize_cons, ← same, List.cons_append]

theorem clustersAfter_append (visible : columnsOf c ≠ 0) (apart : s.getLast? ≠ some joiner)
    (current : Cluster) (rest : List Char) : clustersAfter current (s ++ c :: rest) =
      clustersAfter current s ++ clusters (c :: rest) :=
  (clustersAfter_append_or visible current s).elim (· rest) fun joined => absurd joined.1 apart

/-- A text that begins with a character of its own column falls into its clusters part by part. -/
theorem clusters_append {d : Char} (visible : columnsOf c ≠ 0)
    (apart : (d :: s).getLast? ≠ some joiner) (rest : List Char) :
    clusters (d :: s ++ c :: rest) = clusters (d :: s) ++ clusters (c :: rest) := by
  cases s with
  | nil => exact clustersAfter_cons visible _ rest
  | cons e more => exact clustersAfter_append visible (by simpa using apart) _ rest

theorem columns_append (visible : columnsOf c ≠ 0) (apart : s.getLast? ≠ some joiner)
    (rest : List Char) : columns (s ++ c :: rest) = columns s + columns (c :: rest) := by
  rw [columns_eq_totalSize, clustersAfter_append visible apart, totalSize_append,
    ← columns_eq_totalSize, columns_cons visible]

theorem size_add_ne_zero {current : Cluster} (solid : current.size ≠ 0) (c : Char) :
    (current.add c).size ≠ 0 := by
  unfold Cluster.add
  dsimp only
  split
  · exact nofun
  · exact solid

/-- Of the clusters of a text only the first one may take no column. -/
theorem exists_clustersAfter (current : Cluster) (s : List Char) :
    ∃ first others, clustersAfter current s = first :: others ∧
      (current.size ≠ 0 → first.size ≠ 0) ∧ ∀ cluster ∈ others, cluster.size ≠ 0 := by
  fun_induction clustersAfter current s with
  | case1 current => exact ⟨current, [], rfl, id, List.forall_mem_nil _⟩
  | case2 current c hollow =>
    exact ⟨current.add c, [], rfl, fun solid => size_add_ne_zero solid c, List.forall_mem_nil _⟩
  | case3 current c visible =>
    exact ⟨current, [.ofChar c], rfl, id, by simpa [Cluster.ofChar] using visible⟩
  | case4 current d rest ih => exact ih
  | case5 current c d rest notJoiner hollow ih =>
    obtain ⟨first, others, same, solid, later⟩ := ih
    exact ⟨first, others, same, fun here => solid (size_add_ne_zero here c), later⟩
  | case6 current c d rest notJoiner visible ih =>
    obtain ⟨first, others, same, solid, later⟩ := ih
    exact ⟨current, first :: others, by rw [same], id,
      List.forall_mem_cons.mpr ⟨solid visible, later⟩⟩

theorem columns_pos (visible : columnsOf c ≠ 0) (rest : List Char) : 0 < columns (c :: rest) := by
  obtain ⟨first, others, same, solid, -⟩ := exists_clustersAfter (.ofChar c) rest
  have here : first.size ≠ 0 := solid visible
  rw [columns_cons visible, clusters, same, totalSize_cons]
  omega

end

/-- Each character of the text takes one column. -/
def Single (s : List Char) : Prop := ∀ c ∈ s, columnsOf c = 1

namespace Single

variable {s t : List Char}

theorem nil : Single [] := nofun

theorem append (first : Single s) (second : Single t) : Single (s ++ t) :=
  fun c member => (List.mem_append.mp member).elim (first c) (second c)

theorem subset (single : Single t) (inside : s ⊆ t) : Single s :=
  fun c member => single c (inside member)

theorem of_ascii (all : ∀ c ∈ s, 0x20 ≤ c.toNat ∧ c.toNat < 0x7F) : Single s := fun c member =>
  columnsOf_of_ascii (all c member).1 (all c member).2

theorem of_number (n : Nat) : Single (toString n).toList := by
  refine of_ascii fun c member => ?_
  rw [Nat.toString_eq_repr, Nat.toList_repr] at member
  have range := range_of_isDigit (Nat.isDigit_of_mem_toDigits (by omega) (by omega) member)
  omega

theorem clustersAfter_eq (single : Single s) (current : Cluster) :
    clustersAfter current s = current :: s.map .ofChar := by
  induction s generalizing current with
  | nil => rfl
  | cons c rest ih =>
    have visible : columnsOf c ≠ 0 := by simp [single c List.mem_cons_self]
    rw [clustersAfter_cons visible, clusters, ih (single.subset (List.subset_cons_self c rest)),
      List.map_cons]

/-- Each character is a cluster. -/
theorem clusters_eq (single : Single s) : clusters s = s.map .ofChar := by
  cases s with
  | nil => rfl
  | cons c rest =>
    rw [clusters, clustersAfter_eq (single.subset (List.subset_cons_self c rest)), List.map_cons]

theorem totalSize_map (single : Single s) : totalSize (s.map .ofChar) = s.length := by
  induction s with
  | nil => rfl
  | cons c rest ih =>
    rw [List.map_cons, totalSize_cons, ih (single.subset (List.subset_cons_self c rest)),
      List.length_cons, Nat.add_comm]
    exact congrArg _ (single c List.mem_cons_self)

theorem columns_eq (single : Single s) : columns s = s.length := by
  rw [columns_eq_totalSize, clustersAfter_eq single, totalSize_cons, totalSize_map single]
  exact Nat.zero_add _

end Single

end DependencyAudit.Text
