import DependencyAudit.Path
import DependencyAudit.Proofs.Text.Pieces

namespace DependencyAudit

namespace Path

/-- A text without a slash writes a name, unless it is empty or the dot. -/
theorem ofString_of_plain {name : String} (noSlash : '/' ∉ name.toList) (isName : name ≠ "")
    (notDot : name ≠ ".") : ofString name = ⟨.here, [name]⟩ := by
  have anchor : anchorOf name.toList = .here := by
    unfold anchorOf
    split
    next shape => simp [shape] at noSlash
    next shape => simp [shape] at noSlash
    next shape => simp [shape] at noSlash
    · rfl
  rw [ofString, anchor, Text.piecesAt_of_not_mem noSlash]
  simp [isName, notDot]

theorem not_mem_toText {c : Char} {p : Path} (apart : c ∉ "./".toList)
    (absent : ∀ name ∈ p.names, c ∉ name.toList) : c ∉ p.toText.toList := by
  have plain : c ≠ '.' ∧ c ≠ '/' := by simpa using apart
  have names : c ∉ (String.intercalate "/" p.names).toList :=
    Text.not_mem_intercalate (by simpa using plain.2) absent
  unfold toText
  split
  · simpa using plain.1
  · rw [String.toList_append, List.mem_append, not_or]
    refine ⟨?_, names⟩
    cases p.anchor <;> simp [anchorText, plain.2]

theorem below?_eq_some_iff {root names rest : List String} :
    below? root names = some rest ↔ names = root ++ rest := by
  induction root generalizing names with
  | nil => simp [below?, eq_comm]
  | cons first root ih =>
    cases names with
    | nil => simp [below?]
    | cons name names =>
      rw [below?]
      split
      next same => simp [same, ih]
      next other => simp [Ne.symm other]

theorem relativeTo?_eq_some_iff {p root : Path} {rest : List String} :
    p.relativeTo? root = some rest ↔ p = ⟨root.anchor, root.names ++ rest⟩ := by
  unfold relativeTo?
  obtain ⟨anchor, names⟩ := p
  split
  next same =>
    change anchor = root.anchor at same
    simp only [below?_eq_some_iff, mk.injEq, same, true_and]
  next other => simp [other]

/-- The second path is the first one or stands below it. -/
def Within (root path : Path) : Prop := ∃ names, path = ⟨root.anchor, root.names ++ names⟩

/-- The second path stands below the first one. -/
def Below (root path : Path) : Prop := ∃ name, Within (root.child name) path

theorem Within.refl (p : Path) : Within p p := ⟨[], by rw [List.append_nil]⟩

theorem Within.trans {root middle path : Path} (first : Within root middle)
    (second : Within middle path) : Within root path := by
  obtain ⟨names, rfl⟩ := first
  obtain ⟨more, rfl⟩ := second
  exact ⟨names ++ more, by simp only [List.append_assoc]⟩

theorem within_child (p : Path) (name : String) : Within p (p.child name) := ⟨[name], rfl⟩

theorem below_child (p : Path) (name : String) : Below p (p.child name) := ⟨name, .refl _⟩

theorem Below.within {root path : Path} (below : Below root path) : Within root path := by
  obtain ⟨name, within⟩ := below
  exact (within_child root name).trans within

theorem Below.trans_within {root middle path : Path} (below : Below root middle)
    (within : Within middle path) : Below root path := by
  obtain ⟨name, first⟩ := below
  exact ⟨name, first.trans within⟩

theorem Within.trans_below {root middle path : Path} (within : Within root middle)
    (below : Below middle path) : Below root path := by
  obtain ⟨names, rfl⟩ := within
  obtain ⟨name, more, rfl⟩ := below
  cases names with
  | nil => exact ⟨name, more, by simp [child]⟩
  | cons first rest => exact ⟨first, rest ++ name :: more, by simp [child]⟩

/-- What stands above an entry of a directory is the directory or stands above it. -/
theorem below_child_iff {root p : Path} {name : String} :
    Below root (p.child name) ↔ Within root p := by
  constructor
  · intro below
    obtain ⟨first, names, same⟩ := below
    obtain ⟨anchor, whole⟩ := mk.inj same
    change p.anchor = root.anchor at anchor
    rw [child, List.append_assoc, List.singleton_append] at whole
    rcases List.eq_nil_or_concat names with rfl | ⟨before, last, rfl⟩
    · exact ⟨[], by rw [List.append_nil, ← (List.append_inj' whole rfl).1, ← anchor]⟩
    · rw [List.concat_eq_append, ← List.cons_append, ← List.append_assoc] at whole
      exact ⟨first :: before, by rw [← (List.append_inj' whole rfl).1, ← anchor]⟩
  · intro within
    exact within.trans_below (below_child p name)

theorem within_iff {root path : Path} : Within root path ↔ root = path ∨ Below root path := by
  constructor
  · intro within
    obtain ⟨names, rfl⟩ := within
    cases names with
    | nil => exact .inl (by rw [List.append_nil])
    | cons first rest => exact .inr ⟨first, rest, by simp [child]⟩
  · rintro (rfl | below)
    · exact .refl root
    · exact below.within

/-- Of two paths above a third one, one stands above the other. -/
theorem Within.within_or_below {first second path : Path} (one : Within first path)
    (other : Within second path) : Within first second ∨ Below second first := by
  obtain ⟨names, rfl⟩ := one
  obtain ⟨names', same⟩ := other
  obtain ⟨anchor, whole⟩ := mk.inj same
  rcases List.append_eq_append_iff.mp whole with ⟨between, shape, -⟩ | ⟨between, shape, -⟩
  · exact .inl ⟨between, by rw [← shape, anchor]⟩
  · cases between with
    | nil => exact .inl ⟨[], by rw [anchor, shape, List.append_nil, List.append_nil]⟩
    | cons name rest =>
      refine .inr ⟨name, rest, ?_⟩
      rw [child, ← anchor, List.append_assoc, List.singleton_append, ← shape]

theorem Within.length_le {root path : Path} (within : Within root path) :
    root.names.length ≤ path.names.length := by
  obtain ⟨names, rfl⟩ := within
  simp only [List.length_append]
  omega

theorem length_names_child (p : Path) (name : String) :
    (p.child name).names.length = p.names.length + 1 := by
  simp only [child, List.length_append, List.length_singleton]

theorem Below.length_lt {root path : Path} (below : Below root path) :
    root.names.length < path.names.length := by
  obtain ⟨name, within⟩ := below
  have deep := within.length_le
  rw [length_names_child] at deep
  omega

theorem child_inj {p : Path} {first second : String} (same : p.child first = p.child second) :
    first = second := by
  simpa [child] using same

theorem child_inj_left {p q : Path} {first second : String}
    (same : p.child first = q.child second) : p = q := by
  cases p
  cases q
  simp only [child, mk.injEq] at same ⊢
  exact ⟨same.1, (List.append_inj' same.2 rfl).1⟩

/-- A path stands within one entry of a directory at most. -/
theorem Within.child_unique {p path : Path} {first second : String}
    (inFirst : Within (p.child first) path) (inSecond : Within (p.child second) path) :
    first = second := by
  obtain ⟨names, rfl⟩ := inFirst
  obtain ⟨others, same⟩ := inSecond
  simp only [child, mk.injEq, true_and, List.append_assoc, List.append_cancel_left_eq,
    List.singleton_append, List.cons.injEq] at same
  exact same.1

end Path

end DependencyAudit
