import DependencyAudit.FileSystem.Memory
import DependencyAudit.Proofs.Path
import Mathlib.Data.List.Basic

namespace DependencyAudit.FileSystem

/-- Keys that are kept apart lead to what they led to before. -/
theorem lookup_map {α β γ δ : Type} [BEq α] [LawfulBEq α] [BEq β] [LawfulBEq β] {key : α → β}
    (apart : Function.Injective key) (value : α → γ → δ) (pairs : List (α × γ)) (a : α) :
    (pairs.map fun pair => (key pair.1, value pair.1 pair.2)).lookup (key a) =
      (pairs.lookup a).map (value a) := by
  induction pairs with
  | nil => rfl
  | cons first rest ih =>
    rw [List.map_cons, List.lookup_cons, List.lookup_cons, ih]
    by_cases here : a = first.1
    · rw [here, beq_self_eq_true, beq_self_eq_true]
      rfl
    · rw [beq_eq_false_iff_ne.mpr here, beq_eq_false_iff_ne.mpr (apart.ne here)]

section

variable {α : Type} {p other : Path} {value : α}

theorem lookup_putAt_self (pairs : List (Path × α)) :
    (putAt p value pairs).lookup p = some value := by
  induction pairs with
  | nil => simp [putAt]
  | cons first rest ih =>
    obtain ⟨at_, old⟩ := first
    rw [putAt]
    split
    next => simp
    next apart => rw [List.lookup_cons, beq_eq_false_iff_ne.mpr (Ne.symm apart), ih]

theorem lookup_putAt_of_ne (apart : other ≠ p) (pairs : List (Path × α)) :
    (putAt p value pairs).lookup other = pairs.lookup other := by
  induction pairs with
  | nil => simp [putAt, List.lookup_cons, beq_eq_false_iff_ne.mpr apart]
  | cons first rest ih =>
    obtain ⟨at_, old⟩ := first
    rw [putAt]
    split
    next here =>
      subst here
      rw [List.lookup_cons, List.lookup_cons, beq_eq_false_iff_ne.mpr apart]
    next => rw [List.lookup_cons, List.lookup_cons, ih]

/-- The paths of the list afterwards are those before, and the one that has been set. -/
theorem exists_mem_putAt {holds : Path → Prop} {pairs : List (Path × α)} :
    (∃ pair ∈ putAt p value pairs, holds pair.1) ↔ (∃ pair ∈ pairs, holds pair.1) ∨ holds p := by
  induction pairs with
  | nil => simp [putAt]
  | cons first rest ih =>
    obtain ⟨at_, old⟩ := first
    rw [putAt]
    split
    next here =>
      subst here
      simp only [List.mem_cons, exists_eq_or_imp]
      exact (or_iff_left_of_imp .inl).symm
    next =>
      simp only [List.mem_cons, exists_eq_or_imp, ih, or_assoc]

end

namespace Memory

variable {m : Memory} {p directory : Path} {name text : String} {entry : Entry}

theorem mem_namesIn :
    name ∈ m.namesIn directory ↔ ∃ node ∈ m.nodes, (directory.child name).Within node.1 := by
  rw [namesIn, List.mem_eraseDups, List.mem_filterMap]
  refine exists_congr fun node => and_congr_right fun _ => ?_
  rw [nameBelow?, Option.bind_eq_some_iff]
  constructor
  · intro holds
    obtain ⟨rest, leads, first⟩ := holds
    obtain ⟨more, rfl⟩ := List.head?_eq_some_iff.mp first
    exact ⟨more, by rw [Path.relativeTo?_eq_some_iff.mp leads]; simp [Path.child]⟩
  · intro holds
    obtain ⟨more, same⟩ := holds
    refine ⟨name :: more, Path.relativeTo?_eq_some_iff.mpr ?_, rfl⟩
    rw [same]
    simp [Path.child]

theorem isDirectory_iff :
    m.isDirectory p ↔ m.node? p = some .directory ∨ ∃ node ∈ m.nodes, p.Below node.1 := by
  rw [isDirectory, Bool.or_eq_true, beq_iff_eq, Bool.not_eq_true', List.isEmpty_eq_false_iff_exists_mem]
  refine or_congr_right ?_
  simp only [mem_namesIn, Path.Below]
  exact ⟨fun ⟨name, node, entered, within⟩ => ⟨node, entered, name, within⟩,
    fun ⟨node, entered, name, within⟩ => ⟨name, node, entered, within⟩⟩

/-- Above an entry of the tree there are only directories. -/
theorem isDirectory_of_below {node : Path × Node} (entered : node ∈ m.nodes)
    (below : p.Below node.1) : m.isDirectory p :=
  isDirectory_iff.mpr (.inr ⟨node, entered, below⟩)

theorem exists_mem_of_node? {node : Node} (stands : m.node? p = some node) :
    (p, node) ∈ m.nodes := by
  obtain ⟨before, after, shape, -⟩ := List.lookup_eq_some_iff.mp stands
  rw [shape]
  exact List.mem_append_right _ List.mem_cons_self

theorem isDirectory_of_below_node? {node : Node} (stands : m.node? p = some node)
    (below : directory.Below p) : m.isDirectory directory :=
  isDirectory_of_below (exists_mem_of_node? stands) below

/-- What a directory lists: names of what stands below it, unless accesses to it fail. -/
theorem mem_list_iff :
    (∃ entries, m.list directory = .ok entries ∧ entry ∈ entries) ↔
      m.outages.lookup directory = none ∧ entry.name ∈ m.namesIn directory ∧
        entry.kind = m.kindOf (directory.child entry.name) := by
  constructor
  · intro holds
    obtain ⟨entries, listed, member⟩ := holds
    unfold list at listed
    split at listed
    · cases listed
    next accessible =>
      split at listed
      · cases listed
        obtain ⟨name, inListing, rfl⟩ := List.mem_map.mp member
        exact ⟨accessible, inListing, rfl⟩
      · split at listed <;> cases listed
  · intro holds
    obtain ⟨accessible, inListing, kind⟩ := holds
    have isDirectory : m.isDirectory directory := by
      obtain ⟨node, entered, within⟩ := mem_namesIn.mp inListing
      exact isDirectory_of_below entered ⟨entry.name, within⟩
    refine ⟨_, by rw [list, accessible]; exact if_pos isDirectory, ?_⟩
    exact List.mem_map.mpr ⟨entry.name, inListing, by rw [← kind]⟩

theorem kindOf_eq_directory_iff : m.kindOf p = .directory ↔ m.isDirectory p := by
  unfold kindOf
  split
  next stands => simp [stands]
  next other =>
    simp only [other]
    split <;> simp

theorem kindOf_eq_file_iff :
    m.kindOf p = .file ↔ ¬ m.isDirectory p ∧ ∃ text, m.node? p = some (.file text) := by
  unfold kindOf
  split
  next stands => simp [stands]
  next other =>
    split
    next text stands => simp [other, stands]
    next absent =>
      refine iff_of_false (by simp) fun ⟨_, text, stands⟩ => absent text stands

theorem mem_namesIn_of_node? {node : Node} (stands : m.node? (directory.child name) = some node) :
    name ∈ m.namesIn directory :=
  mem_namesIn.mpr ⟨_, exists_mem_of_node? stands, .refl _⟩

/-- The directories that a directory lists. -/
theorem lists_directory_iff :
    (∃ entries, m.list directory = .ok entries ∧ ⟨name, .directory⟩ ∈ entries) ↔
      m.outages.lookup directory = none ∧ m.isDirectory (directory.child name) := by
  rw [mem_list_iff, eq_comm (a := Kind.directory), kindOf_eq_directory_iff]
  refine and_congr_right fun _ => and_iff_right_of_imp fun stands => ?_
  rcases isDirectory_iff.mp stands with node | ⟨node, entered, below⟩
  · exact mem_namesIn_of_node? node
  · exact mem_namesIn.mpr ⟨node, entered, below.within⟩

/-- The files that a directory lists. -/
theorem lists_file_iff :
    (∃ entries, m.list directory = .ok entries ∧ ⟨name, .file⟩ ∈ entries) ↔
      m.outages.lookup directory = none ∧ ¬ m.isDirectory (directory.child name) ∧
        ∃ text, m.node? (directory.child name) = some (.file text) := by
  rw [mem_list_iff, eq_comm (a := Kind.file), kindOf_eq_file_iff]
  refine and_congr_right fun _ => and_iff_right_of_imp fun stands => ?_
  obtain ⟨-, _, node⟩ := stands
  exact mem_namesIn_of_node? node

theorem node?_write_self : (m.write p text).node? p = some (.file text) := lookup_putAt_self _

theorem node?_write_of_ne (apart : directory ≠ p) :
    (m.write p text).node? directory = m.node? directory := lookup_putAt_of_ne apart _

/-- Where a text is entered, there is a file, and above it there are directories. Nothing else becomes
a directory, and nothing ceases to be one. -/
theorem isDirectory_write_iff (noDirectory : m.isDirectory p = false) :
    (m.write p text).isDirectory directory ↔ m.isDirectory directory ∨ directory.Below p := by
  have below : (∃ node ∈ (m.write p text).nodes, directory.Below node.1) ↔
      (∃ node ∈ m.nodes, directory.Below node.1) ∨ directory.Below p :=
    exists_mem_putAt
  rw [isDirectory_iff, isDirectory_iff, below]
  by_cases here : directory = p
  · subst here
    have notOne : ¬ (m.node? directory = some .directory ∨
        ∃ node ∈ m.nodes, directory.Below node.1) := by
      rw [← isDirectory_iff, noDirectory]
      exact Bool.false_ne_true
    simp only [node?_write_self, Option.some.injEq, reduceCtorEq, false_or, notOne]
    exact or_iff_right fun holds => notOne (.inr holds)
  · rw [node?_write_of_ne here, or_assoc]

/-- A file stays one when a text is entered elsewhere, below directories or nothing. -/
theorem not_isDirectory_write {path : Path} {node : Node} (noDirectory : m.isDirectory p = false)
    (above : ∀ directory, directory.Below p → m.isDirectory directory ∨ m.node? directory = none)
    (isFile : ¬ m.isDirectory path) (found : m.node? path = some node) :
    ¬ (m.write p text).isDirectory path := by
  intro stands
  -- The text can have made a directory only of what was one before, or of nothing.
  rcases (isDirectory_write_iff noDirectory).mp stands with before | below
  · exact isFile before
  · rcases above path below with before | nothing
    · exact isFile before
    · rw [found] at nothing
      cases nothing

theorem read_eq_ok_iff :
    m.read p = .ok text ↔ m.outages.lookup p = none ∧ m.node? p = some (.file text) := by
  unfold read
  cases m.outages.lookup p with
  | some outage => simp
  | none =>
    cases m.node? p with
    | none => simp
    | some node => cases node <;> simp

/-- What can be read exists. -/
theorem exists?_of_read (m : Memory) {p : Path} {text : String} (read : m.read p = .ok text) :
    m.view.exists? p = .ok true := by
  simp [view, (read_eq_ok_iff.mp read).2]

/-- Other files can be read as before. -/
theorem read_write_of_ne {other : Path} (apart : other ≠ p) {content : String}
    (stands : m.node? other = some (.file content)) :
    (m.write p text).read other = m.read other := by
  have same : (m.write p text).node? other = some (.file content) :=
    (node?_write_of_ne apart).trans stands
  rw [read, read, same, stands, write]

end Memory

end DependencyAudit.FileSystem
