import DependencyAudit.Proofs.FileSystem.Limits
import DependencyAudit.Proofs.FileSystem.Listing
import DependencyAudit.Proofs.FileSystem.Memory
import DependencyAudit.Proofs.Scan.Order
import DependencyAudit.Proofs.Text.Utf8

namespace DependencyAudit.FileSystem

/-- What is entered in a tree. -/
inductive Item where
  | text (s : String)
  | directory
  deriving DecidableEq, Repr

/-- What a listing says of an item. -/
def Item.kind : Item → Kind
  | text _ => .file
  | directory => .directory

/-- The item as it is read: with one kind of line end. -/
def Item.unified : Item → Item
  | text s => .text (String.ofList (Text.unifyLineEnds s.toList))
  | directory => .directory

/-- The item in memory. -/
def Item.node : Item → Node
  | text s => .file s
  | directory => .directory

/-- A tree of texts and directories by the names that lead to them. The tree itself is no entry of
it, and below a text there is none. -/
@[ext]
structure Tree where
  entries : List (List String × Item)
  named : ∀ entry ∈ entries, entry.1 ≠ []
  leaves : ∀ entry ∈ entries, entry.2 ≠ .directory →
    ∀ other ∈ entries, entry.1 <+: other.1 → other.1 = entry.1

namespace Tree

/-- What stands where names lead to: an entry, or a directory above one. -/
def at? (t : Tree) (names : List String) : Option Item :=
  match t.entries.lookup names with
  | some item => some item
  | none => if ∃ entry ∈ t.entries, names <+: entry.1 then some .directory else none

/-- The tree as it is read. -/
def unified (t : Tree) : Tree where
  entries := t.entries.map fun entry => (entry.1, entry.2.unified)
  named := by
    intro entry entered
    obtain ⟨before, written, rfl⟩ := List.mem_map.mp entered
    exact t.named before written
  leaves := by
    intro entry entered isText other entered' leads
    obtain ⟨before, written, rfl⟩ := List.mem_map.mp entered
    obtain ⟨before', written', rfl⟩ := List.mem_map.mp entered'
    refine t.leaves before written (fun isDirectory => isText ?_) before' written' leads
    exact congrArg Item.unified isDirectory

/-- The tree in memory, at a path. -/
def memory (t : Tree) (project : Path) : Memory where
  nodes := t.entries.map fun entry => (project.down entry.1, entry.2.node)
  outages := []

variable {t : Tree} {names : List String} {item : Item} {s : String}

theorem mem_of_lookup (found : t.entries.lookup names = some item) : (names, item) ∈ t.entries := by
  obtain ⟨before, after, shape, -⟩ := List.lookup_eq_some_iff.mp found
  rw [shape]
  exact List.mem_append_right _ List.mem_cons_self

theorem exists_lookup (entered : (names, item) ∈ t.entries) :
    ∃ first, t.entries.lookup names = some first := by
  refine Option.isSome_iff_exists.mp (List.lookup_isSome_iff.mpr ?_)
  exact ⟨(names, item), entered, beq_self_eq_true names⟩

theorem isSome_at?_iff : (t.at? names).isSome ↔ ∃ entry ∈ t.entries, names <+: entry.1 := by
  unfold at?
  split
  next found =>
    exact iff_of_true rfl ⟨_, mem_of_lookup found, List.prefix_rfl⟩
  next =>
    split
    next stands => exact iff_of_true rfl stands
    next nothing => exact iff_of_false (by simp) nothing

theorem at?_eq_text_iff : t.at? names = some (.text s) ↔ t.entries.lookup names = some (.text s) := by
  unfold at?
  split
  next found => rw [found]
  next absent =>
    rw [absent]
    split <;> simp

/-- A directory is one that is entered, or one with something below it. -/
theorem at?_eq_directory_iff : t.at? names = some .directory ↔
    t.entries.lookup names = some .directory ∨
      ∃ name, ∃ entry ∈ t.entries, names ++ [name] <+: entry.1 := by
  unfold at?
  split
  next item found =>
    rw [found]
    cases item with
    | directory => simp
    | text s =>
      refine iff_of_false (by simp) ?_
      rintro (isDirectory | ⟨name, entry, entered, leads⟩)
      · cases isDirectory
      · have leads' : names <+: entry.1 := (List.prefix_append names [name]).trans leads
        have same : entry.1 = names := t.leaves _ (mem_of_lookup found) (by simp) entry entered leads'
        have longer := leads.length_le
        rw [same, List.length_append, List.length_singleton] at longer
        omega
  next absent =>
    rw [absent]
    simp only [ite_eq_left_iff, reduceCtorEq, imp_false, not_not, false_or]
    constructor
    · intro holds
      obtain ⟨entry, entered, rest, shape⟩ := holds
      cases rest with
      | nil =>
        rw [List.append_nil] at shape
        have written : (names, entry.2) ∈ t.entries := by rwa [shape]
        obtain ⟨first, found⟩ := exists_lookup written
        rw [found] at absent
        cases absent
      | cons name more =>
        exact ⟨name, entry, entered, more, by rw [← shape, List.append_assoc]; rfl⟩
    · intro holds
      obtain ⟨name, entry, entered, leads⟩ := holds
      exact ⟨entry, entered, (List.prefix_append names [name]).trans leads⟩

theorem at?_unified : t.unified.at? names = (t.at? names).map Item.unified := by
  have found : t.unified.entries.lookup names = (t.entries.lookup names).map Item.unified :=
    lookup_map Function.injective_id (fun _ => Item.unified) t.entries names
  have above : (∃ entry ∈ t.unified.entries, names <+: entry.1) ↔
      ∃ entry ∈ t.entries, names <+: entry.1 := by
    simp only [unified, List.mem_map, exists_exists_and_eq_and]
  unfold at?
  rw [found]
  cases t.entries.lookup names with
  | some item => rfl
  | none =>
    simp only [Option.map_none, above]
    split <;> rfl

theorem at?_unified_eq_directory_iff :
    t.unified.at? names = some .directory ↔ t.at? names = some .directory := by
  rw [at?_unified]
  cases t.at? names with
  | none => simp
  | some item => cases item <;> simp [Item.unified]

theorem at?_nil (nonempty : t.entries ≠ []) : t.at? [] = some .directory := by
  obtain ⟨entry, rest, shape⟩ := List.exists_cons_of_ne_nil nonempty
  have entered : entry ∈ t.entries := by
    rw [shape]
    exact List.mem_cons_self
  obtain ⟨name, more, named⟩ := List.exists_cons_of_ne_nil (t.named entry entered)
  exact at?_eq_directory_iff.mpr (.inr ⟨name, entry, entered, more, by rw [named]; rfl⟩)

end Tree

/-- The second item is the first one, or its text with a carriage return before each line feed. -/
inductive Item.Converts : Item → Item → Prop
  | same (item : Item) : Converts item item
  | text {s : String} : '\r' ∉ s.toList →
      Converts (.text s) (.text (String.ofList (Text.withReturns s.toList)))

theorem Item.Converts.unified_eq {item other : Item} (converts : item.Converts other) :
    other.unified = item.unified := by
  cases converts with
  | same => rfl
  | text plain =>
    rw [unified, unified, String.toList_ofList, Text.unifyLineEnds_withReturns plain,
      Text.unifyLineEnds_eq_self plain]

/-- The second tree is the first one with other line ends in some of its texts. -/
def Tree.Converts (t t' : Tree) : Prop :=
  List.Forall₂ (fun entry other => other.1 = entry.1 ∧ entry.2.Converts other.2) t.entries t'.entries

/-- Both are read as the same tree. -/
theorem Tree.Converts.unified_eq {t t' : Tree} (converts : t.Converts t') :
    t'.unified = t.unified := by
  refine Tree.ext ?_
  change t'.entries.map _ = t.entries.map _
  unfold Tree.Converts at converts
  generalize t.entries = entries at converts ⊢
  generalize t'.entries = entries' at converts ⊢
  induction converts with
  | nil => rfl
  | cons first _ ih => rw [List.map_cons, List.map_cons, ih, first.1, first.2.unified_eq]

theorem Tree.Converts.fits {t t' : Tree} {project : Path} (converts : t.Converts t')
    (fits : ∀ entry ∈ t.entries, (project.down entry.1).Fits) :
    ∀ entry ∈ t'.entries, (project.down entry.1).Fits := by
  intro entry entered
  have read : (entry.1, entry.2.unified) ∈ t'.unified.entries := List.mem_map_of_mem entered
  rw [converts.unified_eq] at read
  obtain ⟨before, written, same⟩ := List.mem_map.mp read
  rw [← (Prod.mk.inj same).1]
  exact fits before written

/-- What a view answers where the tree stands at a path, for all paths that a disk can have. An empty
tree need not be there. -/
structure View.Shows (view : View) (project : Path) (t : Tree) : Prop where
  exists_eq : ∀ names, names ≠ [] → (project.down names).Fits →
    view.exists? (project.down names) = .ok (t.at? names).isSome
  isDirectory_eq : ∀ names, (names ≠ [] ∨ t.entries ≠ []) → (project.down names).Fits →
    view.isDirectory (project.down names) = .ok (t.at? names == some .directory)
  read_text : ∀ names s, (project.down names).Fits → t.at? names = some (.text s) →
    view.read (project.down names) = .ok s
  read_directory : ∀ names, names ≠ [] → (project.down names).Fits → t.at? names = some .directory →
    view.read (project.down names) = .error (.isDirectory (project.down names).toText)
  list : ∀ names, (project.down names).Fits → t.at? names = some .directory →
    ∃ entries, view.list (project.down names) = .ok entries ∧
      ∀ entry, entry ∈ entries ↔
        ∃ item, t.at? (names ++ [entry.name]) = some item ∧ entry.kind = item.kind
  once : view.ListsOnce

theorem View.ListsOnce.of_reorders {view other : View} (once : view.ListsOnce)
    (same : view.Reorders other) : other.ListsOnce := by
  intro directory entries listed
  rcases same.list directory with ⟨_, _, refused⟩ | ⟨_, _, listed', listed'', perm⟩
  · rw [refused] at listed
    cases listed
  · rw [listed] at listed''
    cases listed''
    exact (perm.map Entry.name).nodup_iff.mp (once listed')

/-- The order of listings says nothing of a tree. -/
theorem View.Shows.of_reorders {view other : View} {project : Path} {t : Tree}
    (shown : view.Shows project t) (same : view.Reorders other) : other.Shows project t where
  exists_eq names named fits := by rw [same.exists_eq, shown.exists_eq names named fits]
  isDirectory_eq names there fits := by
    rw [same.isDirectory_eq, shown.isDirectory_eq names there fits]
  read_text names s fits isText := by rw [same.read_eq, shown.read_text names s fits isText]
  read_directory names named fits isDirectory := by
    rw [same.read_eq, shown.read_directory names named fits isDirectory]
  list := by
    intro names fits isDirectory
    obtain ⟨entries, listed, member⟩ := shown.list names fits isDirectory
    rcases same.list (project.down names) with ⟨_, refused, _⟩ | ⟨_, others, listed', there, perm⟩
    · rw [refused] at listed
      cases listed
    · rw [listed] at listed'
      cases listed'
      exact ⟨others, there, fun entry => perm.mem_iff.symm.trans (member entry)⟩
  once := View.ListsOnce.of_reorders shown.once same

namespace Tree

variable {t : Tree} {project : Path} {names : List String} {name s : String} {item : Item}

theorem node?_memory :
    (t.memory project).node? (project.down names) = (t.entries.lookup names).map Item.node :=
  lookup_map (fun _ _ same => Path.down_inj.mp same) (fun _ => Item.node) t.entries names

/-- What is below a path in memory is what is below its names in the tree. -/
theorem mem_namesIn_memory :
    name ∈ (t.memory project).namesIn (project.down names) ↔ (t.at? (names ++ [name])).isSome := by
  rw [Memory.mem_namesIn, isSome_at?_iff, Path.child_down]
  simp only [memory, List.mem_map, exists_exists_and_eq_and, Path.within_down_iff]

theorem isDirectory_memory :
    (t.memory project).isDirectory (project.down names) ↔ t.at? names = some .directory := by
  have entered : (t.entries.lookup names).map Item.node = some .directory ↔
      t.entries.lookup names = some .directory := by
    cases t.entries.lookup names with
    | none => simp
    | some item => cases item <;> simp [Item.node]
  have below : (∃ node ∈ (t.memory project).nodes, (project.down names).Below node.1) ↔
      ∃ name, ∃ entry ∈ t.entries, names ++ [name] <+: entry.1 := by
    simp only [memory, List.mem_map, exists_exists_and_eq_and, Path.Below, Path.child_down,
      Path.within_down_iff]
    constructor
    · intro holds
      obtain ⟨entry, entered, name, leads⟩ := holds
      exact ⟨name, entry, entered, leads⟩
    · intro holds
      obtain ⟨name, entry, entered, leads⟩ := holds
      exact ⟨entry, entered, name, leads⟩
  rw [Memory.isDirectory_iff, at?_eq_directory_iff, node?_memory, entered, below]

theorem node?_memory_of_text (isText : t.at? names = some (.text s)) :
    (t.memory project).node? (project.down names) = some (.file s) := by
  rw [node?_memory, at?_eq_text_iff.mp isText]
  rfl

theorem kindOf_memory (stands : t.at? names = some item) :
    (t.memory project).kindOf (project.down names) = item.kind := by
  cases item with
  | directory => exact Memory.kindOf_eq_directory_iff.mpr (isDirectory_memory.mpr stands)
  | text s =>
    refine Memory.kindOf_eq_file_iff.mpr ⟨fun isDirectory => ?_, s, node?_memory_of_text stands⟩
    rw [isDirectory_memory, stands] at isDirectory
    cases isDirectory

theorem exists?_memory (t : Tree) :
    (t.memory project).view.exists? (project.down names) = .ok (t.at? names).isSome := by
  refine congrArg Except.ok (Bool.eq_iff_iff.mpr ?_)
  rw [Bool.or_eq_true, isDirectory_memory, node?_memory, Option.isSome_map]
  cases stands : t.at? names with
  | none =>
    unfold at? at stands
    split at stands
    next => cases stands
    next absent => simp [absent]
  | some item =>
    cases item with
    | directory => simp
    | text s => simp [at?_eq_text_iff.mp stands]

theorem read_memory_of_directory (isDirectory : t.at? names = some .directory) :
    (t.memory project).read (project.down names) =
      .error (.isDirectory (project.down names).toText) := by
  rw [Memory.read, node?_memory]
  cases entered : t.entries.lookup names with
  | none => exact congrArg Except.error (if_pos (isDirectory_memory.mpr isDirectory))
  | some item =>
    cases item with
    | directory => rfl
    | text s =>
      rw [at?_eq_text_iff.mpr entered] at isDirectory
      cases isDirectory

theorem mem_list_memory {entries : List Entry} {entry : Entry}
    (listed : (t.memory project).list (project.down names) = .ok entries) :
    entry ∈ entries ↔
      ∃ item, t.at? (names ++ [entry.name]) = some item ∧ entry.kind = item.kind := by
  have member : (∃ entries, (t.memory project).list (project.down names) = .ok entries ∧
      entry ∈ entries) ↔ _ := Memory.mem_list_iff
  rw [listed] at member
  simp only [Except.ok.injEq, exists_eq_left', mem_namesIn_memory, Path.child_down] at member
  rw [member]
  constructor
  · intro holds
    obtain ⟨-, there, kind⟩ := holds
    obtain ⟨item, there⟩ := Option.isSome_iff_exists.mp there
    exact ⟨item, there, kind.trans (kindOf_memory there)⟩
  · intro holds
    obtain ⟨item, there, kind⟩ := holds
    exact ⟨rfl, by rw [there]; rfl, kind.trans (kindOf_memory there).symm⟩

/-- A tree in memory is seen as that tree. -/
theorem shows_memory (t : Tree) (project : Path) : (t.memory project).view.Shows project t where
  exists_eq names _ _ := exists?_memory t
  isDirectory_eq := by
    intro names _ _
    refine congrArg Except.ok (Bool.eq_iff_iff.mpr ?_)
    rw [isDirectory_memory, beq_iff_eq]
  read_text names s _ isText := Memory.read_eq_ok_iff.mpr ⟨rfl, node?_memory_of_text isText⟩
  read_directory names _ _ isDirectory := read_memory_of_directory isDirectory
  list := by
    intro names _ isDirectory
    have stands : (t.memory project).isDirectory (project.down names) :=
      isDirectory_memory.mpr isDirectory
    have listed : ∃ entries, (t.memory project).list (project.down names) = .ok entries :=
      ⟨_, if_pos stands⟩
    obtain ⟨entries, listed⟩ := listed
    exact ⟨entries, listed, fun entry => mem_list_memory listed⟩
  once := Memory.listsOnce _

end Tree

end DependencyAudit.FileSystem
