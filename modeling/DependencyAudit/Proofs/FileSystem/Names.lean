import DependencyAudit.FileSystem.Disk
import DependencyAudit.FileSystem.Memory
import DependencyAudit.Proofs.Except
import DependencyAudit.Proofs.Path
import Mathlib.Data.List.Basic

namespace DependencyAudit.FileSystem

/-- A name as a directory lists it: on one line, without a slash, and not empty. -/
structure IsName (name : String) : Prop where
  ne_empty : name ≠ ""
  noSlash : '/' ∉ name.toList
  oneLine : '\n' ∉ name.toList

instance (name : String) : Decidable (IsName name) :=
  decidable_of_iff (name ≠ "" ∧ '/' ∉ name.toList ∧ '\n' ∉ name.toList)
    ⟨fun ⟨nonempty, noSlash, oneLine⟩ => ⟨nonempty, noSlash, oneLine⟩,
      fun isName => ⟨isName.ne_empty, isName.noSlash, isName.oneLine⟩⟩

/-- The path leads from the root by names on one line each, if it leads from there at all. -/
def OneLineFrom (root p : Path) : Prop :=
  ∀ names, p.relativeTo? root = some names → ∀ n ∈ names, '\n' ∉ n.toList

/-- What directories list are names on one line each, and so are the names that lead from a root to
directories. -/
structure View.NamesOnOneLine (view : View) (root : Path) : Prop where
  listed : ∀ {directory : Path} {entries : List Entry} {entry : Entry},
    view.list directory = .ok entries → entry ∈ entries → IsName entry.name
  directory : ∀ {p : Path}, view.isDirectory p = .ok true → OneLineFrom root p

theorem OneLineFrom.child {root p : Path} {name : String} (oneLine : OneLineFrom root p)
    (isName : IsName name) : OneLineFrom root (p.child name) := by
  intro names leads n member
  rw [Path.relativeTo?_eq_some_iff, Path.child, Path.mk.injEq] at leads
  obtain ⟨anchor, same⟩ := leads
  rcases List.eq_nil_or_concat' names with rfl | ⟨before, last, rfl⟩
  · cases member
  · rw [← List.append_assoc] at same
    obtain ⟨above, sameLast⟩ := List.append_inj' same rfl
    rcases List.mem_append.mp member with inBefore | isLast
    · refine oneLine before (Path.relativeTo?_eq_some_iff.mpr ?_) n inBefore
      rw [← anchor, ← above]
    · rw [List.mem_singleton.mp isLast, ← List.singleton_inj.mp sameLast]
      exact isName.oneLine

/-- A path to a directory whose names are on one line leads there from everywhere by such names. -/
theorem OneLineFrom.of_names {root p : Path} (oneLine : ∀ n ∈ p.names, '\n' ∉ n.toList) :
    OneLineFrom root p := by
  intro names leads n member
  rw [Path.relativeTo?_eq_some_iff] at leads
  exact oneLine n (by rw [leads]; exact List.mem_append_right _ member)

namespace Memory

variable {m : Memory}

/-- What a directory lists is a name of an entry below it, and so are its own names. -/
theorem exists_node_of_mem_namesIn {p : Path} {name : String} (listed : name ∈ m.namesIn p) :
    ∃ node ∈ m.nodes, ∀ n, n ∈ p.names ∨ n = name → n ∈ node.1.names := by
  rw [namesIn, List.mem_eraseDups, List.mem_filterMap] at listed
  obtain ⟨node, entered, below⟩ := listed
  obtain ⟨rest, leads, first⟩ := Option.bind_eq_some_iff.mp below
  obtain ⟨more, rfl⟩ := List.head?_eq_some_iff.mp first
  refine ⟨node, entered, ?_⟩
  rw [Path.relativeTo?_eq_some_iff.mp leads]
  rintro n (inDirectory | rfl)
  · exact List.mem_append_left _ inDirectory
  · exact List.mem_append_right _ List.mem_cons_self

theorem namesOnOneLine (names : ∀ node ∈ m.nodes, ∀ n ∈ node.1.names, IsName n) (root : Path) :
    m.view.NamesOnOneLine root where
  listed := by
    intro directory entries entry listed member
    change m.list directory = .ok entries at listed
    unfold list at listed
    split at listed
    · cases listed
    · split at listed
      · cases listed
        obtain ⟨name, inListing, rfl⟩ := List.mem_map.mp member
        obtain ⟨node, entered, holds⟩ := exists_node_of_mem_namesIn inListing
        exact names node entered name (holds name (.inr rfl))
      · split at listed <;> cases listed
  directory := by
    intro p isDirectory
    have isDirectory : m.isDirectory p = true := Except.ok.inj isDirectory
    refine OneLineFrom.of_names fun n member => ?_
    rw [Memory.isDirectory, Bool.or_eq_true] at isDirectory
    rcases isDirectory with stands | lists
    · have found : m.nodes.lookup p = some .directory := by simpa [node?] using stands
      obtain ⟨before, after, shape, -⟩ := List.lookup_eq_some_iff.mp found
      exact (names (p, .directory) (by simp [shape]) n member).oneLine
    · obtain ⟨name, more, shape⟩ := List.exists_cons_of_ne_nil (by simpa using lists)
      have listed : name ∈ m.namesIn p := by rw [shape]; exact List.mem_cons_self
      obtain ⟨node, entered, holds⟩ := exists_node_of_mem_namesIn listed
      exact (names node entered n (holds n (.inl member))).oneLine

end Memory

namespace Disk

variable {d : Disk}

/-- A name of a place at which something stands is a name of a node, or of the place at which paths
start. -/
theorem mem_of_node? {place : Place} {node : DiskNode} (stands : d.node? place = some node)
    {name : String} (member : name ∈ place) :
    name ∈ d.here ∨ ∃ other ∈ d.nodes, name ∈ other.1 := by
  unfold node? at stands
  split at stands
  next found =>
    obtain ⟨before, after, shape, -⟩ := List.lookup_eq_some_iff.mp found
    exact .inr ⟨(place, _), shape ▸ List.mem_append_right _ List.mem_cons_self, member⟩
  · split at stands
    next above =>
      rcases above with toHere | toNode
      · exact .inl ((List.isPrefixOf_iff_prefix.mp toHere).subset member)
      · obtain ⟨other, inNodes, isPrefix⟩ := List.any_eq_true.mp toNode
        exact .inr ⟨other, inNodes, (List.isPrefixOf_iff_prefix.mp isPrefix).subset member⟩
    · cases stands

/-- Something stands at each name that leads on. -/
theorem exists_node_of_follow {links : Nat} {place last : Place} {names : List String}
    (leads : d.follow false links place names = .ok last) {name : String} (member : name ∈ names) :
    isEntryName name = false ∨ ∃ above node, d.node? (above ++ [name]) = some node := by
  fun_induction follow d false links place names generalizing last with
  | case1 => cases member
  | case2 links start rest isDir ih =>
    rcases List.mem_cons.mp member with rfl | later
    · exact .inl rfl
    · exact ih leads later
  | case3 links start rest isDir notHere ih =>
    rcases List.mem_cons.mp member with rfl | later
    · exact .inl rfl
    · exact ih leads later
  | case4 => cases leads
  | case5 => simp_all
  | case6 => cases leads
  | case7 => cases leads
  | case8 start first rest isDir notHere notUp short target isLink links ih =>
    rcases List.mem_cons.mp member with rfl | later
    · exact .inr ⟨start, _, isLink⟩
    · exact ih leads (List.mem_append_right _ later)
  | case9 links start first rest isDir notHere notUp short node notLink stands ih =>
    rcases List.mem_cons.mp member with rfl | later
    · exact .inr ⟨start, _, stands⟩
    · exact ih leads later
  | case10 => cases leads

/-- Where something stands, the names of the path lead there. -/
theorem exists_follow_of_holds {p : Path} {asks : DiskNode → Bool}
    (holds : d.holds p asks = .ok true) :
    ∃ last, d.follow false linkLimit (origin d.here p) p.names = .ok last := by
  unfold Disk.holds at holds
  split at holds
  · cases holds
  · cases looked : d.lookAt p with
    | error dead =>
      rw [looked] at holds
      cases dead <;> cases holds
    | ok node =>
      obtain ⟨last, leads, -⟩ := Except.map_eq_ok_iff.mp looked
      unfold locate at leads
      split at leads
      · cases leads
      · exact ⟨last, leads⟩

theorem namesOnOneLine (names : ∀ node ∈ d.nodes, ∀ n ∈ node.1, IsName n)
    (here : ∀ n ∈ d.here, IsName n) (root : Path) : d.view.NamesOnOneLine root where
  listed := by
    intro directory entries entry listed member
    change d.list directory = .ok entries at listed
    unfold list at listed
    split at listed
    · cases listed
    next place _ =>
      split at listed
      · cases listed
        obtain ⟨name, inListing, rfl⟩ := List.mem_map.mp member
        rw [namesIn, List.mem_filter, List.mem_eraseDups, List.mem_filterMap] at inListing
        obtain ⟨⟨node, entered, below⟩, -⟩ := inListing
        obtain ⟨rest, leads, first⟩ := Option.bind_eq_some_iff.mp below
        obtain ⟨more, rfl⟩ := List.head?_eq_some_iff.mp first
        refine names node entered name ?_
        rw [Path.below?_eq_some_iff.mp leads]
        simp
      all_goals cases listed
  directory := by
    intro p isDirectory
    change d.holds p _ = .ok true at isDirectory
    refine OneLineFrom.of_names fun n member => ?_
    obtain ⟨last, leads⟩ := exists_follow_of_holds isDirectory
    rcases exists_node_of_follow leads member with special | ⟨above, node, stands⟩
    · simp only [isEntryName, Bool.and_eq_false_iff, bne_eq_false_iff_eq] at special
      rcases special with rfl | rfl <;> decide
    · have last : n ∈ above ++ [n] := List.mem_append_right above (List.mem_singleton_self n)
      rcases mem_of_node? stands last with inHere | ⟨other, inNodes, inPlace⟩
      · exact (here n inHere).oneLine
      · exact (names other inNodes n inPlace).oneLine

end Disk

end DependencyAudit.FileSystem
