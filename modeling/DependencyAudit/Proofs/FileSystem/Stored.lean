import DependencyAudit.Proofs.FileSystem.Tree
import DependencyAudit.Proofs.Text.Utf8

namespace DependencyAudit.FileSystem

/-- The content is this text, in UTF-8. -/
inductive Content.Writes : Content → String → Prop
  | text (s : String) : Writes (.text s) s
  | bytes (s : String) : Writes (.raw (Text.encode s.toList)) s

theorem Content.Writes.toText {content : Content} {s : String} (writes : content.Writes s) :
    content.toText = String.ofList (Text.unifyLineEnds s.toList) := by
  cases writes with
  | text => rfl
  | bytes => rw [Content.toText, Text.decodeLossy_encode]

/-- What a disk has at a place is the item of a tree, or there is neither. -/
inductive Stored : Option DiskNode → Option Item → Prop
  | nothing : Stored none none
  | directory : Stored (some .directory) (some .directory)
  | text {content s} : content.Writes s → Stored (some (.file content)) (some (.text s))

theorem Stored.isSome_iff {node : Option DiskNode} {item : Option Item} (stored : Stored node item) :
    node.isSome ↔ item.isSome := by
  cases stored <;> simp

namespace Disk

/-- The place to which a path leads on a disk without links. -/
def placeOf (d : Disk) (p : Path) : Place := origin d.here p ++ p.names

/-- The disk has the tree at a path and nothing else below it. The way to the path goes through real
directories. -/
structure Stores (d : Disk) (project : Path) (t : Tree) : Prop where
  way : ∀ place, place <+: d.placeOf project → d.node? place = some .directory
  stored : ∀ names, names ≠ [] →
    Stored (d.nodes.lookup (d.placeOf project ++ names)) (t.entries.lookup names)
  here : ∀ names, names ≠ [] → d.placeOf project ++ names <+: d.here →
    ∃ entry ∈ t.entries, names <+: entry.1

variable {d : Disk} {links : Nat} {place : Place} {names : List String} {name s : String}

/-- Names that go through real directories lead straight down. -/
theorem follow_of_stands (ordinary : ∀ name ∈ names, isEntryName name)
    (short : ∀ name ∈ names, name.utf8ByteSize ≤ nameLimit)
    (passes : ∀ before after, names = before ++ after → after ≠ [] →
      d.node? (place ++ before) = some .directory)
    {node : DiskNode} (stands : d.node? (place ++ names) = some node)
    (real : ∀ target, node ≠ .link target) :
    d.follow false links place names = .ok (place ++ names) := by
  -- By the names that are left: each of them leads into a directory, but for the last.
  induction names generalizing place with
  | nil => rw [follow, List.append_nil]
  | cons name rest ih =>
    obtain ⟨special, ordinary⟩ := List.forall_mem_cons.mp ordinary
    obtain ⟨fits, short⟩ := List.forall_mem_cons.mp short
    have isDirectory : d.node? place = some .directory := by
      simpa using passes [] (name :: rest) rfl (List.cons_ne_nil _ _)
    have shape : place ++ name :: rest = place ++ [name] ++ rest := by
      rw [List.append_assoc, List.singleton_append]
    have later : ∀ before after, rest = before ++ after → after ≠ [] →
        d.node? (place ++ [name] ++ before) = some .directory := by
      intro before after same more
      rw [List.append_assoc, List.singleton_append]
      exact passes (name :: before) after (by rw [same]; rfl) more
    rw [shape] at stands ⊢
    have goesOn := ih ordinary short later stands
    have step : ∃ node, d.node? (place ++ [name]) = some node ∧ ∀ target, node ≠ .link target := by
      cases rest with
      | nil => exact ⟨node, by simpa using stands, real⟩
      | cons next rest =>
        have inside := later [] (next :: rest) rfl (List.cons_ne_nil _ _)
        exact ⟨.directory, by simpa using inside, fun _ => by simp⟩
    obtain ⟨node, there, isReal⟩ := step
    exact (follow_cons_of_real special isDirectory fits there isReal).trans goesOn

/-- Names without links on the way lead nowhere if nothing stands at their end. -/
theorem follow_of_absent (ordinary : ∀ name ∈ names, isEntryName name)
    (short : ∀ name ∈ names, name.utf8ByteSize ≤ nameLimit)
    (starts : d.node? place = some .directory)
    (real : ∀ before, before ≠ [] → before <+: names → ∀ target,
      d.node? (place ++ before) ≠ some (.link target))
    (absent : d.node? (place ++ names) = none) :
    d.follow false links place names = .error .notFound ∨
      d.follow false links place names = .error .notDirectory := by
  induction names generalizing place with
  | nil =>
    rw [List.append_nil, starts] at absent
    cases absent
  | cons name rest ih =>
    obtain ⟨special, ordinary⟩ := List.forall_mem_cons.mp ordinary
    obtain ⟨fits, short⟩ := List.forall_mem_cons.mp short
    have shape : place ++ name :: rest = place ++ [name] ++ rest := by
      rw [List.append_assoc, List.singleton_append]
    rw [shape] at absent
    have later : ∀ before, before ≠ [] → before <+: rest → ∀ target,
        d.node? (place ++ [name] ++ before) ≠ some (.link target) := by
      intro before _ leads target
      rw [List.append_assoc, List.singleton_append]
      exact real (name :: before) (List.cons_ne_nil _ _) (by simpa using leads) target
    cases there : d.node? (place ++ [name]) with
    | none => exact .inl (follow_cons_of_absent special starts fits there)
    | some node =>
      have isReal : ∀ target, node ≠ .link target := fun target same =>
        real [name] (List.cons_ne_nil _ _) (by simp) target (same ▸ there)
      rw [follow_cons_of_real special starts fits there isReal]
      -- Anything but a directory stops the way here, as nothing stands at its end.
      by_cases isDirectory : node = .directory
      · exact ih ordinary short (isDirectory ▸ there) later absent
      · refine .inr ?_
        cases rest with
        | nil =>
          rw [List.append_nil, there] at absent
          cases absent
        | cons next rest =>
          rw [follow, there]
          split
          next same => exact absurd (Option.some.inj same) isDirectory
          next => rfl

theorem mem_namesIn : name ∈ d.namesIn place ↔
    isEntryName name ∧ ∃ node ∈ d.nodes, place ++ [name] <+: node.1 := by
  rw [namesIn, List.mem_filter, List.mem_eraseDups, List.mem_filterMap, and_comm]
  refine and_congr_right fun _ => exists_congr fun node => and_congr_right fun _ => ?_
  rw [Option.bind_eq_some_iff]
  constructor
  · intro holds
    obtain ⟨rest, leads, first⟩ := holds
    obtain ⟨more, rfl⟩ := List.head?_eq_some_iff.mp first
    exact ⟨more, by rw [Path.below?_eq_some_iff.mp leads, List.append_assoc]; rfl⟩
  · intro holds
    obtain ⟨more, same⟩ := holds
    refine ⟨name :: more, Path.below?_eq_some_iff.mpr ?_, rfl⟩
    rw [← same, List.append_assoc, List.singleton_append]

namespace Stores

variable {project : Path} {t : Tree}

theorem exists_mem_iff (stores : d.Stores project t) (named : names ≠ []) :
    (∃ node ∈ d.nodes, d.placeOf project ++ names <+: node.1) ↔
      ∃ entry ∈ t.entries, names <+: entry.1 := by
  constructor
  · intro holds
    obtain ⟨⟨place, node⟩, entered, more, rfl⟩ := holds
    have isSome : (d.nodes.lookup (d.placeOf project ++ names ++ more)).isSome :=
      List.lookup_isSome_iff.mpr ⟨_, entered, beq_self_eq_true _⟩
    rw [List.append_assoc, (stores.stored (names ++ more) (by simp [named])).isSome_iff] at isSome
    obtain ⟨entry, entered', same⟩ := List.lookup_isSome_iff.mp isSome
    exact ⟨entry, entered', more, beq_iff_eq.mp same⟩
  · intro holds
    obtain ⟨⟨place, item⟩, entered, more, rfl⟩ := holds
    have isSome : (t.entries.lookup (names ++ more)).isSome :=
      List.lookup_isSome_iff.mpr ⟨_, entered, beq_self_eq_true _⟩
    rw [← (stores.stored (names ++ more) (by simp [named])).isSome_iff] at isSome
    obtain ⟨node, entered', same⟩ := List.lookup_isSome_iff.mp isSome
    exact ⟨node, entered', more, by rw [← beq_iff_eq.mp same, List.append_assoc]⟩

/-- What stands at the places below the path is what stands in the tree. -/
theorem stored_node? (stores : d.Stores project t) (named : names ≠ []) :
    Stored (d.node? (d.placeOf project ++ names)) (t.at? names) := by
  have entered := stores.stored names named
  have above : ((d.placeOf project ++ names).isPrefixOf d.here ∨
      d.nodes.any fun node => (d.placeOf project ++ names).isPrefixOf node.1) ↔
      ∃ entry ∈ t.entries, names <+: entry.1 := by
    rw [List.isPrefixOf_iff_prefix, List.any_eq_true]
    simp only [List.isPrefixOf_iff_prefix, stores.exists_mem_iff named]
    exact or_iff_right_of_imp (stores.here names named)
  unfold Disk.node? Tree.at?
  generalize t.entries.lookup names = item at entered
  split
  next node found =>
    rw [found] at entered
    cases entered with
    | directory => exact .directory
    | text writes => exact .text writes
  next absent =>
    rw [absent] at entered
    cases entered
    by_cases stands : ∃ entry ∈ t.entries, names <+: entry.1
    · rw [if_pos (above.mpr stands)]
      simpa only [if_pos stands] using .directory
    · rw [if_neg (mt above.mp stands)]
      simpa only [if_neg stands] using .nothing

/-- On the way to what stands in the tree there are only directories. -/
theorem isDirectory_above (stores : d.Stores project t) {before after : List String}
    (same : project.names ++ names = before ++ after) (more : after ≠ [])
    (stands : names = [] ∨ (t.at? names).isSome) :
    d.node? (origin d.here project ++ before) = some .directory := by
  rcases List.append_eq_append_iff.mp same with ⟨between, rfl, shape⟩ | ⟨between, shape, -⟩
  · rw [← List.append_assoc]
    rcases between with - | ⟨name, rest⟩
    · exact stores.way _ (by rw [List.append_nil]; exact List.prefix_rfl)
    · rcases stands with rfl | stands
      · cases shape
      · obtain ⟨next, later, rfl⟩ := List.exists_cons_of_ne_nil more
        have isDirectory : t.at? (name :: rest) = some .directory := by
          obtain ⟨entry, entered, leads⟩ := Tree.isSome_at?_iff.mp stands
          refine Tree.at?_eq_directory_iff.mpr (.inr ⟨next, entry, entered, ?_⟩)
          refine List.IsPrefix.trans ⟨later, ?_⟩ leads
          rw [shape, List.append_assoc, List.singleton_append]
        have stored := stores.stored_node? (List.cons_ne_nil name rest)
        rw [isDirectory] at stored
        unfold placeOf at stored
        generalize d.node? _ = node at stored
        cases stored
        rfl
  · exact stores.way _ ⟨between, by rw [placeOf, shape, List.append_assoc]⟩

/-- There are no links in the tree, nor on the way to it. -/
theorem node?_ne_link (stores : d.Stores project t) {before : List String}
    (leads : before <+: project.names ++ names) (target : String) :
    d.node? (origin d.here project ++ before) ≠ some (.link target) := by
  obtain ⟨after, same⟩ := leads
  rcases List.append_eq_append_iff.mp same with ⟨between, shape, -⟩ | ⟨between, rfl, -⟩
  · rw [stores.way _ ⟨between, by rw [placeOf, shape, List.append_assoc]⟩]
    simp
  · rw [← List.append_assoc]
    rcases between with - | ⟨name, rest⟩
    · rw [stores.way _ (by rw [List.append_nil]; exact List.prefix_rfl)]
      simp
    · have stored := stores.stored_node? (List.cons_ne_nil name rest)
      unfold placeOf at stored
      intro isLink
      rw [isLink] at stored
      cases stored

theorem locate_of_stands (stores : d.Stores project t) (fits : (project.down names).Fits)
    (stands : names = [] ∨ (t.at? names).isSome) :
    d.locate (project.down names) = .ok (d.placeOf project ++ names) := by
  have there : ∃ node, d.node? (origin d.here project ++ (project.names ++ names)) = some node := by
    rw [← List.append_assoc]
    by_cases named : names = []
    · exact ⟨_, stores.way _ (by rw [named, List.append_nil]; exact List.prefix_rfl)⟩
    · refine Option.isSome_iff_exists.mp ?_
      exact (stores.stored_node? named).isSome_iff.mpr (stands.resolve_left named)
  obtain ⟨node, there⟩ := there
  have leads : d.follow false linkLimit (origin d.here project) (project.names ++ names) =
      .ok (origin d.here project ++ (project.names ++ names)) :=
    follow_of_stands fits.ordinary fits.short
      (fun before after same more => stores.isDirectory_above same more stands) there
      (fun target isLink => stores.node?_ne_link List.prefix_rfl target (isLink ▸ there))
  rw [locate, if_neg (Nat.not_le.mpr fits.size), placeOf, List.append_assoc]
  exact leads

theorem locate_of_absent (stores : d.Stores project t) (fits : (project.down names).Fits)
    (named : names ≠ []) (absent : t.at? names = none) :
    d.locate (project.down names) = .error .notFound ∨
      d.locate (project.down names) = .error .notDirectory := by
  have nothing : d.node? (origin d.here project ++ (project.names ++ names)) = none := by
    have stored := stores.stored_node? named
    rw [absent, placeOf, List.append_assoc] at stored
    generalize d.node? _ = node at stored ⊢
    cases stored
    rfl
  have start : d.node? (origin d.here project) = some .directory :=
    stores.way _ (List.prefix_append _ _)
  rw [locate, if_neg (Nat.not_le.mpr fits.size)]
  exact follow_of_absent fits.ordinary fits.short start
    (fun before _ leads target => stores.node?_ne_link leads target) nothing

/-- What is asked of a path below the tree's is asked of what stands at its place. -/
theorem holds_down (stores : d.Stores project t) (fits : (project.down names).Fits)
    (there : names ≠ [] ∨ t.entries ≠ []) (asks : DiskNode → Bool) :
    d.holds (project.down names) asks =
      .ok ((d.node? (d.placeOf project ++ names)).any asks) := by
  unfold holds lookAt
  rw [fits.clean, if_neg Bool.false_ne_true]
  by_cases stands : (t.at? names).isSome
  · rw [stores.locate_of_stands fits (.inr stands), Except.map]
    cases d.node? (d.placeOf project ++ names) <;> rfl
  · have named : names ≠ [] := by
      rintro rfl
      rw [Tree.at?_nil (there.resolve_left (fun other => other rfl))] at stands
      exact stands rfl
    have absent : t.at? names = none := by simpa using stands
    have stored := stores.stored_node? named
    rw [absent] at stored
    generalize d.node? _ = node at stored
    cases stored
    rcases stores.locate_of_absent fits named absent with dead | dead
    all_goals
      rw [dead]
      rfl

theorem node?_of_directory (stores : d.Stores project t) (isDirectory : t.at? names = some .directory) :
    d.node? (d.placeOf project ++ names) = some .directory := by
  by_cases named : names = []
  · exact stores.way _ (by rw [named, List.append_nil])
  · have stored := stores.stored_node? named
    rw [isDirectory] at stored
    generalize d.node? _ = node at stored
    cases stored
    rfl

theorem kindOf_eq (stores : d.Stores project t) {item : Item} (named : names ≠ [])
    (stands : t.at? names = some item) : d.kindOf (d.placeOf project ++ names) = item.kind := by
  have stored := stores.stored_node? named
  rw [stands] at stored
  unfold Disk.kindOf
  generalize d.node? _ = node at stored
  cases stored <;> rfl

/-- A directory of the tree lists what is in it. -/
theorem mem_list_iff (stores : d.Stores project t)
    (fits : ∀ entry ∈ t.entries, (project.down entry.1).Fits) {entry : Entry} :
    (∃ name ∈ d.namesIn (d.placeOf project ++ names),
      (⟨name, d.kindOf (d.placeOf project ++ names ++ [name])⟩ : Entry) = entry) ↔
      ∃ item, t.at? (names ++ [entry.name]) = some item ∧ entry.kind = item.kind := by
  have named : ∀ name : String, names ++ [name] ≠ [] := fun name => List.concat_ne_nil name names
  have listed : ∀ name, name ∈ d.namesIn (d.placeOf project ++ names) ↔
      (t.at? (names ++ [name])).isSome := by
    intro name
    rw [mem_namesIn, List.append_assoc, stores.exists_mem_iff (named name), ← Tree.isSome_at?_iff]
    refine and_iff_right_of_imp fun stands => ?_
    obtain ⟨entry, entered, leads⟩ := Tree.isSome_at?_iff.mp stands
    refine ((fits entry entered).above leads).ordinary name ?_
    rw [Path.down, ← List.append_assoc]
    exact List.mem_append_right _ (List.mem_singleton_self name)
  obtain ⟨name, kind⟩ := entry
  simp only [listed, Entry.mk.injEq]
  constructor
  · intro holds
    obtain ⟨_, stands, rfl, rfl⟩ := holds
    obtain ⟨item, stands⟩ := Option.isSome_iff_exists.mp stands
    exact ⟨item, stands, by rw [List.append_assoc, stores.kindOf_eq (named _) stands]⟩
  · intro holds
    obtain ⟨item, stands, kind⟩ := holds
    refine ⟨name, by rw [stands]; rfl, rfl, ?_⟩
    rw [List.append_assoc, stores.kindOf_eq (named _) stands, kind]

theorem isDirectory_down (stores : d.Stores project t) (fits : (project.down names).Fits)
    (there : names ≠ [] ∨ t.entries ≠ []) :
    d.isDirectory (project.down names) = .ok (t.at? names == some .directory) := by
  refine (stores.holds_down fits there _).trans (congrArg Except.ok ?_)
  by_cases isDirectory : t.at? names = some .directory
  · rw [stores.node?_of_directory isDirectory, isDirectory]
    rfl
  · have named : names ≠ [] := by
      rintro rfl
      exact isDirectory (Tree.at?_nil (there.resolve_left fun other => other rfl))
    have stored := stores.stored_node? named
    generalize d.node? _ = node at stored ⊢
    generalize t.at? names = item at stored isDirectory ⊢
    cases stored with
    | nothing => rfl
    | directory => exact absurd rfl isDirectory
    | text => rfl

theorem content_of_text (stores : d.Stores project t) (fits : (project.down names).Fits)
    (isText : t.at? names = some (.text s)) :
    ∃ content : Content, d.content (project.down names) = .ok content ∧ content.Writes s := by
  have named : names ≠ [] := by
    rintro rfl
    obtain ⟨entry, entered, -⟩ := Tree.isSome_at?_iff.mp (by rw [isText]; rfl)
    cases isText.symm.trans (Tree.at?_nil (List.ne_nil_of_mem entered))
  have stored := stores.stored_node? named
  have leads := stores.locate_of_stands fits (.inr (by rw [isText]; rfl))
  rw [Disk.content, lookAt, leads, Except.map]
  rw [isText] at stored
  generalize d.node? _ = node at stored
  cases stored with
  | text writes => exact ⟨_, rfl, writes⟩

theorem content_of_directory (stores : d.Stores project t) (fits : (project.down names).Fits)
    (isDirectory : t.at? names = some .directory) :
    d.content (project.down names) = .error (.isDirectory (project.down names).toText) := by
  have leads := stores.locate_of_stands fits (.inr (by rw [isDirectory]; rfl))
  rw [Disk.content, lookAt, leads, Except.map, stores.node?_of_directory isDirectory]

theorem list_of_directory (stores : d.Stores project t) (fits : (project.down names).Fits)
    (isDirectory : t.at? names = some .directory) :
    d.list (project.down names) = .ok ((d.namesIn (d.placeOf project ++ names)).map fun name =>
      ⟨name, d.kindOf (d.placeOf project ++ names ++ [name])⟩) := by
  have leads := stores.locate_of_stands fits (.inr (by rw [isDirectory]; rfl))
  rw [Disk.list, leads]
  dsimp only
  rw [stores.node?_of_directory isDirectory]

/-- A tree on a disk is seen as it is read: with one kind of line end. -/
theorem shows (stores : d.Stores project t)
    (fits : ∀ entry ∈ t.entries, (project.down entry.1).Fits) :
    d.view.Shows project t.unified where
  exists_eq := by
    intro names named fits'
    refine (stores.holds_down fits' (.inl named) _).trans ?_
    rw [Tree.at?_unified, Option.isSome_map,
      ← Bool.eq_iff_iff.mpr (stores.stored_node? named).isSome_iff]
    cases d.node? (d.placeOf project ++ names) <;> rfl
  isDirectory_eq := by
    intro names there fits'
    have there : names ≠ [] ∨ t.entries ≠ [] := by simpa [Tree.unified] using there
    refine (stores.isDirectory_down fits' there).trans (congrArg Except.ok ?_)
    exact Bool.eq_iff_iff.mpr (by simp [Tree.at?_unified_eq_directory_iff])
  read_text := by
    intro names s fits' isText
    rw [Tree.at?_unified, Option.map_eq_some_iff] at isText
    obtain ⟨item, stands, isText⟩ := isText
    cases item with
    | directory => cases isText
    | text before =>
      cases isText
      obtain ⟨content, holds, writes⟩ := stores.content_of_text fits' stands
      change (d.content _).map _ = _
      rw [holds]
      exact congrArg Except.ok writes.toText
  read_directory := by
    intro names _ fits' isDirectory
    have stands := Tree.at?_unified_eq_directory_iff.mp isDirectory
    change (d.content _).map _ = _
    rw [stores.content_of_directory fits' stands]
    rfl
  list := by
    intro names fits' isDirectory
    have stands := Tree.at?_unified_eq_directory_iff.mp isDirectory
    refine ⟨_, stores.list_of_directory fits' stands, fun entry => ?_⟩
    rw [List.mem_map, stores.mem_list_iff fits, Tree.at?_unified]
    cases t.at? (names ++ [entry.name]) with
    | none => simp
    | some item => cases item <;> simp [Item.unified, Item.kind]
  once := Disk.listsOnce d

end Stores

end Disk

/-- The item on a disk, a text as its bytes. -/
def Item.stored : Item → DiskNode
  | text s => .file (.raw (Text.encode s.toList))
  | directory => .directory

/-- A disk that holds the tree at a place. -/
def Tree.disk (t : Tree) (place : Place) : Disk where
  nodes := t.entries.map fun entry => (place ++ entry.1, entry.2.stored)
  here := place

/-- Every tree can be stored, wherever it is to stand. -/
theorem Tree.stores_disk (t : Tree) (place : Place) : (t.disk place).Stores ⟨.root, place⟩ t where
  way := by
    intro above leads
    change above <+: place at leads
    have nothing : (t.disk place).nodes.lookup above = none := by
      refine List.lookup_eq_none_iff.mpr fun node entered => ?_
      obtain ⟨entry, written, rfl⟩ := List.mem_map.mp entered
      refine bne_iff_ne.mpr fun same => t.named entry written ?_
      have shorter := leads.length_le
      rw [same, List.length_append] at shorter
      exact List.length_eq_zero_iff.mp (by omega)
    rw [Disk.node?, nothing]
    exact if_pos (.inl (List.isPrefixOf_iff_prefix.mpr leads))
  stored := by
    intro names _
    have found : (t.disk place).nodes.lookup (place ++ names) =
        (t.entries.lookup names).map Item.stored := by
      have apart : Function.Injective fun names : List String => place ++ names :=
        fun _ _ same => List.append_cancel_left same
      exact lookup_map apart (fun _ => Item.stored) t.entries names
    change Stored ((t.disk place).nodes.lookup (place ++ names)) _
    rw [found]
    cases t.entries.lookup names with
    | none => exact .nothing
    | some item =>
      cases item with
      | text s => exact .text (.bytes s)
      | directory => exact .directory
  here := by
    intro names named leads
    have shorter : (place ++ names).length ≤ place.length := leads.length_le
    rw [List.length_append] at shorter
    exact absurd (List.length_eq_zero_iff.mp (by omega)) named

end DependencyAudit.FileSystem
