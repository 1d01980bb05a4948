import DependencyAudit.FileSystem.View

namespace DependencyAudit.FileSystem

/-- What stands at a path of a tree in memory. -/
inductive Node where
  | file (text : String)
  | directory
  /-- Something that is neither a file nor a directory. -/
  | other
  deriving DecidableEq, Repr

/-- Why accesses to a path are made to fail. -/
inductive Outage where
  | system (code : Int) (reason : String)
  | plain (message : String)
  deriving DecidableEq, Repr

/-- The refusal of an access to a path. -/
def Outage.at (p : Path) : Outage → Refusal
  | system code reason => .system code reason p.toText
  | plain message => .plain message

/-- Sets the value of a path in a list of pairs; a path that is there keeps its place. -/
def putAt {α : Type} (p : Path) (value : α) : List (Path × α) → List (Path × α)
  | [] => [(p, value)]
  | (first, old) :: rest =>
    if first = p then (p, value) :: rest else (first, old) :: putAt p value rest

/-- Removes a path from a list of pairs. -/
def removeAt {α : Type} (p : Path) (pairs : List (Path × α)) : List (Path × α) :=
  pairs.filter fun pair => pair.1 ≠ p

/-- A tree in memory. -/
structure Memory where
  nodes : List (Path × Node)
  outages : List (Path × Outage)
  deriving Repr

namespace Memory

/-- The node that is entered at a path. -/
def node? (m : Memory) (p : Path) : Option Node := m.nodes.lookup p

/-- The name by which a directory lists what stands, at whatever depth, below it. -/
def nameBelow? (directory p : Path) : Option String :=
  (p.relativeTo? directory).bind List.head?

/-- The names that a directory lists, each once. -/
def namesIn (m : Memory) (directory : Path) : List String :=
  (m.nodes.filterMap fun node => nameBelow? directory node.1).eraseDups

/-- Whether a path is entered as a directory or something is entered below it. -/
def isDirectory (m : Memory) (p : Path) : Bool :=
  m.node? p == some .directory || !(m.namesIn p).isEmpty

/-- What a directory says of one of its entries. -/
def kindOf (m : Memory) (p : Path) : Kind :=
  if m.isDirectory p then .directory
  else
    match m.node? p with
    | some (.file _) => .file
    | _ => .other

/-- The entries of a directory. -/
def list (m : Memory) (p : Path) : Except Refusal (List Entry) :=
  match m.outages.lookup p with
  | some outage => .error (outage.at p)
  | none =>
    if m.isDirectory p then
      .ok ((m.namesIn p).map fun name => ⟨name, m.kindOf (p.child name)⟩)
    else if (m.node? p).isSome then .error (.notDirectory p.toText)
    else .error (.notFound p.toText)

/-- The text entered at a path. -/
def read (m : Memory) (p : Path) : Except Refusal String :=
  match m.outages.lookup p with
  | some outage => .error (outage.at p)
  | none =>
    match m.node? p with
    | some (.file text) => .ok text
    | some _ => .error (.isDirectory p.toText)
    | none => .error (if m.isDirectory p then .isDirectory p.toText else .notFound p.toText)

/-- The depth of the deepest entry. -/
def depth (m : Memory) : Nat := m.nodes.foldr (fun node n => max node.1.names.length n) 0

/-- How far the deepest entry can be below a path. -/
def rank (m : Memory) (p : Path) : Nat := m.depth + 1 - p.names.length

theorem length_le_depth {m : Memory} {node : Path × Node} (entered : node ∈ m.nodes) :
    node.1.names.length ≤ m.depth := le_foldr_max (·.1.names.length) entered

/-- What a directory lists comes from an entry below it. -/
theorem length_lt_depth_of_mem_namesIn {m : Memory} {p : Path} {name : String}
    (listed : name ∈ m.namesIn p) : p.names.length < m.depth := by
  rw [namesIn, List.mem_eraseDups, List.mem_filterMap] at listed
  obtain ⟨node, entered, found⟩ := listed
  have deep := length_le_depth entered
  unfold nameBelow? Path.relativeTo? at found
  split at found
  · have := Path.length_lt_of_below? found
    omega
  · simp at found

theorem rank_child_lt {m : Memory} {directory : Path} {entries : List Entry} {entry : Entry}
    (listed : m.list directory = .ok entries) (member : entry ∈ entries) :
    m.rank (directory.child entry.name) < m.rank directory := by
  unfold list at listed
  split at listed
  · cases listed
  · split at listed
    · cases listed
      obtain ⟨name, named, rfl⟩ := List.mem_map.1 member
      have deep := length_lt_depth_of_mem_namesIn named
      simp only [rank, Path.child, List.length_append, List.length_cons, List.length_nil]
      omega
    · split at listed <;> cases listed

/-- A tree in memory as an analysis sees it. -/
def view (m : Memory) : View where
  exists? p := .ok ((m.node? p).isSome || m.isDirectory p)
  isDirectory p := .ok (m.isDirectory p)
  list := m.list
  read := m.read
  rank := m.rank
  rank_child_lt listed member _ := rank_child_lt listed member

/-- Enters a text at a path. -/
def write (m : Memory) (p : Path) (text : String) : Memory :=
  { m with nodes := putAt p (.file text) m.nodes }

/-- Removes the entry of a path. -/
def remove (m : Memory) (p : Path) : Memory := { m with nodes := removeAt p m.nodes }

/-- Makes every access to a path fail. -/
def fail (m : Memory) (p : Path) (outage : Outage) : Memory :=
  { m with outages := putAt p outage m.outages }

/-- Makes a path accessible again. -/
def heal (m : Memory) (p : Path) : Memory := { m with outages := removeAt p m.outages }

end Memory

end DependencyAudit.FileSystem
