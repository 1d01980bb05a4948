import DependencyAudit.FileSystem.View
import DependencyAudit.Text.Pieces
import DependencyAudit.Text.Utf8

namespace DependencyAudit.FileSystem

/-- The names from the root of a disk down to a place. -/
abbrev Place := List String

/-- The bytes of a file: those of a text in UTF-8, or any. -/
inductive Content where
  | text (s : String)
  | raw (bytes : List UInt8)
  deriving DecidableEq, Repr

/-- The text of a file, with one kind of line end and with U+FFFD where the bytes are no text. -/
def Content.toText : Content → String
  | .text s => String.ofList (Text.unifyLineEnds s.toList)
  | .raw bytes => String.ofList (Text.unifyLineEnds (Text.decodeLossy bytes))

/-- The text of a file whose bytes are a text throughout. -/
def Content.toStrictText : Content → Except Text.Utf8Fault String
  | .text s => .ok (String.ofList (Text.unifyLineEnds s.toList))
  | .raw bytes => do
    let text ← Text.decodeStrict bytes
    return String.ofList (Text.unifyLineEnds text)

/-- What a program does when it is run. -/
inductive Program where
  | exits (code : Int)
  | killed (signal : Nat)
  /-- The system does not know how to run it. -/
  | unrunnable
  deriving DecidableEq, Repr

/-- What stands at a place of a disk. -/
inductive DiskNode where
  | file (content : Content)
  | program (p : Program)
  | directory
  /-- A symbolic link, with the text of the path that it leads to. -/
  | link (target : String)
  deriving DecidableEq, Repr

/-- A disk, with the place at which paths without an anchor start. What stands above a node is a
directory. -/
structure Disk where
  nodes : List (Place × DiskNode)
  here : Place
  deriving Repr

/-- Why a path leads to no place. -/
inductive Dead where
  | notFound
  | notDirectory
  | nameTooLong
  | linkLoop
  deriving DecidableEq, Repr

/-- The refusal of an access to a path that leads to no place. -/
def Dead.refusal (path : String) : Dead → Refusal
  | notFound => .notFound path
  | notDirectory => .notDirectory path
  | nameTooLong => .nameTooLong path
  | linkLoop => .linkLoop path

/-- The most bytes that a name may have. -/
def nameLimit : Nat := 255

/-- The least number of bytes that a path must not have. -/
def pathLimit : Nat := 4096

/-- The most links that a path may lead through. -/
def linkLimit : Nat := 40

namespace Disk

/-- Whether a name is that of an entry, which the names of a directory itself and of the one above
are not. -/
def isEntryName (name : String) : Bool := name != "." && name != ".."

/-- The names that a directory lists, each once. -/
def namesIn (d : Disk) (place : Place) : List String :=
  (d.nodes.filterMap fun node => (Path.below? place node.1).bind List.head?).eraseDups.filter
    isEntryName

/-- What stands at a place. The place at which paths start is a directory, and so is whatever has
something below it. -/
def node? (d : Disk) (place : Place) : Option DiskNode :=
  match d.nodes.lookup place with
  | some node => some node
  | none =>
    if place.isPrefixOf d.here ∨ d.nodes.any (fun node => place.isPrefixOf node.1) then
      some .directory
    else none

/-- The place at which a path starts that is written at a place. -/
def origin (place : Place) (p : Path) : Place := if p.anchor = .here then place else []

/-- The names by which a link leads on. A slash or a dot at the end of its text asks for a
directory, as the dot that names this directory does. -/
def linkNames (target : String) : List String :=
  let last := (Text.piecesAt '/' target.toList).getLastD []
  (Path.ofString target).names ++ if last = [] ∨ last = ['.'] then ["."] else []

/-- Where names lead from a place, through at most `links` links. Where `creating`, the last name
need not be there. -/
def follow (d : Disk) (creating : Bool) (links : Nat) (place : Place) (names : List String) :
    Except Dead Place :=
  match names with
  | [] => .ok place
  | name :: rest =>
    match d.node? place with
    | some .directory =>
      if name = "." then d.follow creating links place rest
      else if name = ".." then d.follow creating links place.dropLast rest
      else if nameLimit < name.utf8ByteSize then .error .nameTooLong
      else
        match d.node? (place ++ [name]) with
        | none =>
          if creating ∧ rest = [] then .ok (place ++ [name]) else .error .notFound
        | some (.link target) =>
          match links with
          | 0 => .error .linkLoop
          | links + 1 =>
            d.follow creating links (origin place (Path.ofString target))
              (linkNames target ++ rest)
        | some _ => d.follow creating links (place ++ [name]) rest
    | _ => .error .notDirectory
termination_by (links, names.length)

/-- The place that a path leads to. -/
def locate (d : Disk) (p : Path) : Except Dead Place :=
  if pathLimit ≤ p.toText.utf8ByteSize then .error .nameTooLong
  else d.follow false linkLimit (origin d.here p) p.names

/-- What stands where a path leads. -/
def lookAt (d : Disk) (p : Path) : Except Dead (Option DiskNode) :=
  (d.locate p).map d.node?

/-- Whether a path holds a character that no path of a system can hold. -/
def hasNul (p : Path) : Bool := p.names.any fun name => name.toList.contains '\x00'

/-- Whether what stands where a path leads is as asked. Nothing stands where a path is cut off; only
a name that is too long is refused. -/
def holds (d : Disk) (p : Path) (asks : DiskNode → Bool) : Except Refusal Bool :=
  if hasNul p then .ok false
  else
    match d.lookAt p with
    | .ok (some node) => .ok (asks node)
    | .ok none => .ok false
    | .error .nameTooLong => .error (.nameTooLong p.toText)
    | .error _ => .ok false

/-- Whether anything stands where a path leads. -/
def exists? (d : Disk) (p : Path) : Except Refusal Bool := d.holds p fun _ => true

/-- Whether a directory stands where a path leads. -/
def isDirectory (d : Disk) (p : Path) : Except Refusal Bool := d.holds p (· == .directory)

/-- What a directory says of one of its entries, which it does not follow. -/
def kindOf (d : Disk) (place : Place) : Kind :=
  match d.node? place with
  | some .directory => .directory
  | some (.file _) | some (.program _) => .file
  | _ => .other

/-- The entries of the directory to which a path leads. -/
def list (d : Disk) (p : Path) : Except Refusal (List Entry) :=
  match d.locate p with
  | .error dead => .error (dead.refusal p.toText)
  | .ok place =>
    match d.node? place with
    | some .directory =>
      .ok ((d.namesIn place).map fun name => ⟨name, d.kindOf (place ++ [name])⟩)
    | some _ => .error (.notDirectory p.toText)
    | none => .error (.notFound p.toText)

/-- The content of the file to which a path leads. -/
def content (d : Disk) (p : Path) : Except Refusal Content :=
  match d.lookAt p with
  | .error dead => .error (dead.refusal p.toText)
  | .ok (some (.file content)) => .ok content
  | .ok (some (.program _)) => .ok (.text "")
  | .ok (some .directory) => .error (.isDirectory p.toText)
  | .ok _ => .error (.notFound p.toText)

/-- The text of the file to which a path leads. -/
def read (d : Disk) (p : Path) : Except Refusal String := (d.content p).map Content.toText

/-- The depth of the deepest node. -/
def depth (d : Disk) : Nat := d.nodes.foldr (fun node n => max node.1.length n) 0

/-- How far the deepest node can be below the directory to which a path leads. -/
def rank (d : Disk) (p : Path) : Nat :=
  match d.locate p with
  | .ok place => d.depth + 1 - place.length
  | .error _ => 0

/-- What a directory lists comes from a node below it. -/
theorem length_lt_depth_of_mem_namesIn {d : Disk} {place : Place} {name : String}
    (listed : name ∈ d.namesIn place) : place.length < d.depth := by
  rw [namesIn, List.mem_filter, List.mem_eraseDups, List.mem_filterMap] at listed
  obtain ⟨⟨node, entered, found⟩, _⟩ := listed
  have deep : node.1.length ≤ d.depth := le_foldr_max (·.1.length) entered
  have below := Path.length_lt_of_below? found
  omega

/-- Names that lead to a place lead on from it. -/
theorem exists_follow_append {d : Disk} {links : Nat} {start place : Place}
    {names more : List String} (leads : d.follow false links start names = .ok place) :
    ∃ left, d.follow false links start (names ++ more) = d.follow false left place more := by
  fun_induction follow d false links start names generalizing place with
  | case1 links start =>
    cases leads
    exact ⟨links, rfl⟩
  | case2 links start rest isDir ih =>
    obtain ⟨left, goesOn⟩ := ih leads
    refine ⟨left, ?_⟩
    rw [List.cons_append, follow, isDir]
    simpa using goesOn
  | case3 links start rest isDir notHere ih =>
    obtain ⟨left, goesOn⟩ := ih leads
    refine ⟨left, ?_⟩
    rw [List.cons_append, follow, isDir]
    simpa using goesOn
  | case4 => simp at leads
  | case5 => simp_all
  | case6 => simp at leads
  | case7 => simp at leads
  | case8 start name rest isDir notHere notUp short target isLink links ih =>
    obtain ⟨left, goesOn⟩ := ih leads
    refine ⟨left, ?_⟩
    rw [List.cons_append, follow, isDir]
    simp only [notHere, notUp, short, if_false, isLink]
    rw [← goesOn, List.append_assoc]
  | case9 links start name rest isDir notHere notUp short node notLink stands ih =>
    obtain ⟨left, goesOn⟩ := ih leads
    refine ⟨left, ?_⟩
    rw [List.cons_append, follow, isDir]
    simp only [notHere, notUp, short, if_false, stands]
    rw [← goesOn]
  | case10 => simp at leads

/-- The name of a real directory leads right below. -/
theorem follow_directory {d : Disk} {links : Nat} {place : Place} {name : String}
    (stands : d.node? place = some .directory) (ordinary : isEntryName name)
    (below : d.node? (place ++ [name]) = some .directory) :
    d.follow false links place [name] = .ok (place ++ [name]) ∨
      d.follow false links place [name] = .error .nameTooLong := by
  simp only [isEntryName, bne_iff_ne, Bool.and_eq_true] at ordinary
  obtain ⟨notHere, notUp⟩ := ordinary
  unfold follow
  rw [stands]
  by_cases short : nameLimit < name.utf8ByteSize
  · simp [notHere, notUp, short]
  · left
    simp only [notHere, notUp, short, if_false, below]
    rw [follow]

theorem rank_child_lt {d : Disk} {directory : Path} {entries : List Entry} {entry : Entry}
    (listed : d.list directory = .ok entries) (member : entry ∈ entries)
    (isDir : entry.kind = .directory) :
    d.rank (directory.child entry.name) < d.rank directory := by
  unfold list at listed
  split at listed
  · cases listed
  next place leads =>
  split at listed
  next stands =>
    cases listed
    obtain ⟨name, named, rfl⟩ := List.mem_map.1 member
    have deep := length_lt_depth_of_mem_namesIn named
    have ordinary : isEntryName name := by
      rw [namesIn, List.mem_filter] at named
      exact named.2
    have below : d.node? (place ++ [name]) = some .directory := by
      simp only [kindOf] at isDir
      split at isDir <;> simp_all
    have above : d.rank directory = d.depth + 1 - place.length := by simp [rank, leads]
    rw [above]
    unfold rank
    unfold locate at leads
    split at leads
    · cases leads
    obtain ⟨left, goesOn⟩ := @exists_follow_append _ _ _ _ _ [name] leads
    have sameOrigin : origin d.here (directory.child name) = origin d.here directory := rfl
    by_cases long : pathLimit ≤ (directory.child name).toText.utf8ByteSize
    · simp only [locate, long, if_true]
      omega
    · simp only [locate, long, if_false, sameOrigin]
      rw [show (directory.child name).names = directory.names ++ [name] from rfl, goesOn]
      rcases @follow_directory _ left _ _ stands ordinary below with ok | tooLong
      · simp only [ok, List.length_append, List.length_cons, List.length_nil]
        omega
      · simp only [tooLong]
        omega
  · cases listed
  · cases listed

/-- A disk as an analysis sees it. -/
def view (d : Disk) : View where
  exists? := d.exists?
  isDirectory := d.isDirectory
  list := d.list
  read := d.read
  rank := d.rank
  rank_child_lt := rank_child_lt

end Disk

end DependencyAudit.FileSystem
