import DependencyAudit.FileSystem.Disk

namespace DependencyAudit.FileSystem.Disk

/-- The parts of a path as it is spelled, the empty ones of doubled slashes included. -/
def spelledNames (path : String) : List String :=
  (Text.piecesAt '/' path.toList).map String.ofList

/-- Where a search ends whose names are `left` at a place and `rest` after them. Names that follow a
doubled slash start at the root. -/
def spelledOn (place : Place) (left rest : List String) : Place × List String :=
  match rest with
  | "" :: _ :: _ => ([], rest)
  | _ => (place, left ++ rest)

/-- The place that names lead to, with every link on the way replaced by where it leads. `open_` are
the links that are being replaced, at most `deep` more of them; meeting one again is a loop, which
ends the search at its place with the names that are left. -/
def realPlace (d : Disk) (deep : Nat) (open_ : List Place) (place : Place) (names : List String) :
    Except (Place × List String) Place :=
  match names with
  | [] => .ok place
  | name :: rest =>
    if name = ".." then d.realPlace deep open_ place.dropLast rest
    else if name = "" ∨ name = "." then d.realPlace deep open_ place rest
    else
      let next := place ++ [name]
      match d.node? next with
      | some (.link target) =>
        match deep with
        | 0 => .error (spelledOn next [] rest)
        | deeper + 1 =>
          if next ∈ open_ then .error (spelledOn next [] rest)
          else
            match d.realPlace deeper (next :: open_) (origin place (Path.ofString target))
                (spelledNames target) with
            | .error (loop, left) => .error (spelledOn loop left rest)
            | .ok reached => d.realPlace (deeper + 1) open_ reached rest
      | _ => d.realPlace deep open_ next rest
termination_by (deep, names.length)

/-- The place that names lead to by their spelling alone. -/
def lexicalPlace (place : Place) (names : List String) : Place :=
  names.foldl (fun place name =>
    if name = ".." then place.dropLast
    else if name = "" ∨ name = "." then place
    else place ++ [name]) place

/-- The path of a place. -/
def pathOf (place : Place) : Path := ⟨.root, place⟩

/-- The real path of a path. Where a loop of links is met, the names that are left are read by their
spelling alone; if that leads into a loop again, the path is an error. -/
def realPath (d : Disk) (p : Path) : Except Path Path :=
  match d.realPlace (d.nodes.length + 1) [] (origin d.here p) p.names with
  | .ok place => .ok (pathOf place)
  | .error (loop, left) =>
    let spelled := pathOf (lexicalPlace loop left)
    match d.locate spelled with
    | .error .linkLoop => .error spelled
    | _ => .ok spelled

/-- Sets what stands at a place. -/
def put (d : Disk) (place : Place) (node : DiskNode) : Disk :=
  { d with nodes := (place, node) :: d.nodes.filter fun old => old.1 ≠ place }

/-- Writes a text to the file to which a path leads, which need not be there. -/
def write (d : Disk) (p : Path) (text : String) : Except Refusal Disk :=
  if pathLimit ≤ p.toText.utf8ByteSize then .error (.nameTooLong p.toText)
  else
    match d.follow true linkLimit (origin d.here p) p.names with
    | .error dead => .error (dead.refusal p.toText)
    | .ok place =>
      if d.node? place = some .directory then .error (.isDirectory p.toText)
      else .ok (d.put place (.file (.text text)))

end DependencyAudit.FileSystem.Disk
