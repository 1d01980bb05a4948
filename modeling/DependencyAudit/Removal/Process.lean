import DependencyAudit.Failure
import DependencyAudit.FileSystem.RealPath

namespace DependencyAudit.Removal

open FileSystem

/-- A program that has been run: its name and arguments, and the directory it ran in. -/
structure Call where
  command : List Name
  directory : Path
  deriving DecidableEq, Repr

/-- What runs a command line in a directory. -/
abbrev Runner := List Name → Path → Except Failure (Call × Int)

/-- A runner that runs nothing and gives every call the same status. -/
def Runner.recorder (status : Int) : Runner := fun command directory =>
  .ok (⟨command, directory⟩, status)

/-- The program that a path leads to. -/
def programAt (disk : Disk) (p : Path) : Option Program :=
  if Disk.hasNul p then none
  else
    match disk.lookAt p with
    | .ok (some (.program program)) => some program
    | _ => none

/-- Where a program is looked for: at its path, or in the directory of programs. -/
def programPath (programs : Path) (name : String) : Path :=
  if name.toList.contains '/' then .ofString name else programs.join (.ofString name)

/-- The status with which a program ends. -/
def statusOf : Program → Option Int
  | .exits code => some code
  | .killed signal => some (-(signal : Int))
  | .unrunnable => none

/-- Whether half a surrogate pair stands for a byte that is no part of a character. -/
def isByte : Text.Point → Bool
  | .low bits => 0x80 ≤ bits.val && bits.val ≤ 0xFF
  | _ => false

/-- Why an argument cannot be given to a program, if it cannot. -/
def argumentFault? (argument : Name) : Option Failure :=
  match Text.encodeFault? isByte 0 argument.points with
  | some fault => some (.unencodable fault)
  | none => if .char '\x00' ∈ argument.points then some .nulCharacter else none

/-- Runs the program at a path, as it is named, in a directory. -/
def runAt (disk : Disk) (path : Path) (name : String) (arguments : List Name)
    (directory : Path) : Except Failure (Call × Int) := do
  if let some fault := arguments.findSome? argumentFault? then throw fault
  if Disk.hasNul directory then throw .nulCharacter
  let shown := if name.toList.contains '/' then name else path.toText
  let cannotEnter dead := Failure.removal (.cannotEnter name dead directory)
  let cannotStart refusal := Failure.removal (.cannotStart name refusal)
  let place ← (disk.locate directory).mapError cannotEnter
  if disk.node? place ≠ some .directory then throw (cannotEnter .notDirectory)
  let node ← ({ disk with here := place }.lookAt path).mapError fun (dead : Dead) =>
    cannotStart (dead.refusal shown)
  match node with
  | some (.program program) =>
    match statusOf program with
    | some status => return (⟨path.name :: arguments, Disk.pathOf place⟩, status)
    | none => throw (cannotStart (.system 8 "Exec format error" shown))
  | _ => throw (cannotStart (.system 13 "Permission denied" shown))

/-- Runs programs of a disk; those without a slash in their names are in the directory `programs`.
No program has a name with half a surrogate pair. -/
def Runner.ofDisk (disk : Disk) (programs : Path) : Runner
  | [], _ => .error .noCommand
  | command :: arguments, directory =>
    match command.text? with
    | none => .error (.removal (.programNotFound (Text.ofEscaped command.points)))
    | some name =>
      let path := programPath programs name
      match programAt disk path with
      | none => .error (.removal (.programNotFound name))
      | some _ => runAt disk path name arguments directory

end DependencyAudit.Removal
