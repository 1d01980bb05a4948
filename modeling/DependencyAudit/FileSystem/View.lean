import DependencyAudit.Path
import DependencyAudit.Text.Quoted

namespace DependencyAudit.FileSystem

/-- Why the file system refuses an access. -/
inductive Refusal where
  /-- An error of the system by its number and text, at a path. -/
  | system (code : Int) (reason : String) (path : String)
  /-- An error without number and path. -/
  | plain (message : String)
  deriving DecidableEq, Repr

namespace Refusal

/-- The full wording of a refusal. -/
def message : Refusal → String
  | system code reason path => s!"[Errno {code}] {reason}: {Text.quoted path}"
  | plain message => message

/-- The reason alone where the system gives one, else the full wording. -/
def reason : Refusal → String
  | system code reason path => if reason = "" then (system code reason path).message else reason
  | plain message => message

def notFound (path : String) : Refusal := .system 2 "No such file or directory" path
def notDirectory (path : String) : Refusal := .system 20 "Not a directory" path
def isDirectory (path : String) : Refusal := .system 21 "Is a directory" path
def nameTooLong (path : String) : Refusal := .system 36 "File name too long" path
def linkLoop (path : String) : Refusal := .system 40 "Too many levels of symbolic links" path

end Refusal

/-- What a directory says of an entry. A link is neither a directory nor a file. -/
inductive Kind where
  | directory
  | file
  | other
  deriving DecidableEq, Repr

/-- An entry of a directory listing. -/
structure Entry where
  name : String
  kind : Kind
  deriving DecidableEq, Repr

/-- No item measures more than the largest one. -/
theorem le_foldr_max {α : Type} (measure : α → Nat) {item : α} {items : List α}
    (member : item ∈ items) :
    measure item ≤ items.foldr (fun item n => max (measure item) n) 0 := by
  induction items with
  | nil => cases member
  | cons first rest ih =>
    simp only [List.foldr_cons]
    rcases List.mem_cons.1 member with rfl | later
    · omega
    · have := ih later
      omega

/-- A file system that can be looked at but not changed. Directories do not nest for ever: `rank`
falls from a directory to those that it lists. -/
structure View where
  /-- Whether anything is there. -/
  exists? : Path → Except Refusal Bool
  /-- Whether a directory is there. -/
  isDirectory : Path → Except Refusal Bool
  /-- The entries of a directory. -/
  list : Path → Except Refusal (List Entry)
  /-- The text of a file. -/
  read : Path → Except Refusal String
  rank : Path → Nat
  rank_child_lt : ∀ {directory : Path} {entries : List Entry} {entry : Entry},
    list directory = .ok entries → entry ∈ entries → entry.kind = .directory →
      rank (directory.child entry.name) < rank directory

end DependencyAudit.FileSystem
