import DependencyAudit.Removal.Manager
import DependencyAudit.Removal.Process
import DependencyAudit.Removal.Selection
import DependencyAudit.Transcript

namespace DependencyAudit.Removal

open Conversation

/-- What a dialogue has come to. -/
structure Outcome where
  removed : List Name
  cancelled : Bool
  command : Option (List Name)
  deriving DecidableEq, Repr

/-- What a confirmation says, if it is one of the words for it. -/
def confirmation? (answer : String) : Option Bool :=
  let word := String.ofList ((Text.trim answer.toList).map Char.toLower)
  if word = "y" ∨ word = "yes" then some true
  else if word = "n" ∨ word = "no" then some false
  else none

/-- The numbered list of the packages and how to pick some of them. -/
def choices (unused : List Name) : List (List Text.Point) :=
  Text.points s!"\nFound {unused.length} unused dependencies:\n" ::
    (unused.zipIdx 1).map (fun (name, number) => name.between s!"  {number}. [cyan]" "[/]") ++
    ["\n[bold]Select packages to remove:[/]",
      "  - Enter numbers separated by spaces (e.g., \"1 3 5\")",
      "  - Enter \"all\" to remove all unused packages",
      "  - Press Enter to cancel\n"].map Text.points

/-- The warning about a part of an answer that picks nothing. -/
def warning (count : Nat) (token : String) : String :=
  s!"[yellow]Warning:[/] Invalid selection \"{token}\" (must be 1-{count})"

/-- The list of the packages that have been picked. -/
def picked (packages : List Name) : List (List Text.Point) :=
  Text.points s!"\nRemoving {packages.length} package(s):" ::
    packages.map (Name.between "  • [cyan]" "[/]") ++ [[]]

/-- The line that tells the command that is run. -/
def running (command : List Name) : List Text.Point :=
  Text.points "[dim]Running:[/] " ++
    [Text.Point.char ' '].intercalate (command.map Name.points) ++ Text.points "\n"

variable [Platform]

/-- Ends a dialogue without removing anything. -/
def cancel (console : Console) : Conversation Outcome := do
  say console "\n[yellow]Cancelled.[/] No packages removed."
  return ⟨[], true, none⟩

/-- Removes packages. -/
def remove (console : Console) (run : Runner) (project : Path) (manager : Manager)
    (packages : List Name) : Conversation Outcome := do
  let command := manager.removalCommand packages
  tell console (running command)
  let (call, status) ← ofExcept id (run command project)
  note (.called call.command call.directory)
  if status ≠ 0 then fail (.removal (.exited manager.name status))
  say console s!"\n[green]✓[/] Successfully removed {packages.length} package(s)"
  return ⟨packages, false, some command⟩

/-- Lets packages be picked and removes them. -/
def dialogue (console : Console) (run : Runner) (project : Path) (manager : Manager)
    (unused : List Name) : Conversation Outcome := do
  if unused = [] then
    say console "[green]✓[/] No unused dependencies to remove!"
    return ⟨[], false, none⟩
  (choices unused).forM (tell console)
  let answer ← ask console "[bold]Your choice[/]: "
  let selection ← ofExcept .tooLong (Selection.parse (answer.getD "") unused.length)
  selection.invalid.forM fun token => say console (warning unused.length token)
  if selection.indices = [] then cancel console
  else
    let packages := selection.pick unused
    (picked packages).forM (tell console)
    let proceed ← askUntil console "[bold]Proceed?[/] (y/N): " "Please enter Y or N" false
      confirmation?
    if proceed then remove console run project manager packages else cancel console

end DependencyAudit.Removal
