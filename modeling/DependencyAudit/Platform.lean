import DependencyAudit.Names

namespace DependencyAudit

/-- The two requests for the completion of command lines in a shell. -/
inductive Completion where
  | install
  | print
  deriving DecidableEq, Repr

/-- What a request is answered with, and whether it could not be met. -/
structure Response where
  output : String
  error : String
  failed : Bool
  deriving DecidableEq, Repr

/-- What an audit takes from where it runs. -/
class Platform where
  /-- How deep the text of a file may be nested, be it the settings or a manifest. -/
  nestingDepth : Nat
  /-- The directory or pattern that a name of the settings stands for which is no text. -/
  standIn : Name → String
  /-- Why the parameters of a tag that names a handler are not read, if they are not. -/
  handlerFault? : List Char → Option String
  /-- Of the tags in texts that are printed together, among those that cannot be drawn, the number
  of the first one that something is drawn for. -/
  drawn? : Nat → List (List Char) → Option Nat
  /-- The help, as it is printed. -/
  help : String
  /-- The answer to a request for completion. -/
  completion : Completion → Response

namespace Platform

/-- The help of the program, without the frames that are drawn around it on a terminal. -/
def helpText : String :=
  String.intercalate "\n"
    ["Usage: depcheck-lite [OPTIONS] [PATH]",
      "",
      "Find declared dependencies that no source file imports.",
      "",
      "Exits with code 1 when unused dependencies are found, so it can gate CI.",
      "",
      "  PATH                        Path to the project containing package.json",
      "",
      "  --json                      Output results as JSON",
      "  -i, --ignore TEXT           Ignore a specific package (repeatable)",
      "  -d, --dirs TEXT             Comma-separated list of directories to scan",
      "  -e, --exclude TEXT          Gitignore-style pattern of paths to skip (repeatable)",
      "  -o, --output PATH           Also write the JSON results to this file",
      "  --interactive               Select unused packages to uninstall after the analysis",
      "  -p, --package-manager TEXT  Package manager used for removal (npm, yarn, pnpm;",
      "                              default: detected)",
      "  -v, --verbose               Show scan statistics",
      "  -V, --version               Show version and exit",
      "  --install-completion        Install completion for the current shell.",
      "  --show-completion           Show completion for the current shell, to copy it or",
      "                              customize the installation.",
      "  --help                      Show this message and exit.",
      ""]

/-- The platform of the program as it is built here. No path has the character NUL in it, which stands
for every half of a surrogate pair. The parameters of a handler are taken to be read, and all tags of a
text to be drawn in their order. -/
@[reducible] def standard : Platform where
  nestingDepth := 950
  standIn name := String.ofList (name.points.map fun p => p.char?.getD '\x00')
  handlerFault? _ := none
  drawn? _ _ := some 0
  help := helpText
  completion _ := ⟨"", "Shell None not supported.\n", true⟩

end Platform

end DependencyAudit
