import DependencyAudit.Analysis
import DependencyAudit.Json.Literal
import DependencyAudit.Text.Pieces

namespace DependencyAudit.Report

/-- A list of names, one to a line. -/
def namesText (names : List Name) : List Char :=
  if names = [] then ['[', ']']
  else
    "[\n    ".toList ++
      Text.joinWith ",\n    ".toList (names.map fun name => Json.literal name.points) ++
      "\n  ]".toList

/-- The characters of the document of a result. -/
def documentChars (result : Result) : List Char :=
  "\x7b\n  \"unused\": ".toList ++ namesText result.unused ++
    ",\n  \"used\": ".toList ++ namesText result.used ++
    ",\n  \"total\": ".toList ++ Nat.toDigits 10 result.total ++ "\n\x7d".toList

/-- The document of a result. It has no line end after it. -/
def document (result : Result) : String := String.ofList (documentChars result)

/-- What a writer to a stream writes of a list of names, one text after the other. -/
def namesStrokes : List Name → List (List Char)
  | [] => ["[]".toList]
  | first :: others =>
    ("[\n    ".toList ++ Json.literal first.points) ::
      others.map (fun name => ",\n    ".toList ++ Json.literal name.points) ++
      ["\n  ".toList, "]".toList]

/-- What a writer to a stream writes of a result: what separates two members, each key, the colon
after it and each part of its value are texts of their own. -/
def strokes (result : Result) : List (List Char) :=
  let key (name : String) : List Char := Json.literal (Text.points name)
  [['\x7b'], "\n  ".toList, key "unused", ": ".toList] ++ namesStrokes result.unused ++
    [",\n  ".toList, key "used", ": ".toList] ++ namesStrokes result.used ++
    [",\n  ".toList, key "total", ": ".toList, Nat.toDigits 10 result.total, "\n".toList, ['\x7d']]

end DependencyAudit.Report
