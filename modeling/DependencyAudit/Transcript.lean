import DependencyAudit.Failure
import DependencyAudit.Terminal.Page

namespace DependencyAudit

/-- Where a text is printed. -/
inductive Stream where
  | output
  | error
  deriving DecidableEq, Repr

/-- One thing that a program does. -/
inductive Event where
  | printed (stream : Stream) (text : String)
  /-- A line of input has been read. -/
  | answered (line : String)
  /-- A source file has been opened for reading. -/
  | opened (path : Path)
  /-- A file has been written. -/
  | wrote (path : Path) (text : String)
  /-- A program has been run in a directory. -/
  | called (command : List Name) (directory : Path)
  deriving DecidableEq, Repr

/-- Why a conversation ends early. -/
inductive Ending where
  | failed (failure : Failure)
  /-- The input ended at a question. -/
  | aborted
  /-- The program is done, with this status. -/
  | finished (status : Nat)
  deriving DecidableEq, Repr

/-- The state of a conversation: the answers to come and what has been done. -/
structure Desk where
  answers : List String
  transcript : List Event
  deriving DecidableEq, Repr

/-- A conversation. -/
abbrev Conversation := ExceptT Ending (StateM Desk)

/-- How a console reads an answer. -/
inductive Reading where
  /-- Lines with their line ends. The end of the input takes the default of the question. -/
  | wholeLines
  /-- Lines without line ends. An empty one takes the default; the end of the input aborts. -/
  | bareLines
  deriving DecidableEq, Repr

/-- A console: its width, where it prints, and how it reads. -/
structure Console where
  width : Nat
  stream : Stream
  reading : Reading
  deriving DecidableEq, Repr

namespace Conversation

/-- Ends a conversation with a failure. -/
def fail {α : Type} (failure : Failure) : Conversation α := throw (.failed failure)

/-- The value of a computation; its failure ends the conversation. -/
def ofExcept {ε α : Type} (toFailure : ε → Failure) : Except ε α → Conversation α
  | .ok value => pure value
  | .error error => fail (toFailure error)

/-- Adds to the transcript. -/
def note (event : Event) : Conversation Unit :=
  modify fun desk => { desk with transcript := desk.transcript ++ [event] }

/-- Takes the next line of input, if there is one. -/
def nextLine : Conversation (Option String) := do
  let desk ← get
  match desk.answers with
  | [] => return none
  | line :: rest =>
    set { desk with answers := rest }
    note (.answered line)
    return some line

section

variable [Platform]

/-- Prints a text with markup on lines of its own. -/
def say (console : Console) (markup : String) : Conversation Unit := do
  let text ← ofExcept .markup (Terminal.page console.width markup)
  note (.printed console.stream text)

/-- What is printed for points with markup. Halves of surrogate pairs are not printed on standard
output; on standard error their escapes are. -/
def paged (console : Console) (markup : List Text.Point) : Except Failure String :=
  match Text.ofPoints? markup with
  | some text => (Terminal.page console.width text).mapError .markup
  | none => do
    let shown ← (Terminal.pagePoints console.width markup).mapError .markup
    match console.stream, Text.encodeFault? (fun _ => false) 0 shown with
    | .output, some fault => throw (.unprintable fault)
    | _, _ => return Text.ofEscaped shown

/-- Prints points with markup on lines of their own. -/
def tell (console : Console) (markup : List Text.Point) : Conversation Unit := do
  let text ← ofExcept id (paged console markup)
  note (.printed console.stream text)

/-- Asks a question; the default of the question is taken where there is no answer. -/
def ask (console : Console) (question : String) : Conversation (Option String) := do
  let text ← ofExcept .markup (Terminal.inline console.width question)
  note (.printed console.stream text)
  match console.reading, ← nextLine with
  | .wholeLines, line => return line
  | .bareLines, none => throw .aborted
  | .bareLines, some line => return if line = "" then none else some line

/-- Asks a question until an answer is understood, but not more often than `n` times. -/
def askAgain {α : Type} (console : Console) (question complaint : String) (default : α)
    (understand : String → Option α) : Nat → Conversation α
  | 0 => return default
  | n + 1 => do
    match ← ask console question with
    | none => return default
    | some line =>
      match understand line with
      | some value => return value
      | none =>
        say console complaint
        askAgain console question complaint default understand n

/-- Asks a question until an answer is understood or no answer is left. -/
def askUntil {α : Type} (console : Console) (question complaint : String) (default : α)
    (understand : String → Option α) : Conversation α := do
  let desk ← get
  askAgain console question complaint default understand (desk.answers.length + 1)

end

end Conversation

end DependencyAudit
