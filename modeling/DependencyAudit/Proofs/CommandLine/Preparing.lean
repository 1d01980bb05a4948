import DependencyAudit.CommandLine.Run
import DependencyAudit.Proofs.Conversation
import DependencyAudit.Proofs.Terminal.Markup

namespace DependencyAudit.CommandLine

open Conversation FileSystem Removal

/-- The arguments are in order and lead to a project. -/
structure Prepared (disk : Disk) (o : Options) (project : Path) : Prop where
  noNul : ¬ (Disk.hasNul (projectPath o) ∨ hasNulOutput o)
  resolved : disk.realPath (projectPath o) = .ok project
  known : ∀ name, o.manager = some name → (Manager.ofName? name).isSome

variable [Platform]

/-- The line that reports a failure. -/
def errorLine (message : String) : String := s!"[red]Error:[/] {message}"

/-- The line that refuses the manager which the options name. -/
def refusalLine : String :=
  errorLine s!"--package-manager must be one of {Manager.knownNames}"

theorem exists_page_error {message : String} (plain : '[' ∉ message.toList) :
    ∃ text, Terminal.page consoleWidth (errorLine message) = .ok text :=
  Terminal.exists_page_of_styled [] "red".toList "Error:".toList (' ' :: message.toList)
    (by simp [errorLine, toString]) (Terminal.opensStyle_own (by decide)) (by decide) (by decide)
    (by simpa using plain) consoleWidth

/-- How it ends to check what can be told from the arguments alone, and what is done on the way. -/
inductive PreparesTo (world : World) (o : Options) : List Event → Except Ending Path → Prop
  | ready {project : Path} : Prepared world.disk o project → PreparesTo world o [] (.ok project)
  | nulCharacter :
      Disk.hasNul (projectPath o) ∨ hasNulOutput o →
        PreparesTo world o [] (.error (.failed .nulCharacter))
  | tooMany : 1 < o.positional.length → PreparesTo world o [] (.error (.finished 2))
  | linkLoop {path : Path} :
      world.disk.realPath (projectPath o) = .error path →
        PreparesTo world o [] (.error (.failed (.linkLoop path)))
  | unknownManager {name text : String} :
      o.manager = some name → Manager.ofName? name = none →
        Terminal.page consoleWidth refusalLine = .ok text →
        PreparesTo world o [.printed .error text] (.error (.finished 1))

theorem preparesTo_prepare (world : World) (o : Options) :
    Meets (prepare world o) (PreparesTo world o) := by
  unfold prepare
  dsimp only
  split
  next nul => exact .of_throw_bind (.nulCharacter nul)
  next noNul =>
  split
  next more => exact .of_throw_bind (.tooMany more)
  refine .ofExcept_bind_cases (fun path loop => .linkLoop loop) fun project resolved => ?_
  split
  next empty =>
    refine .of_pure (.ready ⟨noNul, resolved, fun name named => ?_⟩)
    cases empty.symm.trans named
  next name named =>
    split
    next unknown =>
      have plain : '[' ∉ s!"--package-manager must be one of {Manager.knownNames}".toList := by
        decide
      obtain ⟨text, laid⟩ := exists_page_error plain
      refine .say_bind_cases (fun fault refused => ?_) fun text' laid' => ?_
      · cases laid.symm.trans refused
      · exact .of_throw_bind
          (.unknownManager named (Option.isNone_iff_eq_none.mp unknown) laid')
    next known =>
      refine .of_pure (.ready ⟨noNul, resolved, fun other named' => ?_⟩)
      cases named.symm.trans named'
      exact Option.isSome_iff_ne_none.mpr fun empty => known (by rw [empty]; rfl)

/-- How it ends to meet a request, and what is done on the way. -/
inductive AnswersTo (o : Options) : Request → List Event → Except Ending Nat → Prop
  | version {text : String} :
      Terminal.page consoleWidth versionLine = .ok text →
        AnswersTo o .version [.printed .output text] (.ok 0)
  | help : AnswersTo o .help [.printed .output Platform.help] (.ok 0)
  | completion {kind : Completion} :
      ¬ (o.outputFirst ∧ hasNulOutput o) → AnswersTo o (.completion kind)
        [.printed .output (Platform.completion kind).output,
          .printed .error (Platform.completion kind).error]
        (.ok (if (Platform.completion kind).failed then 1 else 0))
  | nulCharacter {kind : Completion} :
      o.outputFirst ∧ hasNulOutput o →
        AnswersTo o (.completion kind) [] (.error (.failed .nulCharacter))

theorem answersTo_answer (o : Options) (request : Request) :
    Meets (answer o request) (AnswersTo o request) := by
  cases request with
  | version =>
    obtain ⟨text, laid⟩ := Terminal.exists_page_of_plain
      (by decide : '[' ∉ versionLine.toList) consoleWidth
    refine .say_bind_cases (fun fault refused => ?_) fun text' laid' => .of_pure (.version laid')
    cases laid.symm.trans refused
  | help => exact .note_bind rfl (.of_pure .help)
  | completion kind =>
    unfold answer
    dsimp only
    split
    next nul => exact .of_throw_bind (.nulCharacter nul)
    next noNul => exact .note_bind rfl (.note_bind rfl (.of_pure (.completion noNul)))

end DependencyAudit.CommandLine
