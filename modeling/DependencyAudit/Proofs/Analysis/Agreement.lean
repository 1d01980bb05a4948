import DependencyAudit.Proofs.Analysis.Order
import DependencyAudit.Proofs.FileSystem.Stored
import DependencyAudit.Proofs.Scan.Agreement

namespace DependencyAudit

open FileSystem

theorem Manifest.load_eq_of_shows [Platform] {view other : View} {project : Path} {t : Tree}
    (shown : view.Shows project t) (shown' : other.Shows project t)
    (manifest : (pathIn project).Fits) : load view project = load other project := by
  have named : [fileName] ≠ [] := List.cons_ne_nil _ _
  have fits : (project.down [fileName]).Fits := manifest
  rw [load, load, show pathIn project = project.down [fileName] from rfl,
    shown.exists_eq _ named fits, shown'.exists_eq _ named fits]
  cases stands : t.at? [fileName] with
  | none => rfl
  | some item =>
    have read : view.read (project.down [fileName]) = other.read (project.down [fileName]) := by
      cases item with
      | text s => rw [shown.read_text _ s fits stands, shown'.read_text _ s fits stands]
      | directory =>
        rw [shown.read_directory _ named fits stands, shown'.read_directory _ named fits stands]
    rw [read]

namespace Analyzer

variable {view other : View} {project : Path} {t : Tree} {a : Analyzer}

/-- An analyzer is made only of a tree with a manifest in it. -/
theorem entries_ne_nil_of_load [Platform] {ignore : List Name} {directories : List String}
    {e : Exclusion.Excluder}
    (shown : view.Shows project t) (manifest : (Manifest.pathIn project).Fits)
    (loaded : load view project ignore directories e = .ok a) : t.entries ≠ [] := by
  intro empty
  have missing : view.exists? (Manifest.pathIn project) = .ok false := by
    refine (shown.exists_eq [Manifest.fileName] (List.cons_ne_nil _ _) manifest).trans ?_
    rw [Tree.at?, empty]
    rfl
  obtain ⟨_, read, -⟩ := exists_manifest_of_load loaded
  rw [Manifest.load, missing] at read
  cases read

/-- Views that show the same tree have the same analysis. -/
theorem analyze_eq_of_shows (shown : view.Shows a.project t) (shown' : other.Shows a.project t)
    (fits : ∀ entry ∈ t.entries, (a.project.down entry.1).Fits) (nonempty : t.entries ≠ [])
    (relative : ∀ name ∈ Scan.effective a.directories, Scan.Relative a.project name) :
    a.analyze view = a.analyze other := by
  have files : (a.scan view).found.files.Perm (a.scan other).found.files :=
    Scan.files_scan_perm_of_shows shown shown' fits nonempty relative
  -- Both scans find texts of the tree alone, which both views read, so neither analysis fails.
  have texts : ∀ path ∈ (a.scan view).found.files,
      ∃ text, view.read path = .ok text ∧ other.read path = .ok text := by
    intro path found
    obtain ⟨names, s, rfl, fits', isText⟩ :=
      Scan.exists_text_of_mem_files shown fits nonempty relative found
    exact ⟨s, shown.read_text names s fits' isText, shown'.read_text names s fits' isText⟩
  have through : (a.scan view).refusal = none :=
    Scan.refusal_scan_eq_none_iff.mpr (Scan.answers_of_shows shown nonempty relative)
  have through' : (a.scan other).refusal = none :=
    Scan.refusal_scan_eq_none_iff.mpr (Scan.answers_of_shows shown' nonempty relative)
  obtain ⟨result, statistics, ended⟩ := exists_result_iff.mpr
    ⟨fun path found => (texts path found).imp fun _ reads => reads.1, through⟩
  obtain ⟨result', statistics', ended'⟩ := exists_result_iff.mpr
    ⟨fun path found => (texts path (files.mem_iff.mpr found)).imp fun _ reads => reads.2, through'⟩
  have first := reconciles_of_analyze ended
  have second : Reconciles view (· ∈ a.declared) (a.scan other).found result' statistics' := by
    refine (reconciles_of_analyze ended').of_read_eq fun path found => ?_
    obtain ⟨text, read, read'⟩ := texts path (files.mem_iff.mpr found)
    rw [read, read']
  obtain rfl := first.result_eq second fun path => files.mem_iff
  obtain ⟨scanned, references⟩ := first.counts_eq second files
  have skipped : statistics.skipped = statistics'.skipped := by
    have listed : (a.scan view).found.skipped = [] :=
      Scan.skipped_scan_of_shows shown fits nonempty relative
    have listed' : (a.scan other).found.skipped = [] :=
      Scan.skipped_scan_of_shows shown' fits nonempty relative
    rw [first.skipped_eq, second.skipped_eq, listed, listed']
  rw [ended, ended']
  cases statistics
  cases statistics'
  cases scanned
  cases references
  cases skipped
  rfl

/-- The answer for a project: an analyzer is made for it, with these lines of patterns to leave out,
and analyses it. -/
def answer [Platform] (view : View) (project : Path) (ignore : List Name)
    (directories settings commandLine : List String) : Except Failure (Result × Statistics) := do
  let excluder ← (Exclusion.Excluder.ofLines project settings commandLine).mapError .pattern
  let a ← load view project ignore directories excluder
  a.analyze view

theorem answer_eq_of_shows [Platform] (shown : view.Shows project t) (shown' : other.Shows project t)
    (fits : ∀ entry ∈ t.entries, (project.down entry.1).Fits)
    (manifest : (Manifest.pathIn project).Fits) {directories : List String}
    (relative : ∀ name ∈ directories, Scan.Relative project name)
    (ignore : List Name) (settings commandLine : List String) :
    answer view project ignore directories settings commandLine =
      answer other project ignore directories settings commandLine := by
  unfold answer
  refine congrArg _ (funext fun e => ?_)
  have same : load view project ignore directories e = load other project ignore directories e := by
    rw [load, load, Manifest.load_eq_of_shows shown shown' manifest]
  rw [← same]
  cases loaded : load view project ignore directories e with
  | error failure => rfl
  | ok a =>
    have nonempty := entries_ne_nil_of_load shown manifest loaded
    obtain ⟨_, -, rfl⟩ := exists_manifest_of_load loaded
    exact analyze_eq_of_shows shown shown' fits nonempty
      (Scan.relative_effective manifest relative)

/-- A disk on which a tree is stored has the answer of the tree in memory, with one kind of line end
there. It has the same answer when line feeds are replaced by pairs of two characters. -/
theorem answer_eq_memory [Platform] {d : Disk} (stores : d.Stores project t)
    (fits : ∀ entry ∈ t.entries, (project.down entry.1).Fits)
    (manifest : (Manifest.pathIn project).Fits) {directories : List String}
    (relative : ∀ name ∈ directories, Scan.Relative project name)
    (ignore : List Name) (settings commandLine : List String) :
    (∀ view other, d.view.Reorders view → (t.unified.memory project).view.Reorders other →
      answer view project ignore directories settings commandLine =
        answer other project ignore directories settings commandLine) ∧
    ∀ (t' : Tree) (d' : Disk), t.Converts t' → d'.Stores project t' →
      ∀ view view', d.view.Reorders view → d'.view.Reorders view' →
        answer view' project ignore directories settings commandLine =
          answer view project ignore directories settings commandLine := by
  have shown := stores.shows fits
  have fitsUnified : ∀ entry ∈ t.unified.entries, (project.down entry.1).Fits := by
    intro entry entered
    obtain ⟨before, written, rfl⟩ := List.mem_map.mp entered
    exact fits before written
  constructor
  · intro view other same same'
    exact answer_eq_of_shows (shown.of_reorders same)
      ((Tree.shows_memory _ project).of_reorders same') fitsUnified manifest relative _ _ _
  · intro t' d' converts stores' view view' same same'
    have shown' := stores'.shows (converts.fits fits)
    rw [converts.unified_eq] at shown'
    exact answer_eq_of_shows (shown'.of_reorders same') (shown.of_reorders same) fitsUnified manifest
      relative _ _ _

/-- A project with one source file, which ends with a line feed. -/
def lineFedTree : Tree where
  entries :=
    [(["package.json"], .text "\x7b\"dependencies\": \x7b\"left-pad\": \"1\"\x7d\x7d"),
      (["src", "a.js"], .text "import 'left-pad'\n")]
  named := by decide
  leaves := by decide +kernel

/-- The project with the other line end in the source file. -/
def returnedTree : Tree where
  entries :=
    [(["package.json"], .text "\x7b\"dependencies\": \x7b\"left-pad\": \"1\"\x7d\x7d"),
      (["src", "a.js"], .text "import 'left-pad'\r\n")]
  named := by decide
  leaves := by decide +kernel

theorem converts_lineFedTree : lineFedTree.Converts returnedTree := by
  have source : Item.Converts (.text "import 'left-pad'\n") (.text "import 'left-pad'\r\n") := by
    have text : "import 'left-pad'\r\n" =
        String.ofList (Text.withReturns "import 'left-pad'\n".toList) := by decide +kernel
    rw [text]
    exact .text (by decide +kernel)
  exact .cons ⟨rfl, .same _⟩ (.cons ⟨rfl, source⟩ .nil)

attribute [local instance] Platform.standard in
/-- The project on a disk that lists backwards, and with either line end. -/
theorem answer_eq_memory_of_lineFedTree :
    answer (lineFedTree.disk ["work", "app"]).view.backwards Scan.application [] ["src"] [] [] =
        answer (lineFedTree.unified.memory Scan.application).view Scan.application [] ["src"] [] [] ∧
      answer (returnedTree.disk ["work", "app"]).view Scan.application [] ["src"] [] [] =
        answer (lineFedTree.disk ["work", "app"]).view Scan.application [] ["src"] [] [] := by
  have relative : ∀ name ∈ ["src"], Scan.Relative Scan.application name := by
    intro name named
    obtain rfl := List.mem_singleton.mp named
    exact ⟨by decide +kernel, by decide +kernel⟩
  obtain ⟨memory, converted⟩ := answer_eq_memory (lineFedTree.stores_disk ["work", "app"])
    (by decide +kernel) (by decide +kernel) relative [] [] []
  exact ⟨memory _ _ (View.reorders_backwards _) (.refl _),
    converted returnedTree _ converts_lineFedTree (returnedTree.stores_disk ["work", "app"]) _ _
      (.refl _) (.refl _)⟩

end Analyzer

end DependencyAudit
