import DependencyAudit.Proofs.Text.Blank
import DependencyAudit.Proofs.Text.Pieces
import Mathlib.Data.List.TakeWhile

namespace DependencyAudit.Text

/-- The text consists of these runs, each as long as it can be, and of characters that separate. -/
inductive Runs (separates : Char → Bool) : List Char → List (List Char) → Prop
  | none {s} (only : ∀ c ∈ s, separates c = true) : Runs separates s []
  | next {lead run rest others} (only : ∀ c ∈ lead, separates c = true) (nonempty : run ≠ [])
      (free : ∀ c ∈ run, separates c = false) (ends : ∀ c ∈ rest.head?, separates c = true)
      (later : Runs separates rest others) : Runs separates (lead ++ run ++ rest) (run :: others)

/-- The pieces of a text that are not empty. -/
def runs (separates : Char → Bool) (s : List Char) : List (List Char) :=
  (pieces separates s).filter (· ≠ [])

variable {separates : Char → Bool} {c : Char} {s run : List Char} {parts : List (List Char)}

@[simp] theorem runs_nil : runs separates [] = [] := rfl

/-- A text is read in two parts where a character separates them. -/
theorem runs_append_cons (separator : separates c = true) (s rest : List Char) :
    runs separates (s ++ c :: rest) = runs separates s ++ runs separates rest := by
  rw [runs, pieces_append_cons separator, List.filter_append]
  rfl

theorem runs_of_only (only : ∀ c ∈ s, separates c = true) : runs separates s = [] := by
  induction s with
  | nil => rfl
  | cons d more ih =>
    obtain ⟨here, later⟩ := List.forall_mem_cons.mp only
    rw [← List.nil_append (d :: more), runs_append_cons here, ih later]
    rfl

theorem runs_of_free (nonempty : run ≠ []) (free : ∀ c ∈ run, separates c = false) :
    runs separates run = [run] := by
  simp [runs, pieces_of_free free, nonempty]

/-- Separators before a text do not matter. -/
theorem runs_only_append (only : ∀ c ∈ s, separates c = true) (rest : List Char) :
    runs separates (s ++ rest) = runs separates rest := by
  induction s with
  | nil => rfl
  | cons d more ih =>
    obtain ⟨here, later⟩ := List.forall_mem_cons.mp only
    rw [← ih later, List.cons_append, ← List.nil_append (d :: _), runs_append_cons here]
    rfl

/-- Separators after a text do not matter. -/
theorem runs_append_only (only : ∀ c ∈ run, separates c = true) (s : List Char) :
    runs separates (s ++ run) = runs separates s := by
  cases run with
  | nil => rw [List.append_nil]
  | cons d more =>
    obtain ⟨here, later⟩ := List.forall_mem_cons.mp only
    rw [runs_append_cons here, runs_of_only later, List.append_nil]

theorem Runs.eq_runs (reads : Runs separates s parts) : parts = runs separates s := by
  induction reads with
  | none only => exact (runs_of_only only).symm
  | @next lead run rest others only nonempty free ends later ih =>
    rw [List.append_assoc, runs_only_append only, ih]
    cases rest with
    | nil => rw [List.append_nil, runs_of_free nonempty free, runs_nil]
    | cons d more =>
      have separator := ends d rfl
      rw [runs_append_cons separator, runs_of_free nonempty free, ← List.nil_append (d :: more),
        runs_append_cons separator]
      rfl

/-- Every text has runs: what separates is passed over, and then what does not. -/
theorem exists_runs (separates : Char → Bool) (s : List Char) : ∃ parts, Runs separates s parts := by
  let lead := s.takeWhile separates
  have split : lead ++ s.dropWhile separates = s := List.takeWhile_append_dropWhile
  have only : ∀ c ∈ lead, separates c = true := fun _ => List.mem_takeWhile_imp
  cases shape : s.dropWhile separates with
  | nil =>
    rw [shape, List.append_nil] at split
    exact ⟨[], .none (split ▸ only)⟩
  | cons d more =>
    let run := more.takeWhile (!separates ·)
    have first := List.head?_dropWhile_not separates s
    rw [shape] at first
    have free : ∀ c ∈ d :: run, separates c = false :=
      List.forall_mem_cons.mpr ⟨first, fun c member => by simpa using List.mem_takeWhile_imp member⟩
    have ends : ∀ c ∈ (more.dropWhile (!separates ·)).head?, separates c = true := by
      intro c atHead
      have stops := List.head?_dropWhile_not (!separates ·) more
      rw [Option.mem_def.mp atHead] at stops
      simpa using stops
    obtain ⟨others, later⟩ := exists_runs separates (more.dropWhile (!separates ·))
    refine ⟨(d :: run) :: others, ?_⟩
    have whole : lead ++ (d :: run) ++ more.dropWhile (!separates ·) = s := by
      rw [List.append_assoc, List.cons_append, List.takeWhile_append_dropWhile, ← shape, split]
    rw [← whole]
    exact .next only (List.cons_ne_nil d run) free ends later
termination_by s.length
decreasing_by
  have left := (List.dropWhile_suffix (l := more) (!separates ·)).length_le
  have right := (List.dropWhile_suffix (l := s) separates).length_le
  rw [shape, List.length_cons] at right
  omega

/-- A text has one list of runs. -/
theorem runs_iff : Runs separates s parts ↔ parts = runs separates s := by
  refine ⟨Runs.eq_runs, fun same => ?_⟩
  obtain ⟨others, reads⟩ := exists_runs separates s
  rw [same, ← reads.eq_runs]
  exact reads

theorem free_of_mem_runs (member : run ∈ runs separates s) :
    run ≠ [] ∧ ∀ c ∈ run, separates c = false := by
  have reads : Runs separates s (runs separates s) := runs_iff.mpr rfl
  revert member
  generalize runs separates s = parts at reads
  intro member
  induction reads with
  | none => cases member
  | next only nonempty free ends later ih =>
    rcases List.mem_cons.mp member with rfl | inOthers
    · exact ⟨nonempty, free⟩
    · exact ih inOthers

/-- Blanks at the ends of a text do not matter where blanks separate. -/
theorem runs_trim (blanks : ∀ c, isBlank c = true → separates c = true) (s : List Char) :
    runs separates (trim s) = runs separates s := by
  obtain ⟨-, before, after, whole, only⟩ := pads_trim s
  obtain ⟨onlyBefore, onlyAfter⟩ := List.forall_mem_append.mp only
  calc runs separates (trim s)
      = runs separates (before ++ trim s) :=
        (runs_only_append (fun c member => blanks c (onlyBefore c member)) _).symm
    _ = runs separates (before ++ trim s ++ after) :=
        (runs_append_only (fun c member => blanks c (onlyAfter c member)) _).symm
    _ = runs separates s := by rw [← whole]

end DependencyAudit.Text
