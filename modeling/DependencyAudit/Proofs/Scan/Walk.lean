import DependencyAudit.Scan
import Mathlib.Data.List.Flatten
import Mathlib.Logic.Relation

namespace DependencyAudit.Scan

open FileSystem

namespace Found

@[simp] theorem files_append (a b : Found) : (a ++ b).files = a.files ++ b.files := rfl

@[simp] theorem skipped_append (a b : Found) : (a ++ b).skipped = a.skipped ++ b.skipped := rfl

@[simp] theorem concat_nil : concat [] = none := rfl

@[simp] theorem concat_cons (a : Found) (rest : List Found) :
    concat (a :: rest) = a ++ concat rest := rfl

@[simp] theorem none_append (a : Found) : none ++ a = a := rfl

@[simp] theorem append_none (a : Found) : a ++ none = a := by
  show Found.mk _ _ = a
  simp only [none, List.append_nil]

theorem append_assoc (a b c : Found) : a ++ b ++ c = a ++ (b ++ c) := by
  show Found.mk _ _ = Found.mk _ _
  simp only [files_append, skipped_append, List.append_assoc]

theorem concat_append (first second : List Found) :
    concat (first ++ second) = concat first ++ concat second := by
  induction first with
  | nil => rfl
  | cons a rest ih => simp only [List.cons_append, concat_cons, ih, append_assoc]

/-- A list of paths that is read off findings part by part, as the files and the skipped
directories are. -/
structure Reading (part : Found → List Path) : Prop where
  none : part Found.none = []
  append : ∀ a b, part (a ++ b) = part a ++ part b

theorem reading_files : Reading files := ⟨rfl, files_append⟩

theorem reading_skipped : Reading skipped := ⟨rfl, skipped_append⟩

theorem Reading.concat {part : Found → List Path} (reading : Reading part)
    (findings : List Found) : part (concat findings) = findings.flatMap part := by
  induction findings with
  | nil => exact reading.none
  | cons a rest ih => rw [concat_cons, reading.append, ih, List.flatMap_cons]

end Found

section

variable (view : View) (excluder : Exclusion.Excluder)

/-- The source files that a directory holds itself. -/
def sourcesIn (directory : Path) (entries : List Entry) : List Path :=
  (entries.filter (isSource excluder directory)).map (directory.child ·.name)

/-- The directories in a directory that a walk enters, the one listed last in front. -/
def enteredIn (directory : Path) (entries : List Entry) : List Path :=
  (entries.filter (isEntered excluder directory)).reverse.map (directory.child ·.name)

/-- What is found in a directory itself. -/
def own (directory : Path) : Found :=
  match view.list directory with
  | .error _ => ⟨[], [directory]⟩
  | .ok entries => ⟨sourcesIn excluder directory entries, []⟩

/-- The directories that a walk goes on to from a directory; none where it cannot be listed. -/
def inside (directory : Path) : List Path :=
  match view.list directory with
  | .error _ => []
  | .ok entries => enteredIn excluder directory entries

/-- What walks through the directories of a stack find, one after the other. -/
def pending (stack : List Path) : Found := Found.concat (stack.map (walk view excluder))

/-- One turn of the loop of a walk: the uppermost directory leaves the stack and is listed. Its own
files are found, and the directories in it come onto the stack; if it cannot be listed, it is noted
and nothing comes onto the stack. -/
inductive Turn : List Path × Found → List Path × Found → Prop
  | refused {directory stack found refusal} :
      view.list directory = .error refusal →
      Turn (directory :: stack, found) (stack, found ++ ⟨[], [directory]⟩)
  | listed {directory stack found entries} :
      view.list directory = .ok entries →
      Turn (directory :: stack, found)
        (enteredIn excluder directory entries ++ stack,
          found ++ ⟨sourcesIn excluder directory entries, []⟩)

end

variable {view : View} {excluder : Exclusion.Excluder}

theorem walk_eq_own_append (directory : Path) :
    walk view excluder directory =
      own view excluder directory ++ pending view excluder (inside view excluder directory) := by
  rw [walk_eq]
  unfold own inside
  cases view.list directory with
  | error refusal => simp only [pending, List.map_nil, Found.concat_nil, Found.append_none]
  | ok entries =>
    simp only [pending, enteredIn, List.map_map]
    rfl

theorem pending_cons (directory : Path) (stack : List Path) :
    pending view excluder (directory :: stack) =
      walk view excluder directory ++ pending view excluder stack := rfl

theorem pending_append (first second : List Path) :
    pending view excluder (first ++ second) =
      pending view excluder first ++ pending view excluder second := by
  simp only [pending, List.map_append, Found.concat_append]

theorem turn_top (directory : Path) (stack : List Path) (found : Found) :
    Turn view excluder (directory :: stack, found)
      (inside view excluder directory ++ stack, found ++ own view excluder directory) := by
  unfold inside own
  split
  next refused => exact .refused refused
  next listed => exact .listed listed

/-- A turn says what becomes of the uppermost directory, and there is only one. -/
theorem Turn.eq_top {before after : List Path × Found} (turn : Turn view excluder before after) :
    ∃ directory stack, before.1 = directory :: stack ∧
      after = (inside view excluder directory ++ stack,
        before.2 ++ own view excluder directory) := by
  cases turn with
  | refused refused => exact ⟨_, _, rfl, by simp only [inside, own, refused, List.nil_append]⟩
  | listed listed => exact ⟨_, _, rfl, by simp only [inside, own, listed]⟩

/-- What is found and what is pending change hands in a turn, but nothing is lost or doubled. -/
theorem Turn.balance {before after : List Path × Found} (turn : Turn view excluder before after) :
    after.2 ++ pending view excluder after.1 = before.2 ++ pending view excluder before.1 := by
  obtain ⟨directory, stack, top, rfl⟩ := turn.eq_top
  rw [top, pending_append, pending_cons, walk_eq_own_append directory]
  simp only [Found.append_assoc]

/-- However long the loop has run, what is found together with what is pending stays the same. -/
theorem balance_of_turns {before after : List Path × Found}
    (turns : Relation.ReflTransGen (Turn view excluder) before after) :
    after.2 ++ pending view excluder after.1 = before.2 ++ pending view excluder before.1 := by
  induction turns with
  | refl => rfl
  | tail _ turn ih => rw [turn.balance, ih]

/-- Ranks fall on the way down, so a walk does not go down for ever. -/
theorem rank_lt_of_mem_inside {directory child : Path}
    (member : child ∈ inside view excluder directory) : view.rank child < view.rank directory := by
  unfold inside at member
  split at member
  · cases member
  next listed =>
    obtain ⟨entry, kept, rfl⟩ := List.mem_map.mp member
    obtain ⟨inListing, enters⟩ := List.mem_filter.mp (List.mem_reverse.mp kept)
    exact view.rank_child_lt listed inListing (directory_of_isEntered enters)

/-- The loop works off the directory on top of its stack, with all that is below it. -/
theorem turns_top (directory : Path) (stack : List Path) (found : Found) :
    Relation.ReflTransGen (Turn view excluder) (directory :: stack, found)
      (stack, found ++ walk view excluder directory) := by
  induction ranked : view.rank directory using Nat.strongRecOn
    generalizing directory stack found with
  | _ rank ih =>
    have children : ∀ (others : List Path) (sofar : Found),
        (∀ child ∈ others, view.rank child < rank) →
        Relation.ReflTransGen (Turn view excluder) (others ++ stack, sofar)
          (stack, sofar ++ pending view excluder others) := by
      intro others
      induction others with
      | nil =>
        intro sofar _
        simpa [pending] using Relation.ReflTransGen.refl
      | cons child others lower =>
        intro sofar smaller
        have first := ih _ (smaller child List.mem_cons_self) child (others ++ stack) sofar rfl
        have later := lower (sofar ++ walk view excluder child)
          fun other member => smaller other (List.mem_cons_of_mem _ member)
        rw [Found.append_assoc] at later
        exact first.trans later
    have below := children (inside view excluder directory) (found ++ own view excluder directory)
      fun child member => ranked ▸ rank_lt_of_mem_inside member
    rw [walk_eq_own_append, ← Found.append_assoc]
    exact .head (turn_top directory stack found) below

theorem turns_all (stack : List Path) (found : Found) :
    Relation.ReflTransGen (Turn view excluder) (stack, found)
      ([], found ++ pending view excluder stack) := by
  induction stack generalizing found with
  | nil => simpa [pending] using Relation.ReflTransGen.refl
  | cons directory stack ih =>
    have later := ih (found ++ walk view excluder directory)
    rw [Found.append_assoc] at later
    exact (turns_top directory stack found).trans later

/-- Whatever is on its stack, the loop comes to an end. -/
theorem wellFounded_turn :
    WellFounded fun after before : List Path × Found => Turn view excluder before after := by
  constructor
  intro state
  obtain ⟨final, ends⟩ : ∃ final, Relation.ReflTransGen (Turn view excluder) state ([], final) :=
    ⟨_, turns_all state.1 state.2⟩
  induction ends using Relation.ReflTransGen.head_induction_on with
  | refl =>
    constructor
    intro after turn
    obtain ⟨_, _, top, _⟩ := turn.eq_top
    cases top
  | head turn _ ih =>
    constructor
    intro after other
    -- There is only one turn to take, and it is one that ends.
    obtain ⟨_, _, top, taken⟩ := turn.eq_top
    obtain ⟨_, _, top', taken'⟩ := other.eq_top
    cases top.symm.trans top'
    rwa [taken', ← taken]

/-- The loop that starts with one directory ends, and where it ends it has found what the walk
finds. -/
theorem turns_iff (root : Path) (found : Found) :
    Relation.ReflTransGen (Turn view excluder) ([root], .none) ([], found) ↔
      found = walk view excluder root := by
  constructor
  · intro turns
    have kept := balance_of_turns turns
    simpa [pending] using kept
  · intro same
    subst same
    simpa using turns_top root [] .none

end DependencyAudit.Scan
