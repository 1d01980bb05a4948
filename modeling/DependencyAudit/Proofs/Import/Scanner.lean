import DependencyAudit.Import
import DependencyAudit.Proofs.Regex

namespace DependencyAudit.Import

/-- The targets of what occurs in a scan from a position on. An occurrence has a start, a target
and an end. -/
inductive Leftmost (occurs : Nat → List Char → Nat → Prop) : Nat → List (List Char) → Prop
  | done {start} :
      (∀ i target stop, start ≤ i → ¬ occurs i target stop) → Leftmost occurs start []
  | next {start i target stop targets} :
      start ≤ i → occurs i target stop →
      (∀ j target stop, start ≤ j → j < i → ¬ occurs j target stop) →
      Leftmost occurs stop targets → Leftmost occurs start (target :: targets)

namespace Leftmost

variable {occurs : Nat → List Char → Nat → Prop} {start : Nat} {targets others : List (List Char)}

/-- A position at which nothing occurs can be passed over. -/
theorem skip (nothing : ∀ target stop, ¬ occurs start target stop)
    (later : Leftmost occurs (start + 1) targets) : Leftmost occurs start targets := by
  have passed : ∀ i target stop, start ≤ i → (start + 1 ≤ i → ¬ occurs i target stop) →
      ¬ occurs i target stop := by
    intro i target stop after unmatched
    rcases Nat.eq_or_lt_of_le after with rfl | behind
    · exact nothing target stop
    · exact unmatched behind
  cases later with
  | done unmatched =>
    exact .done fun i target stop after => passed i target stop after (unmatched i target stop)
  | next after found first rest =>
    refine .next (by omega) found ?_ rest
    intro j target stop from_ before
    exact passed j target stop from_ fun behind => first j target stop behind before

/-- Where an occurrence is known by its start, so is the whole scan. -/
theorem unique
    (known : ∀ i target stop other end_, occurs i target stop → occurs i other end_ →
      target = other ∧ stop = end_)
    (scan : Leftmost occurs start targets) (again : Leftmost occurs start others) :
    targets = others := by
  induction scan generalizing others with
  | done none =>
    cases again with
    | done _ => rfl
    | next after found _ _ => exact absurd found (none _ _ _ after)
  | @next start i target stop targets after found first _ ih =>
    cases again with
    | done none => exact absurd found (none _ _ _ after)
    | @next _ j other end_ others after' found' first' again =>
      have same : i = j := by
        rcases Nat.lt_trichotomy i j with before | same | behind
        · exact absurd found (first' _ _ _ after before)
        · exact same
        · exact absurd found' (first _ _ _ after' behind)
      subst same
      obtain ⟨rfl, rfl⟩ := known _ _ _ _ _ found found'
      rw [ih again]

end Leftmost

namespace Form

variable {form : Form} {text : List Char}

/-- The form matches at a position, with this target and up to this end. -/
def MatchesAt (form : Form) (text : List Char) (i : Nat) (target : List Char) (stop : Nat) : Prop :=
  stop ≤ text.length ∧ form.match? (text.drop i) = some (target, text.drop stop)

/-- The search for a match with backtracking, in which the target is a repetition like others. -/
def search (form : Form) (s : List Char) : Option (List Char × List Char) :=
  form.opening.first (fun inside =>
    (Regex.atLeastOne (!isQuote ·)).first (fun after =>
      form.closing.first (fun rest => some (inside.take (inside.length - after.length), rest))
        after) inside) s

/-- Some way through the pattern of a form, with every choice of its repetitions, takes this target
and leaves this rest. -/
def Accepts (form : Form) (s target rest : List Char) : Prop :=
  ∃ inside ∈ form.opening.rests s, ∃ after ∈ (Regex.atLeastOne (!isQuote ·)).rests inside,
    inside = target ++ after ∧ rest ∈ form.closing.rests after

theorem first_closing_of_unquoted {α : Type} {continuation : List Char → Option α} {c : Char}
    (unquoted : isQuote c = false) (rest : List Char) :
    form.closing.first continuation (c :: rest) = none := by
  cases form <;> simp [closing, Regex.first_append, Regex.first, unquoted]

/-- It makes no difference that a target is read up to the next quote at once. -/
theorem search_eq_match? (s : List Char) : form.search s = form.match? s := by
  unfold search match?
  congr 1
  funext inside
  rw [Regex.first_atLeastOne_of_outside]
  · have whole : inside.take (inside.length - (inside.dropWhile (!isQuote ·)).length) =
        inside.takeWhile (!isQuote ·) := by
      have lengths := congrArg List.length
        (List.takeWhile_append_dropWhile (p := (!isQuote ·)) (l := inside))
      rw [List.length_append] at lengths
      rw [show inside.length - (inside.dropWhile (!isQuote ·)).length =
        (inside.takeWhile (!isQuote ·)).length by omega]
      exact (List.prefix_iff_eq_take.mp (List.takeWhile_prefix _)).symm
    simp only [whole]
  · intro c rest unquoted
    exact first_closing_of_unquoted (by simpa using unquoted) rest

theorem accepts_of_match? {s target rest : List Char}
    (found : form.match? s = some (target, rest)) : form.Accepts s target rest := by
  rw [← search_eq_match?] at found
  obtain ⟨inside, opened, found⟩ := Regex.exists_rest_of_first found
  obtain ⟨after, taken, found⟩ := Regex.exists_rest_of_first found
  obtain ⟨last, closed, found⟩ := Regex.exists_rest_of_first found
  cases found
  obtain ⟨run, _, rfl, _⟩ := Regex.mem_rests_atLeastOne.mp taken
  refine ⟨_, opened, after, taken, ?_, closed⟩
  simp

theorem exists_match?_of_accepts {s target rest : List Char}
    (accepted : form.Accepts s target rest) : ∃ answer, form.match? s = some answer := by
  obtain ⟨inside, opened, after, taken, _, closed⟩ := accepted
  rw [← search_eq_match?]
  refine Regex.exists_first_iff.mpr ⟨inside, opened, ?_⟩
  refine Regex.exists_first_iff.mpr ⟨after, taken, ?_⟩
  exact Regex.exists_first_iff.mpr ⟨rest, closed, _, rfl⟩

theorem suffix_of_match? {s target rest : List Char}
    (found : form.match? s = some (target, rest)) : rest <:+ s := by
  obtain ⟨inside, opened, found⟩ := Regex.exists_rest_of_first found
  simp only at found
  split at found
  · cases found
  obtain ⟨last, closed, found⟩ := Regex.exists_rest_of_first found
  cases found
  have within := (Regex.suffix_of_mem_rests closed).trans (List.dropWhile_suffix _)
  exact within.trans (Regex.suffix_of_mem_rests opened)

theorem match?_nil : form.match? [] = none := by
  cases found : form.match? [] with
  | none => rfl
  | some answer => exact absurd (length_lt_of_match? found) (Nat.not_lt_zero _)

/-- A match is known by its start. -/
theorem MatchesAt.unique {i : Nat} {target other : List Char} {stop end_ : Nat}
    (found : MatchesAt form text i target stop) (again : MatchesAt form text i other end_) :
    target = other ∧ stop = end_ := by
  obtain ⟨bound, found⟩ := found
  obtain ⟨bound', again⟩ := again
  rw [found, Option.some.injEq, Prod.mk.injEq] at again
  obtain ⟨rfl, same⟩ := again
  have lengths := congrArg List.length same
  simp only [List.length_drop] at lengths
  exact ⟨rfl, by omega⟩

/-- What a match leaves over is the text from its end on. -/
theorem exists_stop_of_match? {i : Nat} {target rest : List Char}
    (found : form.match? (text.drop i) = some (target, rest)) :
    ∃ stop, rest = text.drop stop ∧ MatchesAt form text i target stop := by
  have suffix := (suffix_of_match? found).trans (List.drop_suffix i text)
  have here : rest = text.drop (text.length - rest.length) :=
    List.suffix_iff_eq_drop.mp suffix
  exact ⟨_, here, Nat.sub_le _ _, by rw [← here]; exact found⟩

theorem targets_nil : form.targets [] = [] := by
  rw [targets.eq_def]

theorem targets_of_match? {s target rest : List Char}
    (found : form.match? s = some (target, rest)) :
    form.targets s = target :: form.targets rest := by
  cases s with
  | nil => simp only [match?_nil, reduceCtorEq] at found
  | cons c tail =>
    rw [targets.eq_def]
    dsimp only
    split
    next again =>
      rw [found] at again
      cases again
      rfl
    next nothing =>
      rw [found] at nothing
      cases nothing

theorem targets_of_none {c : Char} {tail : List Char} (nothing : form.match? (c :: tail) = none) :
    form.targets (c :: tail) = form.targets tail := by
  rw [targets.eq_def]
  dsimp only
  split
  next found =>
    rw [nothing] at found
    cases found
  · rfl

theorem leftmost_targets_drop (form : Form) (text : List Char) (start : Nat) :
    Leftmost (MatchesAt form text) start (form.targets (text.drop start)) := by
  induction measured : (text.drop start).length using Nat.strongRecOn generalizing start with
  | _ size ih =>
    cases shape : text.drop start with
    | nil =>
      rw [targets_nil]
      refine .done ?_
      intro i target stop after holds
      obtain ⟨_, found⟩ := holds
      have nothing : text.drop i = [] := by
        rw [List.drop_eq_nil_iff] at shape ⊢
        omega
      rw [nothing, match?_nil] at found
      cases found
    | cons c tail =>
      cases answer : form.match? (c :: tail) with
      | some pair =>
        obtain ⟨target, rest⟩ := pair
        have less := length_lt_of_match? answer
        rw [← shape, measured] at less
        rw [targets_of_match? answer]
        rw [← shape] at answer
        obtain ⟨stop, rfl, here⟩ := exists_stop_of_match? answer
        refine .next (Nat.le_refl _) here ?_ (ih _ less stop rfl)
        intro j _ _ from_ before
        omega
      | none =>
        have next : tail = text.drop (start + 1) := by
          rw [← List.tail_drop, shape, List.tail_cons]
        have less : (text.drop (start + 1)).length < size := by
          rw [← next, ← measured, shape, List.length_cons]
          exact Nat.lt_succ_self _
        rw [targets_of_none answer, next]
        refine (ih _ less (start + 1) rfl).skip ?_
        intro target stop holds
        obtain ⟨_, found⟩ := holds
        rw [shape, answer] at found
        cases found

/-- The targets of a text are those of the scan for matches, from left to right. -/
theorem leftmost_iff {found : List (List Char)} :
    Leftmost (MatchesAt form text) 0 found ↔ found = form.targets text := by
  have scan := leftmost_targets_drop form text 0
  rw [List.drop_zero] at scan
  constructor
  · intro other
    exact other.unique (fun _ _ _ _ _ one another => one.unique another) scan
  · intro same
    subst same
    exact scan

end Form

end DependencyAudit.Import
