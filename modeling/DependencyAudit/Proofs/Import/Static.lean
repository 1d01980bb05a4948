import DependencyAudit.Proofs.Import.Scanner
import DependencyAudit.Proofs.Regex
import Mathlib.Data.List.TakeWhile

namespace DependencyAudit.Import

/-- What may stand between the word and the opening quote: blanks, or else the word `from` with
blanks after it, and before it at least three characters, the first and the last of them blank. -/
def IsGap (gap : List Char) : Prop :=
  (gap ≠ [] ∧ ∀ c ∈ gap, Text.isBlank c) ∨
    ∃ clause blanks, gap = clause ++ "from".toList ++ blanks ∧
      (blanks ≠ [] ∧ ∀ c ∈ blanks, Text.isBlank c) ∧ 3 ≤ clause.length ∧
      (∃ first, clause.head? = some first ∧ Text.isBlank first) ∧
      ∃ last, clause.getLast? = some last ∧ Text.isBlank last

/-- The text starts with an import declaration of this target, and goes on with this rest. -/
def Imports (s target rest : List Char) : Prop :=
  ∃ after opens inside closes, s = "import".toList ++ after ∧
    IsGap (after.takeWhile isClause) ∧ after.dropWhile isClause = opens :: inside ∧ isQuote opens ∧
    target = inside.takeWhile (!isQuote ·) ∧ target ≠ [] ∧
    inside.dropWhile (!isQuote ·) = closes :: rest ∧ isQuote closes

/-- An import declaration starts at a position of the text and ends at another one. -/
def ImportsAt (text : List Char) (i : Nat) (target : List Char) (stop : Nat) : Prop :=
  stop ≤ text.length ∧ Imports (text.drop i) target (text.drop stop)

theorem isClause_of_isBlank {c : Char} (blank : Text.isBlank c) : isClause c := by
  simp [isClause, blank]

theorem not_isClause_of_isQuote {c : Char} (quote : isQuote c) : isClause c = false := by
  simp only [isQuote, Bool.or_eq_true, beq_iff_eq] at quote
  rcases quote with rfl | rfl
  · decide
  · decide

theorem isClause_of_mem_from {c : Char} (member : c ∈ "from".toList) : isClause c := by
  have letters : "from".toList = ['f', 'r', 'o', 'm'] := rfl
  rw [letters] at member
  simp only [List.mem_cons, List.not_mem_nil, or_false] at member
  rcases member with rfl | rfl | rfl | rfl
  all_goals decide

/-- A run that is followed by a character outside its class is the longest one. -/
theorem span_iff (admits : Char → Bool) {s run rest : List Char} {c : Char}
    (outside : admits c = false) :
    (s.takeWhile admits = run ∧ s.dropWhile admits = c :: rest) ↔
      s = run ++ c :: rest ∧ ∀ other ∈ run, admits other := by
  constructor
  · intro holds
    obtain ⟨rfl, left⟩ := holds
    exact ⟨by rw [← left, List.takeWhile_append_dropWhile],
      fun other member => List.mem_takeWhile_imp member⟩
  · intro holds
    obtain ⟨rfl, all⟩ := holds
    constructor
    · rw [List.takeWhile_append_of_pos all, List.takeWhile_cons_of_neg (by simp [outside]),
        List.append_nil]
    · rw [List.dropWhile_append_of_pos all, List.dropWhile_cons_of_neg (by simp [outside])]

theorem mem_rests_clause {s rest : List Char} :
    rest ∈ Form.clause.rests s ↔ ∃ middle before after,
      s = middle ++ before ++ "from".toList ++ after ++ rest ∧
        (middle ≠ [] ∧ ∀ c ∈ middle, isClause c) ∧ (before ≠ [] ∧ ∀ c ∈ before, Text.isBlank c) ∧
        after ≠ [] ∧ ∀ c ∈ after, Text.isBlank c := by
  simp only [Form.clause, Regex.mem_rests_append, Regex.mem_rests_atLeastOne,
    Regex.mem_rests_word]
  constructor
  · intro holds
    obtain ⟨_, ⟨_, ⟨_, ⟨middle, nonempty, rfl, all⟩, before, nonempty', rfl, all'⟩, rfl⟩, after,
      nonempty'', rfl, all''⟩ := holds
    exact ⟨middle, before, after, by simp only [List.append_assoc], ⟨nonempty, all⟩, ⟨nonempty', all'⟩,
      nonempty'', all''⟩
  · intro holds
    obtain ⟨middle, before, after, rfl, ⟨nonempty, all⟩, ⟨nonempty', all'⟩, nonempty'', all''⟩ := holds
    exact ⟨_, ⟨_, ⟨_, ⟨middle, nonempty, by simp only [List.append_assoc], all⟩, before, nonempty', rfl,
      all'⟩, rfl⟩, after, nonempty'', rfl, all''⟩

/-- A list that starts and ends with a blank and has three members has something between these. -/
theorem exists_between {clause : List Char} {first last : Char} (long : 3 ≤ clause.length)
    (starts : clause.head? = some first) (ends : clause.getLast? = some last) :
    ∃ middle, middle ≠ [] ∧ clause = [first] ++ middle ++ [last] := by
  cases clause with
  | nil => cases starts
  | cons other tail =>
    cases starts
    rcases List.eq_nil_or_concat tail with rfl | ⟨middle, other, rfl⟩
    · simp at long
    · have same : other = last := by simpa [List.getLast?_cons] using ends
      subst same
      refine ⟨middle, ?_, by simp⟩
      intro empty
      subst empty
      simp at long

/-- Four runs around the word make a gap, if those next to the middle are blank. -/
theorem isGap_of_runs {blanks middle before after : List Char}
    (blank : blanks ≠ []) (all : ∀ c ∈ blanks, Text.isBlank c) (nonempty : middle ≠ [])
    (nonempty' : before ≠ []) (all' : ∀ c ∈ before, Text.isBlank c)
    (nonempty'' : after ≠ []) (all'' : ∀ c ∈ after, Text.isBlank c) :
    IsGap (blanks ++ middle ++ before ++ "from".toList ++ after) := by
  refine .inr ⟨blanks ++ middle ++ before, after, rfl, ⟨nonempty'', all''⟩, ?_, ?_, ?_⟩
  · have one := List.length_pos_iff.mpr blank
    have two := List.length_pos_iff.mpr nonempty
    have three := List.length_pos_iff.mpr nonempty'
    simp only [List.length_append]
    omega
  · obtain ⟨first, others, rfl⟩ := List.exists_cons_of_ne_nil blank
    exact ⟨first, rfl, all first List.mem_cons_self⟩
  · rcases List.eq_nil_or_concat before with rfl | ⟨others, last, rfl⟩
    · exact absurd rfl nonempty'
    · exact ⟨last, by simp, all' last (by simp)⟩

/-- The ways through the pattern take gaps of clause characters, and all of these. -/
theorem mem_rests_opening {s inside : List Char} :
    inside ∈ Form.static.opening.rests s ↔ ∃ gap opens,
      s = "import".toList ++ (gap ++ opens :: inside) ∧ isQuote opens ∧ IsGap gap ∧
        ∀ c ∈ gap, isClause c := by
  simp only [Form.opening, Regex.mem_rests_append, Regex.mem_rests_atLeastOne,
    Regex.mem_rests_word, Regex.mem_rests_optional, Regex.mem_rests_one, mem_rests_clause]
  constructor
  · intro holds
    obtain ⟨_, ⟨_, ⟨_, rfl, blanks, nonempty, rfl, all⟩,
      ⟨middle, before, after, rfl, inClass, ⟨nonempty', all'⟩, nonempty'', all''⟩ | rfl⟩,
      opens, rfl, quote⟩ := holds
    · refine ⟨blanks ++ middle ++ before ++ "from".toList ++ after, opens,
        by simp only [List.append_assoc], quote,
        isGap_of_runs nonempty all inClass.1 nonempty' all' nonempty'' all'', ?_⟩
      intro c member
      simp only [List.mem_append] at member
      rcases member with (((inBlanks | inMiddle) | inBefore) | inWord) | inAfter
      · exact isClause_of_isBlank (all c inBlanks)
      · exact inClass.2 c inMiddle
      · exact isClause_of_isBlank (all' c inBefore)
      · exact isClause_of_mem_from inWord
      · exact isClause_of_isBlank (all'' c inAfter)
    · exact ⟨blanks, opens, rfl, quote, .inl ⟨nonempty, all⟩,
        fun c member => isClause_of_isBlank (all c member)⟩
  · intro holds
    obtain ⟨gap, opens, rfl, quote, ⟨nonempty, all⟩ | ⟨clause, after, rfl, ⟨nonempty, all⟩, long,
      ⟨first, starts, blank⟩, last, ends, blank'⟩, inClass⟩ := holds
    · exact ⟨_, ⟨_, ⟨_, rfl, gap, nonempty, rfl, all⟩, .inr rfl⟩, opens, rfl, quote⟩
    · obtain ⟨middle, between, rfl⟩ := exists_between long starts ends
      refine ⟨opens :: inside,
        ⟨_, ⟨_, rfl, [first], List.cons_ne_nil _ _, ?_, by simpa using blank⟩,
        .inl ⟨middle, [last], after, rfl, ⟨between, ?_⟩,
          ⟨List.cons_ne_nil _ _, by simpa using blank'⟩, nonempty, all⟩⟩, opens, rfl, quote⟩
      · simp only [List.append_assoc]
      · intro c member
        exact inClass c (by simp [member])

/-- Every way through the pattern comes to what is read without backtracking. -/
theorem accepts_static_iff {s target rest : List Char} :
    Form.static.Accepts s target rest ↔ Imports s target rest := by
  constructor
  · intro holds
    obtain ⟨inside, opened, after, taken, same, closed⟩ := holds
    obtain ⟨gap, opens, rfl, quote, isGap, all⟩ := mem_rests_opening.mp opened
    obtain ⟨run, nonempty, same', unquoted⟩ := Regex.mem_rests_atLeastOne.mp taken
    obtain ⟨closes, rfl, quote'⟩ := Regex.mem_rests_one.mp closed
    have run_eq : run = target := List.append_cancel_right (same'.symm.trans same)
    subst run_eq
    obtain ⟨gap_eq, inside_eq⟩ := (span_iff isClause (not_isClause_of_isQuote quote)).mpr ⟨rfl, all⟩
    obtain ⟨target_eq, rest_eq⟩ :=
      (span_iff (!isQuote ·) (by simp [quote'])).mpr ⟨same, unquoted⟩
    refine ⟨_, opens, inside, closes, rfl, ?_, inside_eq, quote, target_eq.symm, nonempty, rest_eq,
      quote'⟩
    rw [gap_eq]
    exact isGap
  · intro holds
    obtain ⟨after, opens, inside, closes, rfl, isGap, inside_eq, quote, rfl, nonempty, rest_eq,
      quote'⟩ := holds
    obtain ⟨after_eq, all⟩ :=
      (span_iff isClause (not_isClause_of_isQuote quote)).mp ⟨rfl, inside_eq⟩
    obtain ⟨same, unquoted⟩ :=
      (span_iff (!isQuote ·) (by simp [quote'])).mp ⟨rfl, rest_eq⟩
    refine ⟨inside, mem_rests_opening.mpr ⟨_, opens, congrArg _ after_eq, quote, isGap, all⟩,
      closes :: rest, ?_, same, Regex.mem_rests_one.mpr ⟨closes, rfl, quote'⟩⟩
    exact Regex.mem_rests_atLeastOne.mpr ⟨_, nonempty, same, unquoted⟩

/-- A declaration is known by where it starts. -/
theorem Imports.unique {s target rest other more : List Char} (one : Imports s target rest)
    (another : Imports s other more) : target = other ∧ rest = more := by
  obtain ⟨after, opens, inside, closes, rfl, _, inside_eq, _, rfl, _, rest_eq, _⟩ := one
  obtain ⟨after', opens', inside', closes', same, _, inside_eq', _, rfl, _, rest_eq', _⟩ := another
  obtain rfl := List.append_cancel_left same
  obtain ⟨rfl, rfl⟩ := List.cons.inj (inside_eq.symm.trans inside_eq')
  obtain ⟨rfl, rfl⟩ := List.cons.inj (rest_eq.symm.trans rest_eq')
  exact ⟨rfl, rfl⟩

theorem match?_static_iff {s target rest : List Char} :
    Form.static.match? s = some (target, rest) ↔ Imports s target rest := by
  constructor
  · intro found
    exact accepts_static_iff.mp (Form.accepts_of_match? found)
  · intro imports
    obtain ⟨⟨other, more⟩, found⟩ := Form.exists_match?_of_accepts (accepts_static_iff.mpr imports)
    obtain ⟨rfl, rfl⟩ := imports.unique (accepts_static_iff.mp (Form.accepts_of_match? found))
    exact found

theorem matchesAt_static : Form.static.MatchesAt = ImportsAt := by
  funext text i target stop
  exact propext (and_congr_right fun _ => match?_static_iff)

/-- The pattern of a declaration is read by a scanner without backtracking. -/
theorem static_exact (text : List Char) :
    (∀ i, Form.static.search (text.drop i) = Form.static.match? (text.drop i)) ∧
    (∀ i target stop, Form.static.MatchesAt text i target stop ↔ ImportsAt text i target stop) ∧
    (∀ i target rest, Form.static.Accepts (text.drop i) target rest ↔
      ∃ stop, rest = text.drop stop ∧ ImportsAt text i target stop) ∧
    (∀ i target stop other end_, ImportsAt text i target stop → ImportsAt text i other end_ →
      target = other ∧ stop = end_) ∧
    ∀ found, Leftmost (ImportsAt text) 0 found ↔ found = Form.static.targets text := by
  refine ⟨fun i => Form.search_eq_match? _, fun i target stop => by rw [matchesAt_static],
    ?_, ?_, ?_⟩
  · intro i target rest
    rw [accepts_static_iff, ← match?_static_iff, ← matchesAt_static]
    constructor
    · exact Form.exists_stop_of_match?
    · intro holds
      obtain ⟨stop, rfl, _, found⟩ := holds
      exact found
  · rw [← matchesAt_static]
    intro i target stop other end_ one another
    exact one.unique another
  · intro found
    rw [← matchesAt_static]
    exact Form.leftmost_iff

end DependencyAudit.Import
