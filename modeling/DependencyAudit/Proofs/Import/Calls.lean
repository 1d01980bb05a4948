import DependencyAudit.Proofs.Import.Appending

namespace DependencyAudit.Import

/-- The text starts with a call of what is written, with this target, and goes on with this rest. -/
def Calls (written : String) (s target rest : List Char) : Prop :=
  ∃ after opens inside closes, s = written.toList ++ after ∧
    after.dropWhile Text.isBlank = '(' :: opens :: inside ∧ isQuote opens ∧
    target = inside.takeWhile (!isQuote ·) ∧ target ≠ [] ∧
    inside.dropWhile (!isQuote ·) = closes :: ')' :: rest ∧ isQuote closes

/-- A call starts at a position of the text and ends at another one. -/
def CallsAt (written : String) (text : List Char) (i : Nat) (target : List Char) (stop : Nat) :
    Prop :=
  stop ≤ text.length ∧ Calls written (text.drop i) target (text.drop stop)

/-- The scanner that knows these occurrences reads a text as the pattern of the form does. -/
structure Form.ReadBy (form : Form) (text : List Char)
    (occurs : Nat → List Char → Nat → Prop) : Prop where
  /-- A search with backtracking has no other answer than one without. -/
  search_eq : ∀ i, form.search (text.drop i) = form.match? (text.drop i)
  matchesAt_iff : ∀ i target stop, form.MatchesAt text i target stop ↔ occurs i target stop
  /-- Every way through the pattern comes to an occurrence, and to each one there is a way. -/
  accepts_iff : ∀ i target rest, form.Accepts (text.drop i) target rest ↔
    ∃ stop, rest = text.drop stop ∧ occurs i target stop
  unique : ∀ i target stop other end_, occurs i target stop → occurs i other end_ →
    target = other ∧ stop = end_
  leftmost_iff : ∀ found, Leftmost occurs 0 found ↔ found = form.targets text

theorem Form.readBy_of_accepts_iff {form : Form} {reads : List Char → List Char → List Char → Prop}
    (means : ∀ s target rest, form.Accepts s target rest ↔ reads s target rest)
    (text : List Char) :
    form.ReadBy text fun i target stop =>
      stop ≤ text.length ∧ reads (text.drop i) target (text.drop stop) := by
  have occurs : form.MatchesAt text = fun i target stop =>
      stop ≤ text.length ∧ reads (text.drop i) target (text.drop stop) := by
    funext i target stop
    exact propext (and_congr_right fun _ => match?_eq_some_iff.trans (means _ _ _))
  rw [← occurs]
  constructor
  case search_eq => exact fun i => search_eq_match? _
  case matchesAt_iff => exact fun i target stop => Iff.rfl
  case accepts_iff =>
    intro i target rest
    rw [← match?_eq_some_iff]
    constructor
    · exact exists_stop_of_match?
    · intro holds
      obtain ⟨stop, rfl, -, found⟩ := holds
      exact found
  case unique => exact fun i target stop other end_ one another => one.unique another
  case leftmost_iff => exact fun found => Form.leftmost_iff

/-- The ways through the opening of a call take all blanks after the word. -/
theorem mem_rests_callOpening {written : String} {s inside : List Char} :
    inside ∈ (.word written ++ .many Text.isBlank ++ .char '(' ++ .one isQuote : Regex).rests s ↔
      ∃ blanks opens, s = written.toList ++ (blanks ++ '(' :: opens :: inside) ∧ isQuote opens ∧
        ∀ c ∈ blanks, Text.isBlank c := by
  simp only [Regex.mem_rests_append, Regex.mem_rests_word, Regex.mem_rests_many, Regex.char,
    Regex.mem_rests_one, beq_iff_eq]
  constructor
  · intro holds
    obtain ⟨_, ⟨_, ⟨_, rfl, blanks, rfl, all⟩, _, rfl, rfl⟩, opens, rfl, quote⟩ := holds
    exact ⟨blanks, opens, rfl, quote, all⟩
  · intro holds
    obtain ⟨blanks, opens, rfl, quote, all⟩ := holds
    exact ⟨_, ⟨_, ⟨_, rfl, blanks, rfl, all⟩, '(', rfl, rfl⟩, opens, rfl, quote⟩

/-- Every way through the pattern of a call comes to what is read without backtracking. -/
theorem accepts_call_iff {form : Form} {written : String}
    (opens : form.opening =
      .word written ++ .many Text.isBlank ++ .char '(' ++ .one isQuote)
    (ends : form.ending = [')']) {s target rest : List Char} :
    form.Accepts s target rest ↔ Calls written s target rest := by
  have notBlank : Text.isBlank '(' = false := by decide
  constructor
  · intro holds
    obtain ⟨inside, opened, after, taken, same, closed⟩ := holds
    rw [opens] at opened
    obtain ⟨blanks, first, rfl, quote, all⟩ := mem_rests_callOpening.mp opened
    obtain ⟨run, nonempty, same', unquoted⟩ := Regex.mem_rests_atLeastOne.mp taken
    obtain ⟨closes, rfl, quote'⟩ := Form.mem_rests_closing.mp closed
    obtain rfl : run = target := List.append_cancel_right (same'.symm.trans same)
    rw [ends] at same
    -- Each run ends at a character that it cannot take, so there is no shorter one to go back to.
    obtain ⟨-, left⟩ := (span_iff Text.isBlank notBlank).mpr ⟨rfl, all⟩
    obtain ⟨target_eq, rest_eq⟩ :=
      (span_iff (!isQuote ·) (by simp [quote'])).mpr ⟨same, unquoted⟩
    exact ⟨_, first, inside, closes, rfl, left, quote, target_eq.symm, nonempty, rest_eq, quote'⟩
  · intro holds
    obtain ⟨after, first, inside, closes, rfl, left, quote, rfl, nonempty, rest_eq, quote'⟩ := holds
    obtain ⟨blanks_eq, all⟩ := (span_iff Text.isBlank notBlank).mp ⟨rfl, left⟩
    obtain ⟨same, unquoted⟩ :=
      (span_iff (!isQuote ·) (by simp [quote'])).mp ⟨rfl, rest_eq⟩
    refine ⟨inside, ?_, closes :: (form.ending ++ rest), ?_, by rw [ends]; exact same,
      Form.mem_rests_closing.mpr ⟨closes, rfl, quote'⟩⟩
    · rw [opens]
      exact mem_rests_callOpening.mpr ⟨_, first, congrArg _ blanks_eq, quote, all⟩
    · rw [ends]
      exact Regex.mem_rests_atLeastOne.mpr ⟨_, nonempty, same, unquoted⟩

/-- After the word a declaration has clause characters up to a quote, but a call has blanks up to a
parenthesis, which is none of them. -/
theorem Imports.not_calls {s target rest other left : List Char} (imports : Imports s target rest) :
    ¬ Calls "import" s other left := by
  intro calls
  obtain ⟨after, opens, inside, -, rfl, -, left_eq, quote, -⟩ := imports
  obtain ⟨after', first, inside', -, same, left_eq', -⟩ := calls
  obtain rfl := List.append_cancel_left same
  obtain ⟨blanks_eq, all⟩ := (span_iff Text.isBlank (by decide)).mp ⟨rfl, left_eq'⟩
  have inClass : ∀ c ∈ after.takeWhile Text.isBlank, isClause c :=
    fun c member => isClause_of_isBlank (all c member)
  obtain ⟨-, other_eq⟩ := (span_iff isClause (by decide)).mpr ⟨blanks_eq, inClass⟩
  obtain ⟨rfl, -⟩ := List.cons.inj (left_eq.symm.trans other_eq)
  exact absurd quote (by decide)

/-- The patterns of the two calls are read by scanners without backtracking, and where a call that
imports starts no declaration does. -/
theorem calls_exact (text : List Char) :
    Form.require.ReadBy text (CallsAt "require" text) ∧
      Form.dynamic.ReadBy text (CallsAt "import" text) ∧
      ∀ i target stop other end_, ¬ (Form.static.MatchesAt text i target stop ∧
        Form.dynamic.MatchesAt text i other end_) := by
  have require : ∀ s target rest,
      Form.require.Accepts s target rest ↔ Calls "require" s target rest :=
    fun _ _ _ => accepts_call_iff rfl rfl
  have dynamic : ∀ s target rest,
      Form.dynamic.Accepts s target rest ↔ Calls "import" s target rest :=
    fun _ _ _ => accepts_call_iff rfl rfl
  refine ⟨Form.readBy_of_accepts_iff require text, Form.readBy_of_accepts_iff dynamic text, ?_⟩
  intro i target stop other end_ both
  obtain ⟨⟨-, declared⟩, -, called⟩ := both
  have calls := (dynamic _ _ _).mp (Form.accepts_of_match? called)
  exact (match?_static_iff.mp declared).not_calls calls

end DependencyAudit.Import
