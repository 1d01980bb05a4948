import DependencyAudit.Import
import DependencyAudit.Proofs.Import.Static

namespace DependencyAudit.Import

/-- No character of the stretch is a quote. -/
def Unquoted (s : List Char) : Prop := ∀ c ∈ s, (!isQuote c) = true

theorem not_isQuote_of_isClause {c : Char} (inClause : isClause c) : (!isQuote c) = true := by
  cases quote : isQuote c with
  | false => rfl
  | true =>
    rw [not_isClause_of_isQuote quote] at inClause
    cases inClause

/-- A character that the opening of a form can have before its quote. -/
def InLead (c : Char) : Prop := isClause c ∨ c = '('

theorem InLead.not_isQuote {c : Char} (inLead : InLead c) : (!isQuote c) = true := by
  rcases inLead with inClause | rfl
  · exact not_isQuote_of_isClause inClause
  · rfl

theorem Unquoted.countP_isQuote {s : List Char} (unquoted : Unquoted s) :
    s.countP isQuote = 0 := by
  rw [List.countP_eq_zero]
  intro c member
  simpa using unquoted c member

/-- A text is cut in one way at its first quote. -/
theorem Unquoted.cut {lead other inside more : List Char} {opens first : Char}
    (unquoted : Unquoted lead) (quote : isQuote opens) (unquoted' : Unquoted other)
    (quote' : isQuote first) (same : lead ++ opens :: inside = other ++ first :: more) :
    lead = other ∧ inside = more := by
  have outside : (!isQuote opens) = false := by simp [quote]
  have outside' : (!isQuote first) = false := by simp [quote']
  obtain ⟨run, left⟩ := (span_iff (!isQuote ·) outside).mpr ⟨Eq.refl (lead ++ opens :: inside), unquoted⟩
  obtain ⟨run', left'⟩ := (span_iff (!isQuote ·) outside').mpr ⟨same, unquoted'⟩
  exact ⟨run.symm.trans run', (List.cons.inj (left.symm.trans left')).2⟩

namespace Form

variable {form : Form} {s more target rest : List Char}

/-- What a form has after the quote that closes the target. -/
def ending : Form → List Char
  | static => []
  | require | dynamic => [')']

/-- The text starts with a stretch without quotes, then the target between quotes and what the form
has after it. -/
def Quotes (form : Form) (s target rest : List Char) : Prop :=
  ∃ lead opens closes, s = lead ++ opens :: (target ++ closes :: (form.ending ++ rest)) ∧
    Unquoted lead ∧ isQuote opens ∧ Unquoted target ∧ isQuote closes

/-- All that the opening of a form takes before its quote is of one class. -/
theorem exists_opening_eq (form : Form) : ∃ before : Regex,
    form.opening = before ++ .one isQuote ∧ before.TakesOnly InLead ∧ before.IsLocal := by
  have inClause : ∀ c, isClause c → InLead c := fun _ => .inl
  have blank : ∀ c, Text.isBlank c → InLead c := fun c blank => .inl (isClause_of_isBlank blank)
  have paren : ∀ c, (c == '(') → InLead c := fun c same => .inr (beq_iff_eq.mp same)
  have word : ∀ written ∈ ["import", "from", "require"],
      (Regex.word written).TakesOnly InLead := by
    intro written member
    have letters : written.toList.all isClause = true := by
      simp only [List.mem_cons, List.not_mem_nil, or_false] at member
      rcases member with rfl | rfl | rfl
      all_goals decide
    exact Regex.takesOnly_word fun c member => .inl (List.all_eq_true.mp letters c member)
  have clause : clause.TakesOnly InLead :=
    ⟨⟨⟨⟨inClause, inClause⟩, blank, blank⟩, word "from" (by simp)⟩, blank, blank⟩
  have clauseLocal : Form.clause.IsLocal :=
    ⟨⟨⟨⟨trivial, trivial⟩, trivial, trivial⟩, Regex.isLocal_word _⟩, trivial, trivial⟩
  cases form with
  | static =>
    exact ⟨_, rfl, ⟨⟨word "import" (by simp), blank, blank⟩, clause⟩,
      ⟨⟨Regex.isLocal_word _, trivial, trivial⟩, clauseLocal⟩⟩
  | require =>
    exact ⟨_, rfl, ⟨⟨word "require" (by simp), blank⟩, paren⟩,
      ⟨⟨Regex.isLocal_word _, trivial⟩, trivial⟩⟩
  | dynamic =>
    exact ⟨_, rfl, ⟨⟨word "import" (by simp), blank⟩, paren⟩,
      ⟨⟨Regex.isLocal_word _, trivial⟩, trivial⟩⟩

theorem isLocal_opening (form : Form) : form.opening.IsLocal := by
  obtain ⟨before, shape, _, isLocal⟩ := exists_opening_eq form
  rw [shape]
  exact ⟨isLocal, trivial⟩

theorem exists_inLead_of_opening {inside : List Char} (opened : inside ∈ form.opening.rests s) :
    ∃ lead opens, s = lead ++ opens :: inside ∧ (∀ c ∈ lead, InLead c) ∧ isQuote opens := by
  obtain ⟨before, shape, only, _⟩ := exists_opening_eq form
  rw [shape, Regex.mem_rests_append] at opened
  obtain ⟨middle, first, second⟩ := opened
  obtain ⟨lead, rfl, inLead⟩ := Regex.exists_taken_of_mem_rests only first
  obtain ⟨opens, rfl, quote⟩ := Regex.mem_rests_one.mp second
  exact ⟨lead, opens, rfl, inLead, quote⟩

theorem exists_lead_of_opening {inside : List Char} (opened : inside ∈ form.opening.rests s) :
    ∃ lead opens, s = lead ++ opens :: inside ∧ Unquoted lead ∧ isQuote opens := by
  obtain ⟨lead, opens, same, inLead, quote⟩ := exists_inLead_of_opening opened
  exact ⟨lead, opens, same, fun c member => (inLead c member).not_isQuote, quote⟩

theorem mem_rests_closing {after : List Char} :
    rest ∈ form.closing.rests after ↔
      ∃ closes, after = closes :: (form.ending ++ rest) ∧ isQuote closes := by
  have paren : rest ∈ (Regex.one isQuote ++ Regex.char ')').rests after ↔
      ∃ closes, after = closes :: ')' :: rest ∧ isQuote closes := by
    rw [Regex.mem_rests_append, Regex.char]
    simp only [Regex.mem_rests_one, beq_iff_eq]
    constructor
    · intro holds
      obtain ⟨_, ⟨closes, rfl, quote⟩, _, rfl, rfl⟩ := holds
      exact ⟨closes, rfl, quote⟩
    · intro holds
      obtain ⟨closes, rfl, quote⟩ := holds
      exact ⟨_, ⟨closes, rfl, quote⟩, _, rfl, rfl⟩
  cases form with
  | static => exact Regex.mem_rests_one
  | require => exact paren
  | dynamic => exact paren

theorem Accepts.quotes (accepted : form.Accepts s target rest) : form.Quotes s target rest := by
  obtain ⟨inside, opened, after, taken, same, closed⟩ := accepted
  obtain ⟨lead, opens, rfl, unquoted, quote⟩ := exists_lead_of_opening opened
  obtain ⟨run, _, same', unquoted'⟩ := Regex.mem_rests_atLeastOne.mp taken
  obtain ⟨closes, rfl, quote'⟩ := mem_rests_closing.mp closed
  obtain rfl : run = target := List.append_cancel_right (same'.symm.trans same)
  exact ⟨lead, opens, closes, by rw [same], unquoted, quote, unquoted', quote'⟩

theorem Quotes.exists_before (quotes : form.Quotes s target rest) : ∃ before closes,
    s = before ++ closes :: (form.ending ++ rest) ∧ isQuote closes ∧ before.countP isQuote = 1 := by
  obtain ⟨lead, opens, closes, rfl, unquoted, quote, unquoted', quote'⟩ := quotes
  refine ⟨lead ++ opens :: target, closes, by simp, quote', ?_⟩
  rw [List.countP_append, List.countP_cons_of_pos quote, unquoted.countP_isQuote,
    unquoted'.countP_isQuote]

/-- The target is what stands between the first quote of the text and the second. -/
theorem Quotes.unique {other left : List Char} (one : form.Quotes s target rest)
    (another : form.Quotes s other left) : target = other ∧ rest = left := by
  obtain ⟨lead, opens, closes, rfl, unquoted, quote, unquoted', quote'⟩ := one
  obtain ⟨lead', opens', closes', same, unquoted₂, quote₂, unquoted₂', quote₂'⟩ := another
  obtain ⟨-, inside⟩ := unquoted.cut quote unquoted₂ quote₂ same
  obtain ⟨targets, after⟩ := unquoted'.cut quote' unquoted₂' quote₂' inside
  exact ⟨targets, List.append_cancel_left after⟩

theorem match?_eq_some_iff : form.match? s = some (target, rest) ↔ form.Accepts s target rest := by
  constructor
  · exact accepts_of_match?
  · intro accepted
    obtain ⟨⟨other, left⟩, found⟩ := exists_match?_of_accepts accepted
    obtain ⟨rfl, rfl⟩ := accepted.quotes.unique (accepts_of_match? found).quotes
    exact found

/-- More text after a match changes nothing in it, and a match that leaves all of this text over
does not need it. -/
theorem accepts_append_iff :
    form.Accepts (s ++ more) target (rest ++ more) ↔ form.Accepts s target rest := by
  have taken : (Regex.atLeastOne (!isQuote ·)).IsLocal := ⟨trivial, trivial⟩
  have closed : form.closing.IsLocal := by
    cases form with
    | static => exact trivial
    | require => exact ⟨trivial, trivial⟩
    | dynamic => exact ⟨trivial, trivial⟩
  constructor
  · intro accepted
    obtain ⟨inside, first, after, second, same, third⟩ := accepted
    obtain ⟨run, rfl⟩ := Regex.suffix_of_mem_rests third
    rw [← List.append_assoc] at second same third
    obtain ⟨run', rfl⟩ := Regex.suffix_of_mem_rests second
    rw [← List.append_assoc] at first second
    have run_eq : run' = target := by simpa using same
    exact ⟨run' ++ (run ++ rest), (Regex.mem_rests_append_right (isLocal_opening form)).mp first,
      run ++ rest, (Regex.mem_rests_append_right taken).mp second, by rw [run_eq],
      (Regex.mem_rests_append_right closed).mp third⟩
  · intro accepted
    obtain ⟨inside, first, after, second, same, third⟩ := accepted
    exact ⟨inside ++ more, (Regex.mem_rests_append_right (isLocal_opening form)).mpr first,
      after ++ more, (Regex.mem_rests_append_right taken).mpr second,
      by rw [same, List.append_assoc], (Regex.mem_rests_append_right closed).mpr third⟩

theorem match?_append_iff :
    form.match? (s ++ more) = some (target, rest ++ more) ↔ form.match? s = some (target, rest) := by
  rw [match?_eq_some_iff, accepts_append_iff, match?_eq_some_iff]

/-- Each target comes from a match that starts somewhere in the text. -/
theorem exists_suffix_of_mem_targets (named : target ∈ form.targets s) :
    ∃ skipped later rest, s = skipped ++ later ∧ form.Accepts later target rest := by
  induction s using Form.targets.induct form with
  | case1 =>
    rw [targets_nil] at named
    cases named
  | case2 c tail first rest found ih =>
    rw [targets_of_match? found] at named
    rcases List.mem_cons.mp named with rfl | others
    · exact ⟨[], c :: tail, rest, rfl, accepts_of_match? found⟩
    · obtain ⟨skipped, later, left, rfl, accepted⟩ := ih others
      obtain ⟨taken, whole⟩ := suffix_of_match? found
      exact ⟨taken ++ skipped, later, left, by rw [← whole, List.append_assoc], accepted⟩
  | case3 c tail nothing ih =>
    rw [targets_of_none nothing] at named
    obtain ⟨skipped, later, rest, rfl, accepted⟩ := ih named
    exact ⟨c :: skipped, later, rest, rfl, accepted⟩

/-- A match that ends in the text that follows leaves no match in the text itself: all that it takes
before the quote that closes its target would have to hold two quotes. -/
theorem targets_eq_nil_of_crossing (accepted : form.Accepts (s ++ more) target rest)
    (crosses : rest.length < more.length) : form.targets s = [] := by
  by_contra named
  obtain ⟨inner, member⟩ := List.exists_mem_of_ne_nil _ named
  obtain ⟨skipped, later, left, rfl, found⟩ := exists_suffix_of_mem_targets member
  obtain ⟨before, closes, whole, -, one⟩ := accepted.quotes.exists_before
  obtain ⟨inside, ends, rfl, quote, two⟩ := found.quotes.exists_before
  have outer : before <+: skipped ++ (inside ++ ends :: (form.ending ++ left)) ++ more :=
    ⟨closes :: (form.ending ++ rest), whole.symm⟩
  have inner : skipped ++ inside ++ [ends] <+:
      skipped ++ (inside ++ ends :: (form.ending ++ left)) ++ more :=
    ⟨form.ending ++ left ++ more, by simp⟩
  have shorter : (skipped ++ inside ++ [ends]).length ≤ before.length := by
    have lengths := congrArg List.length whole
    simp only [List.length_append, List.length_cons, List.length_nil] at lengths ⊢
    omega
  have contained := List.prefix_of_prefix_length_le inner outer shorter
  have fewer := contained.sublist.countP_le (p := isQuote)
  simp only [List.countP_append, List.countP_singleton, quote, if_true] at fewer
  omega

/-- What a form finds in a text it finds again, in the same order, when the text goes on. -/
theorem targets_prefix_append (form : Form) (s more : List Char) :
    form.targets s <+: form.targets (s ++ more) := by
  induction s using Form.targets.induct form with
  | case1 =>
    rw [targets_nil]
    exact List.nil_prefix
  | case2 c tail target rest found ih =>
    have again : form.match? (c :: tail ++ more) = some (target, rest ++ more) :=
      match?_append_iff.mpr found
    rw [targets_of_match? found, targets_of_match? again]
    exact List.cons_prefix_cons.mpr ⟨rfl, ih⟩
  | case3 c tail nothing ih =>
    cases again : form.match? (c :: tail ++ more) with
    | none =>
      rw [List.cons_append] at again
      rw [targets_of_none nothing, List.cons_append, targets_of_none again]
      exact ih
    | some pair =>
      obtain ⟨target, rest⟩ := pair
      have accepted := accepts_of_match? again
      -- If the match ended within the text, the text alone would have it, too.
      have crosses : rest.length < more.length := by
        by_contra long
        obtain ⟨left, rfl⟩ : more <:+ rest :=
          List.suffix_of_suffix_length_le (List.suffix_append _ more) (suffix_of_match? again)
            (Nat.not_lt.mp long)
        rw [match?_append_iff.mp again] at nothing
        cases nothing
      rw [targets_eq_nil_of_crossing accepted crosses]
      exact List.nil_prefix

end Form

theorem mem_references {text name : String} :
    name ∈ references text ↔
      name ≠ "" ∧ ∃ form, ∃ target ∈ targetsOf form text, packageName target = name := by
  have all : ∀ form, form ∈ Form.all := by
    intro form
    cases form <;> decide
  simp only [references, targets, Names.mem_ascending, List.mem_filter, List.mem_map,
    List.mem_flatMap, all, true_and, decide_eq_true_eq]
  constructor
  · intro holds
    obtain ⟨⟨target, ⟨form, found⟩, same⟩, named⟩ := holds
    exact ⟨named, form, target, found, same⟩
  · intro holds
    obtain ⟨named, form, target, found, same⟩ := holds
    exact ⟨⟨target, ⟨form, found⟩, same⟩, named⟩

theorem targetsOf_prefix_append (form : Form) (text more : String) :
    targetsOf form text <+: targetsOf form (text ++ more) := by
  unfold targetsOf
  rw [String.toList_append]
  exact (Form.targets_prefix_append form text.toList more.toList).map String.ofList

theorem references_subset_append (text more : String) :
    references text ⊆ references (text ++ more) := by
  intro name referred
  obtain ⟨named, form, target, found, same⟩ := mem_references.mp referred
  exact mem_references.mpr
    ⟨named, form, target, (targetsOf_prefix_append form text more).subset found, same⟩

/-- Whatever is appended to a text, each form names what it named before, in the same order and
before anything else, so no reference is lost. -/
theorem append_keeps_references (text more : String) :
    (∀ form, targetsOf form text <+: targetsOf form (text ++ more)) ∧
      references text ⊆ references (text ++ more) :=
  ⟨fun form => targetsOf_prefix_append form text more, references_subset_append text more⟩

end DependencyAudit.Import
