import DependencyAudit.Proofs.Json.Grammar

namespace DependencyAudit.Json

/-- How many arrays and objects are open at most in a text, at whose start `opened` of them are. No
bracket in a string counts; the text starts in one where it is `quoted`. -/
def deepest (quoted : Bool) (opened : Nat) : List Char → Nat
  | [] => opened
  | c :: rest =>
    if quoted then
      if c = '\\' then
        match rest with
        | [] => opened
        | _ :: later => deepest true opened later
      else deepest (c ≠ '"') opened rest
    else if c = '"' then deepest true opened rest
    else if c = '[' ∨ c = '\x7b' then deepest false (opened + 1) rest
    else if c = ']' ∨ c = '\x7d' then max opened (deepest false (opened - 1) rest)
    else deepest false opened rest

/-- How deep the arrays and objects of a text are nested, well-formed or not. -/
def nesting (s : List Char) : Nat := deepest false 0 s

/-- A character that neither opens nor closes anything. -/
def Neutral (c : Char) : Prop := c ∉ ['"', '[', '\x7b', ']', '\x7d']

instance : DecidablePred Neutral := fun _ => inferInstanceAs (Decidable (¬ _))

/-- Nothing is opened or closed between two places. -/
def Runs (s rest : List Char) : Prop := ∃ run, s = run ++ rest ∧ ∀ c ∈ run, Neutral c

/-- One place comes before another, by which `closed` more arrays and objects have been closed than
opened. -/
structure Leads (closed : Nat) (s rest : List Char) : Prop where
  suffix : rest <:+ s
  deepest_le : ∀ opened, deepest false opened rest ≤ deepest false (opened + closed) s

/-- How many arrays or objects a part closes that it has not opened. -/
def Part.closed : Part → Nat
  | value _ => 0
  | items _ | members _ => 1

section

variable {s rest left : List Char} {a b : Nat}

theorem le_deepest (quoted : Bool) (opened : Nat) (s : List Char) :
    opened ≤ deepest quoted opened s := by
  fun_induction deepest quoted opened s <;> omega

theorem deepest_cons (opened : Nat) (c : Char) (s : List Char) : deepest false opened (c :: s) =
    if c = '"' then deepest true opened s
    else if c = '[' ∨ c = '\x7b' then deepest false (opened + 1) s
    else if c = ']' ∨ c = '\x7d' then max opened (deepest false (opened - 1) s)
    else deepest false opened s := by
  rw [deepest.eq_def]
  rfl

theorem deepest_quoted_cons {c : Char} (notBackslash : c ≠ '\\') (opened : Nat) (s : List Char) :
    deepest true opened (c :: s) = deepest (c ≠ '"') opened s := by
  rw [deepest.eq_def]
  simp only [if_true, if_neg notBackslash]

theorem deepest_escaped (opened : Nat) (c : Char) (s : List Char) :
    deepest true opened ('\\' :: c :: s) = deepest true opened s := by
  rw [deepest.eq_def]
  simp only [if_true]

theorem deepest_of_neutral {c : Char} (neutral : Neutral c) (opened : Nat) (s : List Char) :
    deepest false opened (c :: s) = deepest false opened s := by
  simp only [Neutral, List.mem_cons, List.not_mem_nil, or_false, not_or] at neutral
  simp [deepest_cons, neutral]

theorem Runs.deepest_eq (runs : Runs s rest) (opened : Nat) :
    deepest false opened s = deepest false opened rest := by
  obtain ⟨run, rfl, neutral⟩ := runs
  induction run with
  | nil => rfl
  | cons c others ih =>
    obtain ⟨here, later⟩ := List.forall_mem_cons.mp neutral
    rw [List.cons_append, deepest_of_neutral here, ih later]

theorem Runs.leads (runs : Runs s rest) : Leads 0 s rest := by
  refine ⟨?_, fun opened => (runs.deepest_eq opened).ge⟩
  obtain ⟨run, rfl, -⟩ := runs
  exact List.suffix_append run rest

theorem Runs.refl (s : List Char) : Runs s s := ⟨[], rfl, by simp⟩

theorem Runs.trans (first : Runs s left) (second : Runs left rest) : Runs s rest := by
  obtain ⟨run, rfl, neutral⟩ := first
  obtain ⟨other, rfl, neutral'⟩ := second
  exact ⟨run ++ other, (List.append_assoc _ _ _).symm, List.forall_mem_append.mpr ⟨neutral, neutral'⟩⟩

theorem Runs.cons {c : Char} (neutral : Neutral c) (runs : Runs s rest) : Runs (c :: s) rest := by
  obtain ⟨run, rfl, all⟩ := runs
  exact ⟨c :: run, rfl, List.forall_mem_cons.mpr ⟨neutral, all⟩⟩

theorem Leads.trans (first : Leads a s left) (second : Leads b left rest) :
    Leads (a + b) s rest := by
  refine ⟨second.suffix.trans first.suffix, fun opened => ?_⟩
  have whole := (second.deepest_le opened).trans (first.deepest_le (opened + b))
  rwa [Nat.add_assoc, Nat.add_comm b a] at whole

theorem leads_close {c : Char} (closes : c = ']' ∨ c = '\x7d') : Leads 1 (c :: rest) rest := by
  refine ⟨List.suffix_cons _ _, fun opened => ?_⟩
  rcases closes with rfl | rfl <;> simp [deepest_cons]

theorem Leads.open {c : Char} (opens : c = '[' ∨ c = '\x7b') (leads : Leads 1 s rest) :
    Leads 0 (c :: s) rest := by
  refine ⟨leads.suffix.trans (List.suffix_cons _ _), fun opened => ?_⟩
  have inside := leads.deepest_le opened
  rcases opens with rfl | rfl <;> simpa [deepest_cons] using inside

theorem Spaces.runs (spaces : Spaces s rest) : Runs s rest := by
  obtain ⟨run, same, all⟩ := spaces
  refine ⟨run, same, fun c member => ?_⟩
  have space := all c member
  simp only [isSpace, Bool.or_eq_true, beq_iff_eq] at space
  rcases space with ((rfl | rfl) | rfl) | rfl <;> decide

theorem neutral_of_isDigit {c : Char} (digit : c.isDigit) : Neutral c := by
  intro member
  simp only [List.mem_cons, List.not_mem_nil, or_false] at member
  rcases member with rfl | rfl | rfl | rfl | rfl <;> cases digit

theorem Digits.runs {digits : List Char} (written : Digits digits) (rest : List Char) :
    Runs (digits ++ rest) rest := ⟨digits, rfl, fun c member => neutral_of_isDigit (written.2 c member)⟩

theorem Fraction.runs {digits : List Char} (fraction : Fraction s digits rest) : Runs s rest := by
  cases fraction with
  | none => exact Runs.refl _
  | some digits => exact (digits.runs _).cons (by decide)

theorem Exponent.runs {exponent : Option Int} (written : Exponent s exponent rest) :
    Runs s rest := by
  have mark : ∀ {c : Char}, c = 'e' ∨ c = 'E' → Neutral c := by
    rintro c (rfl | rfl) <;> decide
  cases written with
  | none => exact Runs.refl _
  | plain isMark digits => exact (digits.runs _).cons (mark isMark)
  | plus isMark digits => exact ((digits.runs _).cons (by decide)).cons (mark isMark)
  | minus isMark digits => exact ((digits.runs _).cons (by decide)).cons (mark isMark)

variable {admits : List Char → Prop}

theorem Unsigned.runs {negative : Bool} {number : Number}
    (written : Unsigned admits negative s number rest) : Runs s rest := by
  obtain ⟨whole, fraction, exponent, _⟩ := written
  exact (whole.1.runs _).trans (fraction.runs.trans exponent.runs)

theorem Numeral.runs {number : Number} (written : Numeral admits s number rest) : Runs s rest := by
  cases written with
  | positive unsigned => exact unsigned.runs
  | negative unsigned => exact unsigned.runs.cons (by decide)

theorem runs_of_mem_words {word : List Char} {value : Value} (member : (word, value) ∈ words)
    (rest : List Char) : Runs (word ++ rest) rest := by
  refine ⟨word, rfl, ?_⟩
  simp only [words, List.mem_cons, List.not_mem_nil, or_false, Prod.mk.injEq] at member
  rcases member with ⟨rfl, -⟩ | ⟨rfl, -⟩ | ⟨rfl, -⟩ | ⟨rfl, -⟩ | ⟨rfl, -⟩ | ⟨rfl, -⟩ <;> decide

/-- Hexadecimal digits are neither a quote nor a backslash. -/
theorem ne_of_hexNumber? {digits : List Char} {n : Nat} (number : Text.hexNumber? digits = some n)
    {c : Char} (member : c ∈ digits) : c ≠ '"' ∧ c ≠ '\\' := by
  have valued : ∃ value, Text.hexValue? c = some value := by
    unfold Text.hexNumber? at number
    generalize 0 = start at number
    induction digits generalizing start with
    | nil => cases member
    | cons first others ih =>
      rw [List.foldlM_cons] at number
      obtain ⟨next, first', later⟩ := Option.bind_eq_some_iff.mp number
      rcases List.mem_cons.mp member with rfl | behind
      · obtain ⟨value, valued, -⟩ := Option.map_eq_some_iff.mp first'
        exact ⟨value, valued⟩
      · exact ih behind next later
  obtain ⟨value, valued⟩ := valued
  constructor
  · rintro rfl
    cases valued
  · rintro rfl
    cases valued

theorem Points.deepest_eq {points : List Text.Point} (written : Points s points rest)
    (opened : Nat) : deepest true opened s = deepest false opened rest := by
  induction written with
  | done => simp [deepest_quoted_cons]
  | plain notQuote notBackslash _ _ ih => simp [deepest_quoted_cons notBackslash, notQuote, ih]
  | short _ _ ih => rw [deepest_escaped, ih]
  | @unit a b c d n s points rest number _ ih =>
    have digit := fun other member => @ne_of_hexNumber? _ _ number other member
    simp only [List.forall_mem_cons] at digit
    obtain ⟨first, second, third, fourth, -⟩ := digit
    simp [deepest_escaped, deepest_quoted_cons, first, second, third, fourth, ih]

theorem Points.suffix {points : List Text.Point} (written : Points s points rest) :
    rest <:+ s := by
  have behind : ∀ (c : Char) (s : List Char), s <:+ c :: s := List.suffix_cons
  induction written with
  | done => exact behind _ _
  | plain _ _ _ _ ih => exact ih.trans (behind _ _)
  | short _ _ ih => exact ih.trans ((behind _ _).trans (behind _ _))
  | unit _ _ ih =>
    exact ih.trans (List.suffix_append ['\\', 'u', _, _, _, _] _)

/-- A string literal leads from its opening quote to behind its closing one. -/
theorem Points.leads {points : List Text.Point} (written : Points s points rest) :
    Leads 0 ('"' :: s) rest := by
  refine ⟨written.suffix.trans (List.suffix_cons _ _), fun opened => ?_⟩
  simp [deepest_cons, written.deepest_eq]

/-- What is written stands before the place behind it, and it closes what it opens. -/
theorem Spells.leads {part : Part} (written : Spells admits s part rest) :
    Leads part.closed s rest := by
  have comma {s : List Char} : Leads 0 (',' :: s) s := ((Runs.refl s).cons (by decide)).leads
  have colon {s : List Char} : Leads 0 (':' :: s) s := ((Runs.refl s).cons (by decide)).leads
  induction written with
  | word member => exact (runs_of_mem_words member _).leads
  | number numeral => exact numeral.runs.leads
  | text points => exact points.leads
  | noItems spaces => exact (spaces.runs.leads.trans (leads_close (.inl rfl))).open (.inl rfl)
  | array spaces _ ih => exact (spaces.runs.leads.trans ih).open (.inl rfl)
  | noMembers spaces => exact (spaces.runs.leads.trans (leads_close (.inr rfl))).open (.inr rfl)
  | object spaces _ ih => exact (spaces.runs.leads.trans ih).open (.inr rfl)
  | lastItem _ spaces ih => exact (ih.trans spaces.runs.leads).trans (leads_close (.inl rfl))
  | nextItem _ separated spaces _ ih ih' =>
    exact ((ih.trans separated.runs.leads).trans comma).trans (spaces.runs.leads.trans ih')
  | lastMember points separated spaces _ closed ih =>
    have value := (points.leads.trans separated.runs.leads).trans
      (colon.trans (spaces.runs.leads.trans ih))
    exact (value.trans closed.runs.leads).trans (leads_close (.inr rfl))
  | nextMember points separated spaces _ separated' spaces' _ ih ih' =>
    have value := (points.leads.trans separated.runs.leads).trans
      (colon.trans (spaces.runs.leads.trans ih))
    exact (value.trans (separated'.runs.leads.trans comma)).trans (spaces'.runs.leads.trans ih')

end

end DependencyAudit.Json
