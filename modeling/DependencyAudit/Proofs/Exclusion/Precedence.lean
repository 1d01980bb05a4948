import DependencyAudit.Proofs.Exclusion.Below

namespace DependencyAudit.Exclusion

/-- A blank line or a comment. -/
def IsRemark (line : String) : Prop :=
  (∀ c ∈ line.toList, Text.isBlank c) ∨ line.toList.head? = some '#'

/-- What the pattern of a line matches is kept. -/
def negates (line : String) : Bool := line.toList.head? == some '!'

/-- The line writes a pattern that matches the text, which is excluded for that or kept. -/
def Says (line : String) (s : List Char) (excluded : Bool) : Prop :=
  excluded = !negates line ∧
    ∃ p, Pattern.ofLine? line = .ok (some p) ∧ p.matcher.matches s = true

/-- No line has a pattern that matches the text. -/
def Undecided (lines : List String) (s : List Char) : Prop :=
  ∀ line ∈ lines, ∀ excluded, ¬ Says line s excluded

/-- What is said by the last line that says anything of the text; none where no line does. -/
def Decides (lines : List String) (s : List Char) : Option Bool → Prop
  | none => Undecided lines s
  | some excluded => ∃ before line after,
      lines = before ++ line :: after ∧ Says line s excluded ∧ Undecided after s

/-- Every line writes a pattern or is a remark. -/
def Compiles (lines : List String) : Prop := ∃ patterns, patternsOf lines = .ok patterns

/-- The second list of lines is the first one with remarks anywhere in it. -/
inductive WithRemarks : List String → List String → Prop
  | nil : WithRemarks [] []
  | keep {lines remarked} (line : String) (rest : WithRemarks lines remarked) :
      WithRemarks (line :: lines) (line :: remarked)
  | insert {lines remarked line} (isRemark : IsRemark line) (rest : WithRemarks lines remarked) :
      WithRemarks lines (line :: remarked)

section

variable {line : String} {s : List Char}

theorem withoutTrailingBlanks_eq_nil_iff :
    withoutTrailingBlanks s = [] ↔ ∀ c ∈ s, Text.isBlank c := by
  unfold withoutTrailingBlanks
  split
  next held =>
    have suffix := List.isSuffixOf_iff_suffix.mp held
    constructor
    · rintro rfl
      simp
    · intro blank
      have backslash := blank '\\' (suffix.subset List.mem_cons_self)
      exact absurd backslash (by decide)
  next =>
    rw [Text.trimEnd, List.reverse_eq_nil_iff, List.dropWhile_eq_nil_iff]
    simp only [List.mem_reverse]

/-- The lines that are no patterns, and no faults either. -/
theorem Pattern.ofLine?_eq_none_iff : Pattern.ofLine? line = .ok none ↔ IsRemark line := by
  unfold Pattern.ofLine? IsRemark
  rw [← withoutTrailingBlanks_eq_nil_iff]
  split
  next blank => simp [blank]
  next comment =>
    have notBlank : withoutTrailingBlanks line.toList ≠ [] := by simp [comment]
    have head := head?_withoutTrailingBlanks notBlank
    rw [comment] at head
    simp [← head]
  next notBlank notComment =>
    have head := head?_withoutTrailingBlanks notBlank
    have notRemark : ¬ (withoutTrailingBlanks line.toList = [] ∨ line.toList.head? = some '#') := by
      rintro (blank | comment)
      · exact notBlank blank
      · rw [← head] at comment
        obtain ⟨rest, shape⟩ := List.head?_eq_some_iff.mp comment
        exact notComment rest shape
    refine iff_of_false (fun read => ?_) notRemark
    dsimp only at read
    split at read
    · cases read
    · cases read
    · split at read
      · cases read
      · cases read

theorem sign_fst (s : List Char) : (sign s).1 = !(s.head? == some '!') := by
  unfold sign
  split
  · rfl
  next notNegated =>
    cases s with
    | nil => rfl
    | cons c rest =>
      have other : c ≠ '!' := fun same => notNegated rest (same ▸ rfl)
      simp [other]

/-- Only an exclamation mark at its front makes a pattern keep what it matches. -/
theorem Pattern.excludes_of_ofLine? {p : Pattern} (read : Pattern.ofLine? line = .ok (some p)) :
    p.excludes = !negates line := by
  unfold Pattern.ofLine? at read
  split at read
  · cases read
  · cases read
  next notBlank _ =>
    dsimp only at read
    split at read
    · cases read
    · cases read
    · split at read
      · cases read
        rw [negates, ← head?_withoutTrailingBlanks notBlank]
        exact sign_fst _
      · cases read

end

section

variable {lines more : List String} {patterns : List Pattern} {s : List Char} {found : Option Bool}

theorem patternsOf_append_eq_ok_iff : patternsOf (lines ++ more) = .ok patterns ↔
    ∃ first second, patternsOf lines = .ok first ∧ patternsOf more = .ok second ∧
      patterns = first ++ second := by
  have whole : patternsOf (lines ++ more) =
      patternsOf lines >>= fun first => patternsOf more >>= fun second =>
        .ok (first ++ second) := by
    unfold patternsOf
    rw [List.mapM_append]
    simp only [bind_assoc, pure_bind, List.filterMap_append]
    rfl
  rw [whole, Except.bind_eq_ok_iff]
  constructor
  · rintro ⟨first, one, rest⟩
    obtain ⟨second, two, same⟩ := Except.bind_eq_ok_iff.mp rest
    exact ⟨first, second, one, two, (Except.ok.inj same).symm⟩
  · rintro ⟨first, second, one, two, rfl⟩
    exact ⟨first, one, Except.bind_eq_ok_iff.mpr ⟨second, two, rfl⟩⟩

theorem patternsOf_singleton (line : String) :
    patternsOf [line] = (Pattern.ofLine? line).map Option.toList := by
  unfold patternsOf
  rw [List.mapM_cons, List.mapM_nil]
  cases Pattern.ofLine? line with
  | error fault => rfl
  | ok own => cases own <;> rfl

theorem patternsOf_cons_eq_ok_iff {line : String} : patternsOf (line :: lines) = .ok patterns ↔
    ∃ own others, Pattern.ofLine? line = .ok own ∧ patternsOf lines = .ok others ∧
      patterns = own.toList ++ others := by
  rw [← List.singleton_append, patternsOf_append_eq_ok_iff, patternsOf_singleton]
  simp only [Except.map_eq_ok_iff]
  constructor
  · rintro ⟨_, others, ⟨own, isOwn, rfl⟩, read, same⟩
    exact ⟨own, others, isOwn, read, same⟩
  · rintro ⟨own, others, isOwn, read, same⟩
    exact ⟨own.toList, others, ⟨own, isOwn, rfl⟩, read, same⟩

/-- Of two lists of patterns one after the other the second one is asked first. -/
theorem decision_append (first second : List Pattern) (s : List Char) :
    decision (first ++ second) s = (decision second s).or (decision first s) := by
  unfold decision
  rw [List.reverse_append, List.find?_append, Option.map_or]

theorem decision_toList (own : Option Pattern) (s : List Char) : decision own.toList s =
    own.bind fun p => if p.matcher.matches s then some p.excludes else none := by
  cases own with
  | none => rfl
  | some p =>
    by_cases found : p.matcher.matches s = true
    · simp [decision, found]
    · simp [decision, found]

theorem decision_of_undecided (read : patternsOf lines = .ok patterns)
    (undecided : Undecided lines s) : decision patterns s = none := by
  rw [decision, Option.map_eq_none_iff, List.find?_eq_none]
  intro p member found
  obtain ⟨line, inLines, isPattern⟩ := mem_patternsOf read (List.mem_reverse.mp member)
  exact undecided line inLines _ ⟨rfl, p, isPattern, found⟩

/-- What patterns say of a text is what the lines decide that write them. -/
theorem decides_iff (read : patternsOf lines = .ok patterns) :
    Decides lines s found ↔ decision patterns s = found := by
  constructor
  · intro decides
    cases found with
    | none => exact decision_of_undecided read decides
    | some excluded =>
      obtain ⟨before, line, after, rfl, ⟨rfl, p, isPattern, found⟩, undecided⟩ := decides
      obtain ⟨first, second, -, fromLine, rfl⟩ := patternsOf_append_eq_ok_iff.mp read
      obtain ⟨own, others, isOwn, readAfter, rfl⟩ := patternsOf_cons_eq_ok_iff.mp fromLine
      cases isOwn.symm.trans isPattern
      rw [decision_append, decision_append, decision_of_undecided readAfter undecided,
        decision_toList]
      simp [found, Pattern.excludes_of_ofLine? isPattern]
  · rintro rfl
    induction lines generalizing patterns with
    | nil =>
      cases read
      exact fun line member => absurd member List.not_mem_nil
    | cons line rest ih =>
      obtain ⟨own, others, isOwn, readRest, rfl⟩ := patternsOf_cons_eq_ok_iff.mp read
      have later := ih readRest
      rw [decision_append]
      cases decided : decision others s with
      | some excluded =>
        rw [decided] at later
        obtain ⟨before, line', after, rfl, said, undecided⟩ := later
        exact ⟨line :: before, line', after, rfl, said, undecided⟩
      | none =>
        rw [decided] at later
        rw [decision_toList]
        cases own with
        | none =>
          refine List.forall_mem_cons.mpr ⟨fun excluded said => ?_, later⟩
          obtain ⟨-, p, isPattern, -⟩ := said
          cases isOwn.symm.trans isPattern
        | some p =>
          by_cases found : p.matcher.matches s = true
          · simp only [Option.none_or, Option.bind_some, found, if_true]
            exact ⟨[], line, rest, rfl,
              ⟨Pattern.excludes_of_ofLine? isOwn, p, isOwn, found⟩, later⟩
          · simp only [Option.none_or, Option.bind_some, found]
            refine List.forall_mem_cons.mpr ⟨fun excluded said => ?_, later⟩
            obtain ⟨-, other, isPattern, found'⟩ := said
            cases isOwn.symm.trans isPattern
            exact found found'

end

namespace WithRemarks

variable {lines remarked more remarkedMore : List String}

theorem append (first : WithRemarks lines remarked) (second : WithRemarks more remarkedMore) :
    WithRemarks (lines ++ more) (remarked ++ remarkedMore) := by
  induction first with
  | nil => exact second
  | keep line _ ih => exact .keep line ih
  | insert isRemark _ ih => exact .insert isRemark ih

/-- Remarks add nothing to the patterns of lines. -/
theorem patternsOf_eq_ok (insert : WithRemarks lines remarked) {patterns : List Pattern}
    (read : patternsOf lines = .ok patterns) : patternsOf remarked = .ok patterns := by
  induction insert generalizing patterns with
  | nil => exact read
  | keep line _ ih =>
    obtain ⟨own, others, isOwn, readRest, same⟩ := patternsOf_cons_eq_ok_iff.mp read
    exact patternsOf_cons_eq_ok_iff.mpr ⟨own, others, isOwn, ih readRest, same⟩
  | insert isRemark _ ih =>
    exact patternsOf_cons_eq_ok_iff.mpr
      ⟨none, patterns, Pattern.ofLine?_eq_none_iff.mpr isRemark, ih read, rfl⟩

end WithRemarks

/-- An excluder asks the lines of the command line first and then those of the settings; what neither
of them decides it keeps, as it does what is not below its root. -/
structure Overrides (root : Path) (settings commandLine : List String) (e : Excluder) : Prop where
  below : ∀ names isDirectory ofCommandLine ofSettings,
    Decides commandLine (Excluder.textOf names isDirectory) ofCommandLine →
    Decides settings (Excluder.textOf names isDirectory) ofSettings →
      e.excludes ⟨root.anchor, root.names ++ names⟩ isDirectory =
        (ofCommandLine.or ofSettings).getD false
  /-- Each list of lines decides each text in one way. -/
  decided : ∀ s, (∃! ofCommandLine, Decides commandLine s ofCommandLine) ∧
    ∃! ofSettings, Decides settings s ofSettings
  outside : ∀ p isDirectory, (∀ names, p ≠ ⟨root.anchor, root.names ++ names⟩) →
    e.excludes p isDirectory = false

theorem Excluder.ofLines_of_patternsOf {root : Path} {settings commandLine : List String}
    {patterns : List Pattern} (read : patternsOf (settings ++ commandLine) = .ok patterns) :
    ofLines root settings commandLine = .ok ⟨root, settings ++ commandLine, patterns⟩ := by
  rw [ofLines, read]
  rfl

theorem existsUnique_decides {lines : List String} (compiles : Compiles lines) (s : List Char) :
    ∃! found, Decides lines s found := by
  obtain ⟨patterns, read⟩ := compiles
  exact ⟨decision patterns s, (decides_iff read).mpr rfl, fun _ decides =>
    ((decides_iff read).mp decides).symm⟩

/-- The last line that matches decides, those of the command line before those of the settings, and
remarks among them change no answer. -/
theorem commandLine_overrides {root : Path} {settings commandLine : List String}
    (compilesSettings : Compiles settings) (compilesCommandLine : Compiles commandLine) :
    ∃ e, Excluder.ofLines root settings commandLine = .ok e ∧
      Overrides root settings commandLine e ∧
      ∀ settings' commandLine', WithRemarks settings settings' →
        WithRemarks commandLine commandLine' →
        ∃ e', Excluder.ofLines root settings' commandLine' = .ok e' ∧
          ∀ p isDirectory, e'.excludes p isDirectory = e.excludes p isDirectory := by
  have ⟨ofSettings, readSettings⟩ := compilesSettings
  have ⟨ofCommandLine, readCommandLine⟩ := compilesCommandLine
  have read : patternsOf (settings ++ commandLine) = .ok (ofSettings ++ ofCommandLine) :=
    patternsOf_append_eq_ok_iff.mpr ⟨_, _, readSettings, readCommandLine, rfl⟩
  refine ⟨_, Excluder.ofLines_of_patternsOf read, ?_, ?_⟩
  · constructor
    case below =>
      intro names isDirectory second first decidesSecond decidesFirst
      have leads : Path.relativeTo? ⟨root.anchor, root.names ++ names⟩ root = some names :=
        Path.relativeTo?_eq_some_iff.mpr rfl
      rw [Excluder.excludes, leads]
      dsimp only
      rw [decision_append, (decides_iff readCommandLine).mp decidesSecond,
        (decides_iff readSettings).mp decidesFirst]
    case decided =>
      exact fun s => ⟨existsUnique_decides compilesCommandLine s,
        existsUnique_decides compilesSettings s⟩
    case outside =>
      intro p isDirectory apart
      have nowhere : p.relativeTo? root = none := Option.eq_none_iff_forall_ne_some.mpr
        fun names leads => apart names (Path.relativeTo?_eq_some_iff.mp leads)
      rw [Excluder.excludes, nowhere]
  · intro settings' commandLine' inSettings inCommandLine
    have read' := (inSettings.append inCommandLine).patternsOf_eq_ok read
    exact ⟨_, Excluder.ofLines_of_patternsOf read', fun _ _ => rfl⟩

theorem compiles_of_isOk {lines : List String} (isOk : (patternsOf lines).isOk = true) :
    Compiles lines := by
  cases read : patternsOf lines with
  | error fault =>
    rw [read] at isOk
    cases isOk
  | ok patterns => exact ⟨patterns, read⟩

/-- The settings keep one of the files that they exclude, and the command line excludes it again. -/
theorem commandLine_overrides_of_negation :
    Compiles ["*.js", "!b.js"] ∧ Compiles ["b.*"] ∧
      WithRemarks ["b.*"] ["# code", "b.*", " "] ∧
      ∃ e e', Excluder.ofLines ⟨.root, ["work"]⟩ ["*.js", "!b.js"] ["b.*"] = .ok e ∧
        Overrides ⟨.root, ["work"]⟩ ["*.js", "!b.js"] ["b.*"] e ∧
        e.excludes ⟨.root, ["work", "b.js"]⟩ false = true ∧
        Excluder.ofLines ⟨.root, ["work"]⟩ ["*.js", "!b.js"] ["# code", "b.*", " "] = .ok e' ∧
        e'.excludes ⟨.root, ["work", "b.js"]⟩ false = true := by
  have ofSettings : Compiles ["*.js", "!b.js"] := compiles_of_isOk (by decide +kernel)
  have ofCommandLine : Compiles ["b.*"] := compiles_of_isOk (by decide +kernel)
  have same : WithRemarks ["*.js", "!b.js"] ["*.js", "!b.js"] := .keep _ (.keep _ .nil)
  have remarks : WithRemarks ["b.*"] ["# code", "b.*", " "] :=
    .insert (.inr rfl) (.keep _ (.insert (.inl (by decide)) .nil))
  have verdict : ((Excluder.ofLines ⟨.root, ["work"]⟩ ["*.js", "!b.js"] ["b.*"]).toOption.map
      fun e => e.excludes ⟨.root, ["work", "b.js"]⟩ false) = some true := by decide +kernel
  obtain ⟨e, made, overrides, inserting⟩ := @commandLine_overrides ⟨.root, ["work"]⟩ _ _
    ofSettings ofCommandLine
  obtain ⟨e', made', alike⟩ := inserting _ _ same remarks
  rw [made] at verdict
  have excluded : e.excludes ⟨.root, ["work", "b.js"]⟩ false = true := Option.some.inj verdict
  exact ⟨ofSettings, ofCommandLine, remarks, e, e', made, overrides, excluded, made',
    (alike _ _).trans excluded⟩

end DependencyAudit.Exclusion
