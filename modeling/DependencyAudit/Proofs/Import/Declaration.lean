import DependencyAudit.Proofs.Import.Appending

namespace DependencyAudit.Import

/-- Nothing but blanks, and possibly nothing at all. -/
def AllBlank (s : List Char) : Prop := ∀ c ∈ s, Text.isBlank c

/-- A word of ASCII letters, digits, underscores and dollar signs that starts with no digit. -/
structure IsIdentifier (s : List Char) : Prop where
  ne_nil : s ≠ []
  chars : ∀ c ∈ s, c.isAlphanum ∨ c = '_' ∨ c = '$'
  notDigit : ∀ c, s.head? = some c → c.isDigit = false

/-- A name that is imported, possibly under another name. -/
inductive IsSpecifier : List Char → Prop
  | plain {name} : IsIdentifier name → IsSpecifier name
  | renamed {name before after other} :
      IsIdentifier name → before ≠ [] → AllBlank before → after ≠ [] → AllBlank after →
      IsIdentifier other → IsSpecifier (name ++ before ++ "as".toList ++ after ++ other)

/-- What stands between the braces of a clause: names with commas between them, and possibly one
more comma behind the last. -/
inductive AreSpecifiers : List Char → Prop
  | none {blanks} : AllBlank blanks → AreSpecifiers blanks
  | last {before name after} :
      AllBlank before → IsSpecifier name → AllBlank after → AreSpecifiers (before ++ name ++ after)
  | next {before name after rest} :
      AllBlank before → IsSpecifier name → AllBlank after → AreSpecifiers rest →
      AreSpecifiers (before ++ name ++ after ++ ',' :: rest)

/-- All that a module exports under one name, or some of it by name. -/
inductive IsBinding : List Char → Prop
  | namespace {before after name} :
      AllBlank before → after ≠ [] → AllBlank after → IsIdentifier name →
      IsBinding ('*' :: before ++ "as".toList ++ after ++ name)
  | named {names} : AreSpecifiers names → IsBinding ('{' :: names ++ ['}'])

/-- The clause of an import declaration. -/
inductive IsImportClause : List Char → Prop
  | default {name} : IsIdentifier name → IsImportClause name
  | binding {binding} : IsBinding binding → IsImportClause binding
  | both {name before after binding} :
      IsIdentifier name → AllBlank before → AllBlank after → IsBinding binding →
      IsImportClause (name ++ before ++ ',' :: after ++ binding)

/-- A character that the pattern of a declaration takes in a clause, or a dollar sign. -/
def InClause (c : Char) : Prop := isClause c ∨ c = '$'

theorem isClause_of_isAlphanum {c : Char} (alphanumeric : c.isAlphanum) : isClause c := by
  have ascii : c.toNat < 0x80 := by
    have below : ∀ last : Char, last.val.toNat < 0x80 → c.val ≤ last.val → c.toNat < 0x80 :=
      fun _ bound within => Nat.lt_of_le_of_lt (UInt32.le_iff_toNat_le.mp within) bound
    rcases Bool.or_eq_true _ _ ▸ alphanumeric with letter | digit
    · rcases Bool.or_eq_true _ _ ▸ letter with upper | lower
      · exact below 'Z' (by decide) (of_decide_eq_true upper).2
      · exact below 'z' (by decide) (of_decide_eq_true (Bool.and_eq_true _ _ ▸ lower).2)
    · exact below '9' (by decide) (of_decide_eq_true (Bool.and_eq_true _ _ ▸ digit).2)
  simp [isClause, Text.isWord, ascii, alphanumeric]

theorem IsIdentifier.inClause {s : List Char} (identifier : IsIdentifier s) :
    ∀ c ∈ s, InClause c := by
  intro c member
  rcases identifier.chars c member with alphanumeric | rfl | rfl
  · exact .inl (isClause_of_isAlphanum alphanumeric)
  · exact .inl (by decide)
  · exact .inr rfl

theorem AllBlank.inClause {s : List Char} (blank : AllBlank s) : ∀ c ∈ s, InClause c :=
  fun c member => .inl (isClause_of_isBlank (blank c member))

theorem inClause_of_mem_as : ∀ c ∈ "as".toList, InClause c :=
  List.forall_mem_cons.mpr ⟨.inl (by decide),
    List.forall_mem_singleton.mpr (.inl (by decide))⟩

theorem inClause_of_mem_marks : ∀ c ∈ ['{', '}', ',', '*'], InClause c := by
  intro c member
  have taken : ∀ c ∈ ['{', '}', ',', '*'], isClause c = true :=
    List.all_eq_true.mp (by decide)
  exact .inl (taken c member)

theorem IsSpecifier.inClause {s : List Char} (specifier : IsSpecifier s) : ∀ c ∈ s, InClause c := by
  cases specifier with
  | plain name => exact name.inClause
  | renamed name _ before _ after other =>
    simp only [List.forall_mem_append]
    exact ⟨⟨⟨⟨name.inClause, before.inClause⟩, inClause_of_mem_as⟩, after.inClause⟩, other.inClause⟩

theorem AreSpecifiers.inClause {s : List Char} (specifiers : AreSpecifiers s) :
    ∀ c ∈ s, InClause c := by
  induction specifiers with
  | none blank => exact blank.inClause
  | last before name after =>
    simp only [List.forall_mem_append]
    exact ⟨⟨before.inClause, name.inClause⟩, after.inClause⟩
  | next before name after _ ih =>
    simp only [List.forall_mem_append, List.forall_mem_cons]
    exact ⟨⟨⟨before.inClause, name.inClause⟩, after.inClause⟩,
      inClause_of_mem_marks ',' (by simp), ih⟩

theorem IsBinding.inClause {s : List Char} (binding : IsBinding s) : ∀ c ∈ s, InClause c := by
  cases binding with
  | «namespace» before _ after name =>
    simp only [List.forall_mem_append, List.cons_append, List.forall_mem_cons]
    exact ⟨inClause_of_mem_marks '*' (by simp),
      ⟨⟨before.inClause, inClause_of_mem_as⟩, after.inClause⟩, name.inClause⟩
  | named names =>
    simp only [List.forall_mem_append, List.cons_append, List.forall_mem_cons]
    exact ⟨inClause_of_mem_marks '{' (by simp), names.inClause,
      inClause_of_mem_marks '}' (by simp), by simp⟩

/-- A clause holds clause characters and dollar signs only. -/
theorem IsImportClause.inClause {s : List Char} (clause : IsImportClause s) :
    ∀ c ∈ s, InClause c := by
  cases clause with
  | default name => exact name.inClause
  | binding binding => exact binding.inClause
  | both name before after binding =>
    simp only [List.forall_mem_append, List.forall_mem_cons]
    exact ⟨⟨⟨name.inClause, before.inClause⟩, inClause_of_mem_marks ',' (by simp), after.inClause⟩,
      binding.inClause⟩

theorem IsImportClause.unquoted {s : List Char} (clause : IsImportClause s) : Unquoted s := by
  intro c member
  rcases clause.inClause c member with taken | rfl
  · exact not_isQuote_of_isClause taken
  · rfl

theorem IsImportClause.ne_nil {s : List Char} (clause : IsImportClause s) : s ≠ [] := by
  cases clause with
  | default name => exact name.ne_nil
  | binding binding => cases binding <;> simp
  | both name _ _ _ => simp

/-- A clause without a dollar sign holds clause characters only. -/
theorem IsImportClause.isClause {s : List Char} (clause : IsImportClause s) (noDollar : '$' ∉ s) :
    ∀ c ∈ s, isClause c := by
  intro c member
  rcases clause.inClause c member with taken | rfl
  · exact taken
  · exact absurd member noDollar

theorem isGap_of_clause {clause : List Char} (nonempty : clause ≠ []) :
    IsGap (' ' :: (clause ++ " from ".toList)) := by
  have shape : ' ' :: (clause ++ " from ".toList) =
      [' '] ++ clause ++ [' '] ++ "from".toList ++ [' '] := by
    simp only [List.append_assoc, List.singleton_append]
    rfl
  have blank : ∀ c ∈ [' '], Text.isBlank c :=
    List.forall_mem_singleton.mpr (by decide)
  rw [shape]
  exact isGap_of_runs (by decide) blank nonempty (by decide) blank (by decide) blank

theorem isClause_of_mem_from_word {c : Char} (member : c ∈ " from ".toList) : isClause c := by
  have taken : ∀ c ∈ " from ".toList, isClause c = true :=
    List.all_eq_true.mp (by decide)
  exact taken c member

section

variable {gap target rest : List Char} {opens closes : Char}

/-- A gap of clause characters makes a declaration of what follows between quotes. -/
theorem accepts_of_isGap (isGap : IsGap gap) (inClass : ∀ c ∈ gap, isClause c)
    (quote : isQuote opens) (nonempty : target ≠ []) (unquoted : Unquoted target)
    (quote' : isQuote closes) :
    Form.static.Accepts ("import".toList ++ (gap ++ opens :: (target ++ closes :: rest)))
      target rest :=
  ⟨_, mem_rests_opening.mpr ⟨gap, opens, rfl, quote, isGap, inClass⟩, closes :: rest,
    Regex.mem_rests_atLeastOne.mpr ⟨target, nonempty, rfl, unquoted⟩, rfl,
    Regex.mem_rests_one.mpr ⟨closes, rfl, quote'⟩⟩

namespace Form

variable {form : Form} {skipped later : List Char}

/-- A stretch without quotes hides no match behind it: one that starts within the stretch has the
same target and ends where that one ends. -/
theorem targets_of_unquoted (unquoted : Unquoted skipped)
    (accepted : form.Accepts later target rest) :
    form.targets (skipped ++ later) = target :: form.targets rest := by
  have quotes := accepted.quotes
  induction skipped with
  | nil => exact targets_of_match? (match?_eq_some_iff.mpr accepted)
  | cons c tail ih =>
    have unquoted' : Unquoted tail := (List.forall_mem_cons.mp unquoted).2
    rw [List.cons_append]
    cases answer : form.match? (c :: (tail ++ later)) with
    | none => rw [targets_of_none answer, ih unquoted']
    | some pair =>
      obtain ⟨other, left⟩ := pair
      obtain ⟨lead, opens, closes, rfl, unquotedLead, quote, unquotedTarget, quote'⟩ := quotes
      have whole : form.Quotes
          (c :: tail ++ (lead ++ opens :: (target ++ closes :: (form.ending ++ rest))))
          target rest :=
        ⟨c :: tail ++ lead, opens, closes, by simp only [List.append_assoc],
          List.forall_mem_append.mpr ⟨unquoted, unquotedLead⟩, quote, unquotedTarget, quote'⟩
      obtain ⟨rfl, rfl⟩ := (accepts_of_match? answer).quotes.unique whole
      exact targets_of_match? answer

/-- No declaration starts with a quote. -/
theorem targets_of_isQuote (quote : isQuote opens) :
    static.targets (opens :: rest) = static.targets rest := by
  refine targets_of_none (Option.eq_none_iff_forall_ne_some.mpr ?_)
  intro pair found
  obtain ⟨inside, opened, -⟩ := accepts_of_match? found
  obtain ⟨gap, first, same, -⟩ := mem_rests_opening.mp opened
  obtain ⟨rfl, -⟩ := List.cons.inj same
  exact absurd quote (by decide)

/-- Nor is there a match where no opening can end at the first quote. -/
theorem targets_of_no_opening (unquoted : Unquoted skipped) (quote : isQuote opens)
    (unopened : ∀ lead, lead <:+ skipped → rest ∉ form.opening.rests (lead ++ opens :: rest)) :
    form.targets (skipped ++ opens :: rest) = form.targets (opens :: rest) := by
  induction skipped with
  | nil => rfl
  | cons c tail ih =>
    have unquoted' : Unquoted tail := (List.forall_mem_cons.mp unquoted).2
    have later := ih unquoted' fun lead suffix => unopened lead (suffix.trans (List.suffix_cons c tail))
    rw [List.cons_append, ← later]
    refine targets_of_none (Option.eq_none_iff_forall_ne_some.mpr ?_)
    intro pair found
    obtain ⟨inside, opened, -⟩ := accepts_of_match? found
    obtain ⟨lead, first, same, unquotedLead, quote'⟩ := exists_lead_of_opening opened
    obtain ⟨-, rfl⟩ := unquoted.cut quote unquotedLead quote' same
    exact unopened _ (List.suffix_refl _) opened

end Form

end

/-- The word that starts a declaration stands before the word that ends its clause. -/
theorem infix_of_suffix_from {after gap : List Char}
    (suffix : "import".toList ++ gap <:+ after ++ " from ".toList) :
    "import".toList <:+: after := by
  obtain ⟨lead, same⟩ := suffix
  rcases List.append_eq_append_iff.mp same with ⟨between, rfl, split⟩ | ⟨between, rfl, split⟩
  · rcases List.append_eq_append_iff.mp split with ⟨left, rfl, split⟩ | ⟨left, split', split⟩
    · exact ⟨lead, left, by simp⟩
    · cases left with
      | nil => exact ⟨lead, [], by simpa using split'⟩
      | cons c tail =>
        obtain ⟨rfl, -⟩ : ' ' = c ∧ _ := by simpa using split
        have blank : ' ' ∈ "import".toList := by rw [split']; simp
        exact absurd blank (by decide)
  · have letter : 'i' ∈ " from ".toList := by rw [split]; simp
    exact absurd letter (by decide)

/-- A declaration that is spelled out: what precedes it, the clause, the target and what follows. -/
def declaration (before clause target after : String) : String :=
  before ++ "import " ++ clause ++ " from '" ++ target ++ "'" ++ after

/-- A declaration without a clause. -/
def bareDeclaration (before target after : String) : String :=
  before ++ "import '" ++ target ++ "'" ++ after

/-- A suffix without a character stands behind it. -/
theorem suffix_of_not_mem {s front back : List Char} {c : Char} (suffix : s <:+ front ++ c :: back)
    (absent : c ∉ s) : s <:+ back := by
  have tail : c :: back <:+ front ++ c :: back := List.suffix_append front (c :: back)
  rcases Nat.lt_or_ge back.length s.length with longer | shorter
  · have within := List.suffix_of_suffix_length_le tail suffix (Nat.succ_le_of_lt longer)
    exact absurd (within.subset List.mem_cons_self) absent
  · exact List.suffix_of_suffix_length_le suffix ((List.suffix_cons c back).trans tail) shorter

section

variable {before clause target after : String}

theorem targetsOf_declaration (unquoted : Unquoted before.toList)
    (written : IsImportClause clause.toList) (noDollar : '$' ∉ clause.toList)
    (nonempty : target ≠ "") (unquoted' : Unquoted target.toList) :
    targetsOf .static (declaration before clause target after) =
      target :: targetsOf .static after := by
  have inClass : ∀ c ∈ ' ' :: (clause.toList ++ " from ".toList), isClause c :=
    List.forall_mem_cons.mpr ⟨by decide, List.forall_mem_append.mpr
      ⟨written.isClause noDollar, fun c member => isClause_of_mem_from_word member⟩⟩
  have accepted : Form.static.Accepts
      ("import".toList ++ (' ' :: (clause.toList ++ " from ".toList) ++
        '\'' :: (target.toList ++ '\'' :: after.toList))) target.toList after.toList :=
    accepts_of_isGap (isGap_of_clause written.ne_nil) inClass rfl (by simpa using nonempty)
      unquoted' rfl
  have found := Form.targets_of_unquoted unquoted accepted
  have shape : (declaration before clause target after).toList = before.toList ++
      ("import".toList ++ (' ' :: (clause.toList ++ " from ".toList) ++
        '\'' :: (target.toList ++ '\'' :: after.toList))) := by
    simp [declaration]
  simp only [targetsOf, shape, found, List.map_cons, String.ofList_toList]

theorem targetsOf_bareDeclaration (unquoted : Unquoted before.toList) (nonempty : target ≠ "")
    (unquoted' : Unquoted target.toList) :
    targetsOf .static (bareDeclaration before target after) =
      target :: targetsOf .static after := by
  have blank : ∀ c ∈ [' '], Text.isBlank c :=
    List.forall_mem_singleton.mpr (by decide)
  have accepted : Form.static.Accepts
      ("import".toList ++ ([' '] ++ '\'' :: (target.toList ++ '\'' :: after.toList)))
      target.toList after.toList :=
    accepts_of_isGap (.inl ⟨List.cons_ne_nil ' ' [], blank⟩)
      (fun c member => isClause_of_isBlank (blank c member)) rfl (by simpa using nonempty)
      unquoted' rfl
  have found := Form.targets_of_unquoted unquoted accepted
  have shape : (bareDeclaration before target after).toList = before.toList ++
      ("import".toList ++ ([' '] ++ '\'' :: (target.toList ++ '\'' :: after.toList))) := by
    simp [bareDeclaration]
  simp only [targetsOf, shape, found, List.map_cons, String.ofList_toList]

/-- Where the word does not stand behind the last dollar sign of the clause, the declaration is
passed over, and the scan goes on inside its target. -/
theorem targetsOf_declaration_of_dollar {front back : List Char} (unquoted : Unquoted before.toList)
    (written : IsImportClause clause.toList) (dollar : clause.toList = front ++ '$' :: back)
    (alone : ¬ "import".toList <:+: back) :
    targetsOf .static (declaration before clause target after) =
      targetsOf .static (target ++ "'" ++ after) := by
  have passed : Unquoted (before.toList ++ "import ".toList ++ clause.toList ++ " from ".toList) :=
    List.forall_mem_append.mpr ⟨List.forall_mem_append.mpr ⟨List.forall_mem_append.mpr
      ⟨unquoted, List.all_eq_true.mp (by decide)⟩, written.unquoted⟩,
      List.all_eq_true.mp (by decide)⟩
  have shape : (declaration before clause target after).toList =
      (before.toList ++ "import ".toList ++ clause.toList ++ " from ".toList) ++
        '\'' :: (target ++ "'" ++ after).toList := by
    simp [declaration]
  have quote : isQuote '\'' := rfl
  suffices unopened : ∀ lead, lead <:+ before.toList ++ "import ".toList ++ clause.toList ++
      " from ".toList → (target ++ "'" ++ after).toList ∉
        Form.static.opening.rests (lead ++ '\'' :: (target ++ "'" ++ after).toList) by
    simp only [targetsOf, shape, Form.targets_of_no_opening passed quote unopened,
      Form.targets_of_isQuote quote]
  intro lead suffix opened
  obtain ⟨gap, opens, same, -, -, inClass⟩ := mem_rests_opening.mp opened
  rw [← List.append_assoc] at same
  obtain ⟨rfl, -⟩ := List.append_inj' same rfl
  rw [dollar] at suffix
  have absent : '$' ∉ "import".toList ++ gap := by
    intro member
    rcases List.mem_append.mp member with inWord | inGap
    · exact absurd inWord (by decide)
    · exact absurd (inClass '$' inGap) (by decide)
  have suffix : "import".toList ++ gap <:+ (before.toList ++ "import ".toList ++ front) ++
      '$' :: (back ++ " from ".toList) := by
    simpa only [List.append_assoc, List.cons_append] using suffix
  exact alone (infix_of_suffix_from (suffix_of_not_mem suffix absent))

/-- A text has this target first, then those of what follows it, and refers to its package. -/
structure NamesFirst (text target after : String) : Prop where
  targets : targetsOf .static text = target :: targetsOf .static after
  references : packageName target ≠ "" → packageName target ∈ references text

theorem NamesFirst.of_targets {text : String}
    (targets : targetsOf .static text = target :: targetsOf .static after) :
    NamesFirst text target after where
  targets := targets
  references := by
    intro named
    refine mem_references.mpr ⟨named, .static, target, ?_, rfl⟩
    rw [targets]
    exact List.mem_cons_self

/-- Behind a text without quotes a declaration names its target, whatever follows: always where it
has no clause, and with a clause of any kind in which there is no dollar sign. Where there is one,
and the word does not stand behind the last of them, the declaration names nothing. -/
theorem declaration_namesFirst (unquoted : Unquoted before.toList) (nonempty : target ≠ "")
    (unquoted' : Unquoted target.toList) :
    NamesFirst (bareDeclaration before target after) target after ∧
    ∀ clause : String, IsImportClause clause.toList →
      ('$' ∉ clause.toList → NamesFirst (declaration before clause target after) target after) ∧
      ∀ front back, clause.toList = front ++ '$' :: back → ¬ "import".toList <:+: back →
        targetsOf .static (declaration before clause target after) =
          targetsOf .static (target ++ "'" ++ after) := by
  refine ⟨.of_targets (targetsOf_bareDeclaration unquoted nonempty unquoted'), ?_⟩
  intro clause written
  refine ⟨?_, ?_⟩
  · intro noDollar
    exact .of_targets (targetsOf_declaration unquoted written noDollar nonempty unquoted')
  · intro front back dollar alone
    exact targetsOf_declaration_of_dollar unquoted written dollar alone

end

theorem isImportClause_of_named : IsImportClause "{ a, b as c }".toList := by
  have letter : ∀ c ∈ ['a', 'b', 'c'], IsIdentifier [c] := by
    intro c member
    have chars : ∀ c ∈ ['a', 'b', 'c'], c.isAlphanum ∧ c.isDigit = false := by
      simp only [List.forall_mem_cons, List.not_mem_nil, false_imp_iff, implies_true, and_true]
      decide
    exact ⟨List.cons_ne_nil _ _, by simp [chars c member], by simp [chars c member]⟩
  have blank : AllBlank [' '] := List.forall_mem_singleton.mpr (by decide)
  have unspaced : AllBlank [] := List.forall_mem_nil _
  have renamed := IsSpecifier.renamed (letter 'b' (by simp)) (List.cons_ne_nil ' ' []) blank
    (List.cons_ne_nil ' ' []) blank (letter 'c' (by simp))
  exact .binding (.named (.next blank (.plain (letter 'a' (by simp))) unspaced
    (.last blank renamed blank)))

theorem declaration_namesFirst_of_named :
    Unquoted "import old from ;".toList ∧ "@scope/pkg/lib" ≠ "" ∧ Unquoted "@scope/pkg/lib".toList ∧
      IsImportClause "{ a, b as c }".toList ∧ '$' ∉ "{ a, b as c }".toList ∧
      NamesFirst (declaration "import old from ;" "{ a, b as c }" "@scope/pkg/lib" "; import 'b'")
        "@scope/pkg/lib" "; import 'b'" := by
  have unquoted : Unquoted "import old from ;".toList :=
    List.all_eq_true.mp (by decide)
  have unquoted' : Unquoted "@scope/pkg/lib".toList := List.all_eq_true.mp (by decide)
  have noDollar : '$' ∉ "{ a, b as c }".toList := by decide
  refine ⟨unquoted, by decide, unquoted', isImportClause_of_named, noDollar, ?_⟩
  exact ((declaration_namesFirst unquoted (by decide) unquoted').2 _ isImportClause_of_named).1
    noDollar

/-- The dollar sign alone is a well-formed clause, and its declaration names nothing. -/
theorem not_namesFirst_of_dollar :
    IsImportClause "$".toList ∧ packageName "jquery" = "jquery" ∧
      targetsOf .static (declaration "" "$" "jquery" ";") = [] ∧
      references (declaration "" "$" "jquery" ";") = [] :=
  ⟨.default ⟨by decide, List.forall_mem_singleton.mpr (by decide),
    fun _ first => Option.some.inj first ▸ rfl⟩, by cbv, by decide +kernel, by decide +kernel⟩

end DependencyAudit.Import
