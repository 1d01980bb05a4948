import DependencyAudit.Proofs.Import.Appending
import Mathlib.Data.List.Infix

namespace DependencyAudit.Import

/-- A character that a match can have in its target only. -/
structure Separates (c : Char) : Prop where
  not_inLead : ¬ InLead c
  not_isQuote : isQuote c = false
  ne_paren : c ≠ ')'

theorem Separates.ne_of_isQuote {c quote : Char} (separates : Separates c) (isQuote : isQuote quote) :
    c ≠ quote := by
  rintro rfl
  rw [separates.not_isQuote] at isQuote
  cases isQuote

theorem Separates.not_mem_ending {c : Char} (separates : Separates c) (form : Form) :
    c ∉ form.ending := by
  cases form <;> simp [Form.ending, separates.ne_paren]

theorem separates_semicolon : Separates ';' where
  not_inLead := by
    rintro (inClause | other)
    · exact absurd inClause (by decide)
    · exact absurd other (by decide)
  not_isQuote := rfl
  ne_paren := by decide

/-- What comes before a character starts with all that comes before it and does not have it. -/
theorem exists_eq_append_of_not_mem {α : Type} {front back s more : List α} {c : α}
    (absent : c ∉ front) (same : front ++ back = s ++ c :: more) :
    ∃ left, s = front ++ left ∧ back = left ++ c :: more := by
  rcases List.append_eq_append_iff.mp same with ⟨left, rfl, shape⟩ | ⟨left, rfl, shape⟩
  · exact ⟨left, rfl, shape⟩
  · cases left with
    | nil => exact ⟨[], by simp, by simpa using shape.symm⟩
    | cons first left =>
      obtain ⟨rfl, -⟩ := List.cons.inj shape
      simp at absent

namespace Form

variable {form : Form} {s more target rest : List Char} {c : Char}

/-- The text ends within an import: behind an opening of the form, up to and including its quote,
there is no other quote. -/
def Unfinished (form : Form) (s : List Char) : Prop :=
  ∃ before opening inside, s = before ++ (opening ++ inside) ∧
    [] ∈ form.opening.rests opening ∧ Unquoted inside

theorem Unfinished.of_suffix {later : List Char} (unfinished : form.Unfinished later)
    (suffix : later <:+ s) : form.Unfinished s := by
  obtain ⟨before, opening, inside, rfl, opened, unquoted⟩ := unfinished
  obtain ⟨skipped, rfl⟩ := suffix
  exact ⟨skipped ++ before, opening, inside, by rw [List.append_assoc], opened, unquoted⟩

theorem mem_rests_opening_append {opening inside : List Char} :
    inside ∈ form.opening.rests (opening ++ inside) ↔ [] ∈ form.opening.rests opening := by
  change [] ++ inside ∈ _ ↔ _
  exact Regex.mem_rests_append_right (isLocal_opening form)

/-- Whether a text is unfinished is seen by going through the openings at each of its positions. -/
theorem unfinished_iff : form.Unfinished s ↔
    ∃ later ∈ s.tails, ∃ inside ∈ form.opening.rests later, inside.all (!isQuote ·) := by
  constructor
  · intro unfinished
    obtain ⟨before, opening, inside, rfl, opened, unquoted⟩ := unfinished
    exact ⟨opening ++ inside, (List.mem_tails _ _).mpr (List.suffix_append _ _), inside,
      mem_rests_opening_append.mpr opened, List.all_eq_true.mpr unquoted⟩
  · intro holds
    obtain ⟨later, tail, inside, opened, unquoted⟩ := holds
    obtain ⟨before, rfl⟩ := (List.mem_tails _ _).mp tail
    obtain ⟨opening, rfl⟩ := Regex.suffix_of_mem_rests opened
    exact ⟨before, opening, inside, rfl, mem_rests_opening_append.mp opened,
      List.all_eq_true.mp unquoted⟩

instance (form : Form) (s : List Char) : Decidable (form.Unfinished s) :=
  decidable_of_iff _ unfinished_iff.symm

/-- A match that starts in a text ends in it, if a separator follows and the text does not end within
an import. -/
theorem Accepts.exists_rest (accepted : form.Accepts (s ++ c :: more) target rest)
    (separates : Separates c) (finished : ¬ form.Unfinished s) :
    ∃ left, rest = left ++ c :: more := by
  obtain ⟨inside, opened, after, taken, rfl, closed⟩ := accepted
  obtain ⟨lead, opens, same, inLead, quote⟩ := exists_inLead_of_opening opened
  obtain ⟨run, -, same', unquoted⟩ := Regex.mem_rests_atLeastOne.mp taken
  obtain ⟨closes, rfl, quote'⟩ := mem_rests_closing.mp closed
  obtain rfl : target = run := List.append_cancel_right same'
  have same : lead ++ [opens] ++ (target ++ closes :: (form.ending ++ rest)) = s ++ c :: more := by
    rw [same, List.append_assoc, List.singleton_append]
  have afterOpening : c ∉ lead ++ [opens] := by
    rw [List.mem_append, List.mem_singleton, not_or]
    exact ⟨fun member => separates.not_inLead (inLead c member), separates.ne_of_isQuote quote⟩
  obtain ⟨begun, rfl, shape⟩ := exists_eq_append_of_not_mem afterOpening same
  rw [← same] at opened
  have wholly := mem_rests_opening_append.mp opened
  rcases List.append_eq_append_iff.mp shape with ⟨between, rfl, closing⟩ | ⟨between, rfl, -⟩
  · have afterClosing : c ∉ closes :: form.ending := by
      rw [List.mem_cons, not_or]
      exact ⟨separates.ne_of_isQuote quote', separates.not_mem_ending form⟩
    obtain ⟨left, -, rfl⟩ := exists_eq_append_of_not_mem afterClosing closing
    exact ⟨left, rfl⟩
  · -- The separator is in the target, so the text ends behind the opening.
    have unquoted : Unquoted begun := fun c member => unquoted c (List.mem_append_left _ member)
    exact absurd ⟨[], _, begun, rfl, wholly, unquoted⟩ finished

theorem targets_append_cons (separates : Separates c) (finished : ¬ form.Unfinished s) :
    form.targets (s ++ c :: more) = form.targets s ++ form.targets more := by
  induction s using Form.targets.induct form with
  | case1 =>
    -- Only the separator and what follows it are left, and no match starts with a separator.
    rw [targets_nil]
    refine targets_of_none (Option.eq_none_iff_forall_ne_some.mpr ?_)
    intro pair found
    obtain ⟨left, same⟩ := Accepts.exists_rest (accepts_of_match? found) separates finished
    have less := length_lt_of_match? found
    rw [same, List.length_append] at less
    omega
  | case2 d tail target rest found ih =>
    have again : form.match? (d :: tail ++ c :: more) = some (target, rest ++ c :: more) :=
      match?_append_iff.mpr found
    have later := ih fun unfinished => finished (unfinished.of_suffix (suffix_of_match? found))
    rw [targets_of_match? found, targets_of_match? again, later, List.cons_append]
  | case3 d tail nothing ih =>
    -- A match of the longer text would end before the separator, so it would be one of the shorter.
    have nothing' : form.match? (d :: (tail ++ c :: more)) = none := by
      refine Option.eq_none_iff_forall_ne_some.mpr ?_
      intro pair found
      obtain ⟨target, rest⟩ := pair
      have accepted : form.Accepts (d :: tail ++ c :: more) target rest := accepts_of_match? found
      obtain ⟨left, rfl⟩ := accepted.exists_rest separates finished
      rw [← List.cons_append, match?_append_iff, nothing] at found
      cases found
    have later := ih fun unfinished => finished (unfinished.of_suffix (List.suffix_cons d tail))
    rw [targets_of_none nothing, List.cons_append, targets_of_none nothing', later]

end Form

section

variable {form : Form} {text more : String}

theorem targetsOf_append (finished : ¬ form.Unfinished text.toList) (more : String) :
    targetsOf form (text ++ ";" ++ more) = targetsOf form text ++ targetsOf form more := by
  have shape : (text ++ ";" ++ more).toList = text.toList ++ ';' :: more.toList := by
    rw [String.toList_append, String.toList_append, List.append_assoc]
    rfl
  unfold targetsOf
  rw [shape, Form.targets_append_cons separates_semicolon finished, List.map_append]

/-- However many statements there are, a text names what each of them names. -/
theorem targetsOf_intercalate {statements : List String}
    (finished : ∀ statement ∈ statements, ¬ form.Unfinished statement.toList) :
    targetsOf form (String.intercalate ";" statements) = statements.flatMap (targetsOf form) := by
  induction statements with
  | nil => simp [targetsOf, Form.targets_nil]
  | cons first rest ih =>
    obtain ⟨here, later⟩ := List.forall_mem_cons.mp finished
    cases rest with
    | nil => simp
    | cons second rest =>
      rw [String.intercalate_cons_cons, targetsOf_append here, ih later]
      exact List.flatMap_cons.symm

/-- A text that does not end within an import keeps its targets to itself: with a semicolon between
them, two texts name what the first one names and then what the second one names. -/
theorem statements_apart (finished : ∀ form : Form, ¬ form.Unfinished text.toList) (more : String) :
    (∀ form, targetsOf form (text ++ ";" ++ more) = targetsOf form text ++ targetsOf form more) ∧
      ∀ name, name ∈ references (text ++ ";" ++ more) ↔
        name ∈ references text ∨ name ∈ references more := by
  have apart : ∀ form, targetsOf form (text ++ ";" ++ more) =
      targetsOf form text ++ targetsOf form more :=
    fun form => targetsOf_append (finished form) more
  refine ⟨apart, fun name => ?_⟩
  simp only [mem_references, apart, List.mem_append, or_and_right, exists_or, and_or_left]

/-- A single quote that opens nothing does no harm. -/
theorem statements_apart_of_loneQuote :
    (∀ form : Form, ¬ form.Unfinished "don't; import 'left-pad'".toList) ∧
      targetsOf .static ("don't; import 'left-pad'" ++ ";" ++ "import \"react\"") =
        ["left-pad", "react"] := by
  have finished : ∀ form : Form, ¬ form.Unfinished "don't; import 'left-pad'".toList := by
    intro form
    cases form <;> decide +kernel
  refine ⟨finished, ?_⟩
  have first : targetsOf .static "don't; import 'left-pad'" = ["left-pad"] := by decide +kernel
  have second : targetsOf .static "import \"react\"" = ["react"] := by decide +kernel
  rw [(statements_apart finished "import \"react\"").1, first, second]
  rfl

end

end DependencyAudit.Import
