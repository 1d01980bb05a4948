import DependencyAudit.Proofs.Analysis.Growing
import DependencyAudit.Proofs.Import.Appending
import DependencyAudit.Proofs.Import.Package

namespace DependencyAudit

namespace Import

variable {form : Form} {s target : List Char}

/-- The text holds the part right behind a quote, and right before another one or before a slash. -/
def HoldsQuoted (s part : List Char) : Prop :=
  ∃ before opens ends after, s = before ++ opens :: (part ++ ends :: after) ∧
    isQuote opens ∧ (isQuote ends ∨ ends = '/')

/-- A target stands in the text between quotes, and has none in it. -/
theorem Form.exists_quotes_of_mem_targets (named : target ∈ form.targets s) :
    Unquoted target ∧ ∃ before opens closes after,
      s = before ++ opens :: (target ++ closes :: after) ∧ isQuote opens ∧ isQuote closes := by
  obtain ⟨skipped, later, rest, rfl, accepted⟩ := exists_suffix_of_mem_targets named
  obtain ⟨lead, opens, closes, rfl, -, quote, unquoted, quote'⟩ := accepted.quotes
  exact ⟨unquoted, skipped ++ lead, opens, closes, form.ending ++ rest,
    (List.append_assoc _ _ _).symm, quote, quote'⟩

/-- What leads a target stands in the text where the target does: behind it comes the slash with which
the target goes on, or the quote that closes the target. -/
theorem Form.holdsQuoted_of_leads {part : List Char} (named : target ∈ form.targets s)
    (leads : Leads part target) : HoldsQuoted s part := by
  obtain ⟨-, before, opens, closes, after, rfl, quote, quote'⟩ := exists_quotes_of_mem_targets named
  obtain ⟨rest, rfl, goesOn⟩ := leads
  cases rest with
  | nil => exact ⟨before, opens, closes, after, by rw [List.append_nil], quote, .inl quote'⟩
  | cons slash more =>
    have same : slash = '/' := goesOn slash rfl
    exact ⟨before, opens, slash, more ++ closes :: after, by simp, quote, .inr same⟩

/-- A name that a text refers to, and how the text holds it. -/
structure Literal (text name : String) : Prop where
  shape : IsPackageName name.toList
  unquoted : Unquoted name.toList
  written : HoldsQuoted text.toList name.toList

theorem literal_of_mem_references {text name : String} (referred : name ∈ references text) :
    Literal text name := by
  obtain ⟨isName, form, written, found, rfl⟩ := mem_references.mp referred
  obtain ⟨target, named, rfl⟩ := List.mem_map.mp found
  rw [packageName, String.toList_ofList] at isName ⊢
  have nonempty : packagePart target ≠ [] := fun empty => isName (by rw [empty])
  have leads := leads_packagePart nonempty
  constructor
  case shape =>
    rw [String.toList_ofList]
    exact isPackageName_packagePart nonempty
  case unquoted =>
    obtain ⟨rest, whole, -⟩ := leads
    rw [String.toList_ofList]
    intro c member
    refine (Form.exists_quotes_of_mem_targets named).1 c ?_
    rw [whole]
    exact List.mem_append_left rest member
  case written =>
    rw [String.toList_ofList]
    exact Form.holdsQuoted_of_leads named leads

end Import

/-- Every reference of a text is a package name that the text holds in quotes, so what an analysis
finds in use stands in quotes in a file that it has scanned. -/
theorem references_literal :
    (∀ text, ∀ name ∈ Import.references text, Import.Literal text name) ∧
      ∀ (a : Analyzer) view result statistics, a.analyze view = .ok (result, statistics) →
        ∀ name ∈ result.used, ∃ reference, name = .ofString reference ∧
          ∃ path ∈ (a.scan view).found.files, ∃ text,
            view.read path = .ok text ∧ Import.Literal text reference := by
  refine ⟨fun text name => Import.literal_of_mem_references, ?_⟩
  intro a view result statistics analyzed name used
  have reconciles := Analyzer.reconciles_of_analyze analyzed
  obtain ⟨-, path, scanned, text, read, reference, referred, named⟩ :=
    (reconciles.mem_used name).mp used
  exact ⟨reference, named, path, scanned, text, read, Import.literal_of_mem_references referred⟩

/-- The name of a scoped package, of which a module is imported, and that of a package in use. -/
theorem references_literal_of_scope :
    ("@scope/name" ∈ Import.references "import x from '@scope/name/part'" ∧
      Import.Literal "import x from '@scope/name/part'" "@scope/name") ∧
    twoPackages.analyze twoSources.view = .ok (⟨["left-pad"], ["react"], 2⟩, ⟨2, 1, []⟩) ∧
      ∃ path ∈ (twoPackages.scan twoSources.view).found.files, ∃ text,
        twoSources.view.read path = .ok text ∧ Import.Literal text "left-pad" := by
  have referred : "@scope/name" ∈ Import.references "import x from '@scope/name/part'" := by
    decide +kernel
  obtain ⟨reference, named, path, scanned, text, read, literal⟩ :=
    references_literal.2 _ _ _ _ analyze_twoSources _ (List.mem_singleton_self _)
  obtain rfl := Name.ofString_injective named
  exact ⟨⟨referred, references_literal.1 _ _ referred⟩, analyze_twoSources,
    path, scanned, text, read, literal⟩

end DependencyAudit
