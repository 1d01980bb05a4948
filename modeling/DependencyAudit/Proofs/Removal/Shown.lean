import DependencyAudit.Proofs.Conversation.Printed
import DependencyAudit.Proofs.Path
import DependencyAudit.Proofs.Text.Digit
import DependencyAudit.Removal.Dialogue

namespace DependencyAudit.Removal

open Conversation Terminal
open Text (points)

section

variable [Platform] {console : Console} {manager : Manager} {unused packages : List Name}
  {markup : List Text.Point}

/-- Every line that lists the packages and how to pick them is printed, unless for their names. -/
theorem printedUnless_of_mem_choices (member : markup ∈ choices unused) :
    PrintedUnless console (unused.flatMap Name.points) markup := by
  simp only [choices, List.cons_append, List.mem_cons, List.mem_append, List.mem_map,
    List.not_mem_nil, or_false, exists_eq_or_imp, exists_eq_left] at member
  have own {line : List Text.Point} (printed : PrintedUnless console [] line) :
      PrintedUnless console (unused.flatMap Name.points) line := printed.mono (List.nil_subset _)
  rcases member with rfl | ⟨⟨name, number⟩, listed, rfl⟩ | rfl | rfl | rfl | rfl
  · exact own (.of_plain (by simpa [toString] using not_mem_number unused.length))
  · have inUnused := List.fst_mem_of_mem_zipIdx listed
    refine .of_name ("  " ++ toString number ++ ". ") "cyan" inUnused (by simp [points, toString])
      (opensStyle_own (by decide)) ⟨?_, ?_⟩
    · simpa [toString] using not_mem_number number
    · simpa [toString] using not_mem_backslash_number number
  · exact own (.of_ownWords "\n" "bold" "Select packages to remove:" "" (by decide +kernel)
      (opensStyle_own (by decide)) (by decide) (by decide) (by decide))
  · exact own (.of_plain (by decide))
  · exact own (.of_plain (by decide))
  · exact own (.of_plain (by decide))

theorem printedUnless_of_mem_picked (member : markup ∈ picked packages) :
    PrintedUnless console (packages.flatMap Name.points) markup := by
  simp only [picked, List.cons_append, List.mem_cons, List.mem_append, List.mem_map,
    List.not_mem_nil, or_false] at member
  rcases member with rfl | ⟨name, inPackages, rfl⟩ | rfl
  · exact (PrintedUnless.of_plain (by simpa [toString] using not_mem_number packages.length)).mono
      (List.nil_subset _)
  · exact .of_name "  • " "cyan" inPackages (by simp [points]) (opensStyle_own (by decide))
      (by decide)
  · exact (PrintedUnless.of_self []).mono (List.nil_subset _)

/-- The command line that removes packages is printed, unless for their names or its manager. -/
theorem printedUnless_running (plainManager : '[' ∉ manager.name.toList) :
    PrintedUnless console (packages.flatMap Name.points)
      (running (manager.removalCommand packages)) := by
  have between : Harmless console.stream [.char ' '] := harmless_points (s := " ") (by decide)
  have words : Harmless console.stream
      (((manager.name :: manager.uninstallWords).map Name.ofString).flatMap Name.points) := by
    refine .flatMap fun word inWords => ?_
    obtain ⟨text, isWord, rfl⟩ := List.mem_map.mp inWords
    refine harmless_points ?_
    rcases List.mem_cons.mp isWord with rfl | own
    · exact plainManager
    · cases manager <;> simp only [Manager.uninstallWords, List.mem_cons, List.not_mem_nil,
        or_false] at own <;> rcases own with rfl | rfl <;> decide
  have own : Harmless console.stream (points "Running:" ++ points " " ++ [.char ' '] ++
      ((manager.name :: manager.uninstallWords).map Name.ofString).flatMap Name.points ++
        points "\n") :=
    ((((harmless_points (by decide)).append (harmless_points (by decide))).append between).append
      words).append (harmless_points (by decide))
  refine .drop (.mono (.of_styled "" "dim" (points "Running:")
    (points " " ++ ([Text.Point.char ' '].intercalate ((manager.removalCommand packages).map
      Name.points) ++ points "\n")) (by simp [running, points]) (opensStyle_own (by decide))
    (by decide)) fun p member => ?_) own
  simp only [List.mem_append] at member ⊢
  rcases member with start | blank | inCommand | last
  · exact .inr (.inl (.inl (.inl (.inl start))))
  · exact .inr (.inl (.inl (.inl (.inr blank))))
  · rcases mem_or_of_mem_intercalate inCommand with blank | inWords
    · exact .inr (.inl (.inl (.inr blank)))
    · rw [Manager.removalCommand, List.map_append, List.flatten_append, List.mem_append,
        ← List.flatMap_def, ← List.flatMap_def] at inWords
      exact inWords.elim (fun inWord => .inr (.inl (.inr inWord))) .inl
  · exact .inr (.inr last)

/-- So they are all printed if the names are harmless. -/
theorem exists_paged_of_mem_choices (plain : ∀ name ∈ unused, Harmless console.stream name.points)
    (member : markup ∈ choices unused) : ∃ text, paged console markup = .ok text :=
  (printedUnless_of_mem_choices member).exists_text (.flatMap plain)

theorem exists_paged_of_mem_picked (plain : ∀ name ∈ packages, Harmless console.stream name.points)
    (member : markup ∈ picked packages) : ∃ text, paged console markup = .ok text :=
  (printedUnless_of_mem_picked member).exists_text (.flatMap plain)

theorem exists_paged_running (plainManager : '[' ∉ manager.name.toList)
    (plain : ∀ name ∈ packages, Harmless console.stream name.points) :
    ∃ text, paged console (running (manager.removalCommand packages)) = .ok text :=
  (printedUnless_running plainManager).exists_text (.flatMap plain)

end

/-- What a warning has after the part that it tells of. -/
def warningEnd (count : Nat) : List Char :=
  "\" (must be 1-".toList ++ (toString count).toList ++ ")".toList

theorem plain_warningEnd (count : Nat) :
    ∀ c ∈ warningEnd count, c ≠ '[' ∧ c ≠ '\\' ∧ c ≠ ']' ∧ c ≠ '\n' := by
  have before : ∀ c ∈ "\" (must be 1-".toList, c ≠ '[' ∧ c ≠ '\\' ∧ c ≠ ']' ∧ c ≠ '\n' := by decide
  have after : ∀ c ∈ ")".toList, c ≠ '[' ∧ c ≠ '\\' ∧ c ≠ ']' ∧ c ≠ '\n' := by decide
  intro c member
  rcases List.mem_append.mp member with inside | atEnd
  · rcases List.mem_append.mp inside with atStart | inNumber
    · exact before c atStart
    · rw [Nat.toString_eq_repr, Nat.toList_repr] at inNumber
      have digit := Nat.isDigit_of_mem_toDigits (by omega) (by omega) inNumber
      refine ⟨?_, ?_, ?_, ?_⟩ <;> rintro rfl <;> cases digit
  · exact after c atEnd

theorem warning_eq (count : Nat) (token : String) : warning count token =
    "[yellow]Warning:[/] Invalid selection \"" ++ token ++ "\" (must be 1-" ++ toString count ++
      ")" := rfl

theorem toList_warning (count : Nat) (token : String) : (warning count token).toList =
    '[' :: ("yellow".toList ++ ']' :: ("Warning:".toList ++ '[' :: '/' :: ']' ::
      (" Invalid selection \"".toList ++ (token.toList ++ warningEnd count)))) := by
  have start : "[yellow]Warning:[/] Invalid selection \"".toList =
      '[' :: ("yellow".toList ++ ']' :: ("Warning:".toList ++ '[' :: '/' :: ']' ::
        " Invalid selection \"".toList)) := by decide
  unfold warningEnd
  simp only [warning_eq, String.toList_append, start, List.append_assoc, List.cons_append]

theorem exists_page_warning [Platform] (count : Nat) {token : String} (plain : '[' ∉ token.toList)
    (width : Nat) : ∃ text, Terminal.page width (warning count token) = .ok text := by
  have plainAfter : '[' ∉ " Invalid selection \"".toList ++ (token.toList ++ warningEnd count) := by
    simp only [List.mem_append, not_or]
    exact ⟨by decide, plain, fun member => (plain_warningEnd count _ member).1 rfl⟩
  exact exists_page_of_styled [] "yellow".toList "Warning:".toList _ (toList_warning count token)
    (opensStyle_own (by decide)) (by decide) (by decide) plainAfter width

section

variable [Platform]

/-- Whatever has been removed, it is told. -/
theorem exists_page_removed (count width : Nat) :
    ∃ text, Terminal.page width s!"\n[green]✓[/] Successfully removed {count} package(s)" =
      .ok text :=
  exists_page_of_styled ['\n'] "green".toList ['✓']
    (" Successfully removed ".toList ++ (toString count).toList ++ " package(s)".toList)
    (by simp [toString]) (opensStyle_own (by decide)) (by decide) (by decide)
    (by simpa [toString] using not_mem_number count) width

/-- The questions of a session are shown, and so is what is said without any names in it. -/
theorem exists_inline_choice (width : Nat) :
    ∃ text, Terminal.inline width "[bold]Your choice[/]: " = .ok text :=
  exists_inline_of_prints (prints_styled [] "bold".toList "Your choice".toList
    ": ".toList (by decide) (opensStyle_own (by decide)) (by decide) (by decide) (by decide)) width

theorem exists_inline_proceed (width : Nat) :
    ∃ text, Terminal.inline width "[bold]Proceed?[/] (y/N): " = .ok text :=
  exists_inline_of_prints (prints_styled [] "bold".toList "Proceed?".toList
    " (y/N): ".toList (by decide) (opensStyle_own (by decide)) (by decide) (by decide) (by decide))
    width

theorem exists_page_complaint (width : Nat) :
    ∃ text, Terminal.page width "Please enter Y or N" = .ok text :=
  exists_page_of_plain (by decide) width

theorem exists_page_cancelled (width : Nat) :
    ∃ text, Terminal.page width "\n[yellow]Cancelled.[/] No packages removed." = .ok text :=
  exists_page_of_styled ['\n'] "yellow".toList "Cancelled.".toList " No packages removed.".toList
    (by decide) (opensStyle_own (by decide)) (by decide) (by decide) (by decide) width

theorem exists_page_nothing (width : Nat) :
    ∃ text, Terminal.page width "[green]✓[/] No unused dependencies to remove!" = .ok text :=
  exists_page_of_styled [] "green".toList ['✓'] " No unused dependencies to remove!".toList
    (by decide) (opensStyle_own (by decide)) (by decide) (by decide) (by decide) width

end

end DependencyAudit.Removal
