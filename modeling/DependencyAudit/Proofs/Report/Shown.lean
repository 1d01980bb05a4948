import DependencyAudit.Proofs.Conversation.Printed
import DependencyAudit.Report.Summary

namespace DependencyAudit.Report

open Conversation Terminal
open Text (points)

variable {result : Result} {statistics : Statistics}

/-- Every line of the listing is printed, unless for the names of the unused packages. -/
theorem printedUnless_of_mem_listing [Platform] {console : Console} {markup : List Text.Point}
    (member : markup ∈ listing result) :
    PrintedUnless console (result.unused.flatMap Name.points) markup := by
  unfold listing at member
  split at member
  next =>
    obtain rfl := List.mem_singleton.mp member
    exact (PrintedUnless.of_ownWords "" "bold green" "✓" " No unused dependencies found!"
      (by decide +kernel) (opensStyle_own (by decide)) (by decide) (by decide)
      (by decide)).mono (List.nil_subset _)
  next =>
    simp only [List.cons_append, List.mem_cons, List.mem_append, List.mem_map, List.not_mem_nil,
      or_false] at member
    rcases member with rfl | ⟨name, unused, rfl⟩ | rfl
    · refine (PrintedUnless.of_ownWords "Found " "bold red" (toString result.unused.length)
        " unused dependencies:\n" ?_ (opensStyle_own (by decide)) (by decide) (not_mem_number _)
        (by decide)).mono (List.nil_subset _)
      have lead : points "Found [bold red]" =
          points "Found " ++ points "[" ++ points "bold red" ++ points "]" := rfl
      have trail : points "[/] unused dependencies:\n" =
          points "[/]" ++ points " unused dependencies:\n" := rfl
      rw [List.append_assoc, ← trail, ← lead, ← Text.points_append, ← Text.points_append]
      rfl
    · exact .of_name "  - " "red" unused (by simp [points]) (opensStyle_own (by decide))
        (by decide)
    · refine (PrintedUnless.of_plain ?_).mono (List.nil_subset _)
      have numbers := And.intro (not_mem_number result.unused.length) (not_mem_number result.total)
      simpa [toString] using numbers

/-- The cells of the summary are shown if the paths of the directories that were skipped are. -/
theorem prints_of_mem_rows [Platform] (plain : ∀ path ∈ statistics.skipped, '[' ∉ path.toList)
    {row : Row} (member : row ∈ rows result statistics) :
    Prints row.1.toList ∧ Prints row.2.toList := by
  have number : ∀ n : Nat, Prints (toString n).toList := fun n =>
    prints_of_not_mem (not_mem_number n)
  have label : ∀ text : String, '[' ∉ text.toList → Prints text.toList := fun _ =>
    prints_of_not_mem
  unfold rows at member
  rcases List.mem_append.mp member with counts | unreadable
  · simp only [List.mem_cons, List.not_mem_nil, or_false] at counts
    rcases counts with rfl | rfl | rfl | rfl | rfl
    · exact ⟨label "Files scanned" (by decide), number _⟩
    · exact ⟨label "References found" (by decide), number _⟩
    · exact ⟨label "Declared dependencies" (by decide), number _⟩
    · exact ⟨label "  used" (by decide), prints_styled [] "green".toList
        (toString result.used.length).toList [] (by simp [toString]) (opensStyle_own (by decide))
        (by decide) (not_mem_number _) (by simp)⟩
    · exact ⟨label "  unused" (by decide), prints_styled [] "red".toList
        (toString result.unused.length).toList [] (by simp [toString]) (opensStyle_own (by decide))
        (by decide) (not_mem_number _) (by simp)⟩
  · split at unreadable
    next => cases unreadable
    simp only [List.mem_append, List.mem_cons, List.mem_map, List.not_mem_nil, or_false]
      at unreadable
    rcases unreadable with (rfl | rfl) | ⟨path, skipped, rfl⟩
    · exact ⟨label "" (by decide), label _ (by decide)⟩
    · exact ⟨label "Unreadable directories" (by decide), number _⟩
    · exact ⟨label "" (by decide), prints_styled [] "dim".toList path.toList []
        (by simp [toString]) (opensStyle_own (by decide)) (by decide) (plain path skipped) (by simp)⟩

/-- So the summary as a whole is shown, however wide the terminal is. -/
theorem exists_summary_of_plain [Platform] (plain : ∀ path ∈ statistics.skipped, '[' ∉ path.toList)
    (width : Nat) : ∃ text, summary width result statistics = .ok text := by
  have cells : ∀ row ∈ rows result statistics, ∃ key value,
      shownCell row.1 = .ok key ∧ shownCell row.2 = .ok value := by
    intro row member
    obtain ⟨keyPrints, valuePrints⟩ := prints_of_mem_rows plain member
    obtain ⟨key, shows⟩ := keyPrints.accepts 0
    obtain ⟨value, shows'⟩ := valuePrints.accepts 0
    exact ⟨key, value, shows, shows'⟩
  have drawn : drawnFault? width ((rows result statistics).flatMap fun row =>
      [row.1.toList, row.2.toList]) = none := by
    refine drawnFault?_of_drawn (fun s member => ?_) width
    obtain ⟨row, inRows, inRow⟩ := List.mem_flatMap.mp member
    obtain ⟨keyPrints, valuePrints⟩ := prints_of_mem_rows plain inRows
    rcases List.mem_cons.mp inRow with rfl | inRow
    · exact keyPrints.drawn
    · exact List.mem_singleton.mp inRow ▸ valuePrints.drawn
  cases made : summary width result statistics with
  | ok text => exact ⟨text, rfl⟩
  | error fault =>
    rcases Except.bind_eq_error_iff.mp made with refused | ⟨_, -, laid⟩
    · obtain ⟨row, member, fails⟩ := Except.exists_error_of_mapM refused
      obtain ⟨key, value, shows, shows'⟩ := cells row member
      dsimp only at fails
      rw [shows, shows'] at fails
      cases fails
    · dsimp only at laid
      rw [drawn] at laid
      cases laid

end DependencyAudit.Report
