import DependencyAudit.Proofs.Except
import DependencyAudit.Proofs.Exclusion.Lines
import DependencyAudit.Proofs.FileSystem.Names

namespace DependencyAudit

namespace Exclusion

theorem Matcher.matches_fromStart_iff {r : Regex} {s : List Char} :
    (fromStart r).matches s = true ↔ ∃ rest, rest ∈ r.rests s := by
  rw [Matcher.matches, Regex.matchesStart, Option.isSome_iff_exists, Regex.exists_first_iff]
  simp

section

variable {below : List String} {s : List Char}

theorem Matcher.matches_below {directoryOnly : Bool} {segments : List Segment} {matcher : Matcher}
    (built : matcherOf? directoryOnly segments = some matcher)
    (plain : ∀ segment ∈ segments, segment.IsPlain) (last : segments.getLast? ≠ some (.glob []))
    (reaches : ReachesBelow segments) (ends : EndsInSlash s) (oneLine : '\n' ∉ s ++ pathText below)
    (someBelow : below ≠ []) (areNames : ∀ n ∈ below, n ≠ "" ∧ '/' ∉ n.toList)
    (found : matcher.matches s = true) : matcher.matches (s ++ pathText below) = true := by
  have anywhere : ∀ {admits : Char → Bool}, (Matcher.anywhere admits).matches s = true →
      (Matcher.anywhere admits).matches (s ++ pathText below) = true := by
    intro admits found
    rw [Matcher.matches] at found ⊢
    rw [List.any_append, found, Bool.true_or]
  unfold matcherOf? at built
  split at built
  · cases built
    exact anywhere found
  · cases built
    exact anywhere found
  · cases built
    exact anywhere found
  · obtain ⟨r, isRegex, rfl⟩ := Option.map_eq_some_iff.mp built
    rw [matches_fromStart_iff] at found ⊢
    exact exists_rests_below isRegex plain last reaches ends oneLine someBelow areNames found

/-- What a pattern is made of whose line begins with no mark of negation. -/
theorem Pattern.exists_segments {line : String} {p : Pattern}
    (positive : line.toList.head? ≠ some '!') (read : Pattern.ofLine? line = .ok (some p)) :
    line.toList.head? ≠ some '#' ∧ p.excludes = true ∧ ∃ directoryOnly segments,
      (segmentTexts line).mapM Segment.ofText? = some segments ∧
        matcherOf? directoryOnly (collapse segments) = some p.matcher := by
  unfold Pattern.ofLine? at read
  split at read
  · cases read
  · cases read
  next notEmpty notComment =>
    have head := head?_withoutTrailingBlanks notEmpty
    have unsigned : sign (withoutTrailingBlanks line.toList) =
        (true, withoutTrailingBlanks line.toList) := by
      unfold sign
      split
      next rest shape => exact absurd (by rw [← head, shape]; rfl) positive
      · rfl
    rw [unsigned] at read
    dsimp only at read
    split at read
    · cases read
    · cases read
    next segments _ written =>
      split at read
      next matcher built =>
        cases read
        refine ⟨fun comment => ?_, rfl, _, segments, written, built⟩
        rw [← head] at comment
        obtain ⟨rest, shape⟩ := List.head?_eq_some_iff.mp comment
        exact notComment rest shape
      · cases read

/-- The pattern of a line that reaches down matches with a directory every path below it. -/
theorem Pattern.matches_below {line : String} {p : Pattern} (reaches : ReachesDown line)
    (read : Pattern.ofLine? line = .ok (some p)) (ends : EndsInSlash s)
    (oneLine : '\n' ∉ s ++ pathText below) (someBelow : below ≠ [])
    (areNames : ∀ n ∈ below, n ≠ "" ∧ '/' ∉ n.toList) (found : p.matcher.matches s = true) :
    p.matcher.matches (s ++ pathText below) = true := by
  obtain ⟨notComment, -, _, segments, written, built⟩ := exists_segments reaches.positive read
  exact Matcher.matches_below built (isPlain_of_mem_collapse reaches.noBracket written)
    (getLast?_collapse_ne written) (reachesBelow_of_not_stopsShort reaches.ends notComment written)
    ends oneLine someBelow areNames found

end

/-- The text of a directory is empty or ends in a slash. -/
theorem endsInSlash_textOf (names : List String) : EndsInSlash (Excluder.textOf names true) := by
  intro before c same
  unfold Excluder.textOf at same
  split at same
  · simp at same
  · simp only [if_true] at same
    exact (List.singleton_inj.mp (List.append_inj_right' same rfl)).symm

/-- The text of a path below a directory is the directory's own and what leads on from it. -/
theorem textOf_append {below : List String} (nonempty : below ≠ []) (names : List String) :
    Excluder.textOf (names ++ below) false = Excluder.textOf names true ++ pathText below := by
  unfold Excluder.textOf
  by_cases empty : names = []
  · simp [empty, nonempty, pathText]
  · have whole := pathText_append empty nonempty
    unfold pathText at whole
    simp [empty, whole, pathText]

theorem mem_patternsOf {lines : List String} {patterns : List Pattern}
    (read : patternsOf lines = .ok patterns) {p : Pattern} (member : p ∈ patterns) :
    ∃ line ∈ lines, Pattern.ofLine? line = .ok (some p) := by
  obtain ⟨found, all, same⟩ := Except.bind_eq_ok_iff.mp read
  cases same
  obtain ⟨other, inFound, same⟩ := List.mem_filterMap.mp member
  change other = some p at same
  exact Except.exists_of_mem_mapM all (same ▸ inFound)

theorem exists_fault_of_patternsOf {lines : List String} {fault : Fault}
    (refused : patternsOf lines = .error fault) :
    ∃ line ∈ lines, Pattern.ofLine? line = .error fault := by
  rcases Except.bind_eq_error_iff.mp refused with failed | ⟨_, -, made⟩
  · exact Except.exists_error_of_mapM failed
  · cases made

/-- An excluder is refused only for a line that is no pattern. -/
theorem Excluder.exists_fault_of_ofLines {root : Path} {settings commandLine : List String}
    {fault : Fault} (refused : ofLines root settings commandLine = .error fault) :
    ∃ line ∈ settings ++ commandLine, Pattern.ofLine? line = .error fault := by
  rcases Except.bind_eq_error_iff.mp refused with failed | ⟨_, -, made⟩
  · exact exists_fault_of_patternsOf failed
  · cases made

/-- Patterns that all exclude decide a path if one of them matches it. -/
theorem decision_getD_eq_true_iff {patterns : List Pattern} {s : List Char}
    (positive : ∀ p ∈ patterns, p.excludes = true) :
    (decision patterns s).getD false = true ↔ ∃ p ∈ patterns, p.matcher.matches s = true := by
  unfold decision
  cases found : patterns.reverse.find? fun p => p.matcher.matches s with
  | none =>
    simp only [Option.map_none, Option.getD_none, Bool.false_eq_true, false_iff]
    intro ⟨p, member, holds⟩
    have fails := List.find?_eq_none.mp found p (List.mem_reverse.mpr member)
    exact fails holds
  | some p =>
    have member := List.mem_reverse.mp (List.mem_of_find?_eq_some found)
    have holds := List.find?_some found
    simp only [Option.map_some, Option.getD_some, positive p member, true_iff]
    exact ⟨p, member, holds⟩

/-- An excluder of lines that reach down leaves out what is below a directory that it leaves out. -/
theorem Excluder.excludes_below {root : Path} {settings commandLine : List String} {e : Excluder}
    (made : ofLines root settings commandLine = .ok e)
    (reach : ∀ line ∈ settings ++ commandLine, ReachesDown line) {directory : Path}
    (oneLine : FileSystem.OneLineFrom root directory)
    {below : List String} (someBelow : below ≠ []) (areNames : ∀ n ∈ below, FileSystem.IsName n)
    (excluded : e.excludes directory true = true) :
    e.excludes ⟨directory.anchor, directory.names ++ below⟩ false = true := by
  obtain ⟨patterns, read, same⟩ := Except.bind_eq_ok_iff.mp made
  cases same
  have positive : ∀ p ∈ patterns, p.excludes = true := by
    intro p member
    obtain ⟨line, inLines, isPattern⟩ := mem_patternsOf read member
    exact (Pattern.exists_segments (reach line inLines).positive isPattern).2.1
  cases leads : directory.relativeTo? root with
  | none =>
    rw [excludes, leads] at excluded
    cases excluded
  | some names =>
    have isBelow : Path.relativeTo? ⟨directory.anchor, directory.names ++ below⟩ root =
        some (names ++ below) := by
      rw [Path.relativeTo?_eq_some_iff] at leads ⊢
      rw [leads, List.append_assoc]
    rw [excludes, leads] at excluded
    rw [excludes, isBelow]
    rw [decision_getD_eq_true_iff positive] at excluded ⊢
    obtain ⟨p, member, found⟩ := excluded
    obtain ⟨line, inLines, isPattern⟩ := mem_patternsOf read member
    refine ⟨p, member, ?_⟩
    rw [textOf_append someBelow]
    refine Pattern.matches_below (reach line inLines) isPattern (endsInSlash_textOf names) ?_
      someBelow (fun n inBelow => ⟨(areNames n inBelow).ne_empty, (areNames n inBelow).noSlash⟩) found
    rw [← textOf_append someBelow, textOf, if_neg (by simp [someBelow])]
    simp only [Bool.false_eq_true, if_false, List.append_nil]
    refine Text.not_mem_intercalate (by decide) fun n member => ?_
    rcases List.mem_append.mp member with inNames | inBelow
    · exact oneLine names leads n inNames
    · exact (areNames n inBelow).oneLine

end Exclusion

end DependencyAudit
