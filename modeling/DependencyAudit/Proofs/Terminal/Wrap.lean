import DependencyAudit.Proofs.Text.Blank
import DependencyAudit.Proofs.Text.Columns
import DependencyAudit.Terminal.Wrap
import Mathlib.Data.List.DropRight
import Mathlib.Data.List.TakeWhile

namespace DependencyAudit.Terminal

open Text

variable {overflow : Overflow} {width size : Nat} {line s word : List Char}
  {words pieces : List (List Char)}

theorem span_append {p : Char → Bool} {rest : List Char} (all : ∀ c ∈ s, p c = true)
    (stops : ∀ c ∈ rest.head?, p c = false) :
    (s ++ rest).takeWhile p = s ∧ (s ++ rest).dropWhile p = rest := by
  rw [List.takeWhile_append_of_pos all, List.dropWhile_append_of_pos all]
  cases rest with
  | nil => simp
  | cons c more => simp [stops c rfl]

/-- A word is followed by the blanks after it and the words after these. -/
theorem wordsOf_append (lead gap rest : List Char) (leads : ∀ c ∈ lead, isBlank c = true)
    (nonempty : word ≠ []) (plain : ∀ c ∈ word, isBlank c = false)
    (gaps : ∀ c ∈ gap, isBlank c = true) (apart : gap = [] → rest = [])
    (next : ∀ c ∈ rest.head?, isBlank c = false) :
    wordsOf (lead ++ (word ++ (gap ++ rest))) = (lead ++ word ++ gap) :: wordsOf rest := by
  obtain ⟨c, more, rfl⟩ := List.exists_cons_of_ne_nil nonempty
  obtain ⟨first, plain⟩ := List.forall_mem_cons.mp plain
  have wordEnds : ∀ d ∈ (gap ++ rest).head?, (!isBlank d) = false := by
    cases gap with
    | nil => simp [apart rfl]
    | cons d others => simp [gaps d List.mem_cons_self]
  have leadEnds : ∀ d ∈ (c :: more ++ (gap ++ rest)).head?, isBlank d = false := by
    simpa using first
  have atLead := span_append leads leadEnds
  have atWord := span_append (s := more) (fun d member => by simp [plain d member]) wordEnds
  have atGap := span_append gaps next
  rw [wordsOf]
  split
  next empty => rw [atLead.2] at empty; cases empty
  next d body shape =>
    rw [atLead.2, List.cons_append] at shape
    cases shape
    simp only [atLead.1, atWord.1, atWord.2, atGap.1, atGap.2]

theorem wordsOf_append_blank {rest : List Char} {c : Char} (nonempty : word ≠ [])
    (plain : ∀ c ∈ word, isBlank c = false) (next : rest.head? = Option.some c)
    (start : isBlank c = false) :
    wordsOf (word ++ ' ' :: rest) = (word ++ [' ']) :: wordsOf rest := by
  refine wordsOf_append [] [' '] rest nofun nonempty plain (by decide) nofun ?_
  intro d atStart
  obtain rfl : c = d := Option.some.inj (next.symm.trans atStart)
  exact start

theorem wordsOf_eq_nil_iff : wordsOf s = [] ↔ s.dropWhile isBlank = [] := by
  rw [wordsOf]
  split <;> simp [*]

theorem wordsOf_word (nonempty : word ≠ []) (plain : ∀ c ∈ word, isBlank c = false) :
    wordsOf word = [word] := by
  have alone := wordsOf_append [] [] [] nofun nonempty plain nofun (fun _ => rfl) nofun
  have nothing : wordsOf [] = [] := wordsOf_eq_nil_iff.mpr rfl
  simpa [nothing] using alone

theorem flatten_wordsOf (nonempty : wordsOf s ≠ []) : (wordsOf s).flatten = s := by
  induction s using wordsOf.induct with
  | case1 s none => exact absurd (wordsOf_eq_nil_iff.mpr none) nonempty
  | case2 s c body shape rest ih =>
    rw [wordsOf]
    split
    next empty => rw [shape] at empty; cases empty
    next c' body' shape' =>
      rw [shape] at shape'
      cases shape'
      have later : (wordsOf (rest.dropWhile isBlank)).flatten = rest.dropWhile isBlank := by
        by_cases empty : wordsOf (rest.dropWhile isBlank) = []
        · rw [empty, List.flatten_nil, ← wordsOf_eq_nil_iff.mp empty, List.dropWhile_idempotent]
        · exact ih empty
      rw [List.flatten_cons, later]
      calc s.takeWhile isBlank ++ (c :: body.takeWhile fun d => !isBlank d) ++
            rest.takeWhile isBlank ++ rest.dropWhile isBlank
        _ = s.takeWhile isBlank ++ (c :: (body.takeWhile (fun d => !isBlank d) ++ rest)) := by
          rw [List.append_assoc, List.takeWhile_append_dropWhile, List.append_assoc, List.cons_append]
        _ = s := by
          rw [List.takeWhile_append_dropWhile, ← shape, List.takeWhile_append_dropWhile]

/-- A word is cut before what does not fit into the width. -/
theorem cutClusters_append {taken : List Char} {leading more : List Cluster}
    (fits : size + totalSize leading ≤ width) :
    cutClusters width taken size (leading ++ more) =
      cutClusters width (taken ++ leading.flatMap Cluster.chars) (size + totalSize leading) more := by
  induction leading generalizing taken size with
  | nil => simp
  | cons first others ih =>
    rw [totalSize_cons] at fits
    have here : ¬ width < size + first.size := by omega
    have later : size + first.size + totalSize others ≤ width := by omega
    rw [List.cons_append, cutClusters, if_neg here, ih later, List.flatMap_cons, totalSize_cons,
      List.append_assoc, Nat.add_assoc]

theorem flatten_cutClusters {clusters : List Cluster} (solid : ∀ c ∈ clusters, c.size ≠ 0)
    (taken : List Char) (size : Nat) :
    size = 0 ∧ clusters = [] ∨
      (cutClusters width taken size clusters).flatten =
        taken ++ clusters.flatMap Cluster.chars := by
  induction clusters generalizing taken size with
  | nil =>
    by_cases empty : size = 0
    · exact .inl ⟨empty, rfl⟩
    · exact .inr (by simp [cutClusters, empty])
  | cons first others ih =>
    obtain ⟨here, later⟩ := List.forall_mem_cons.mp solid
    refine .inr ?_
    rw [cutClusters]
    split
    · rcases ih later first.chars first.size with ⟨empty, -⟩ | same
      · exact absurd empty here
      · rw [List.flatten_cons, same, List.flatMap_cons]
    · rcases ih later (taken ++ first.chars) (size + first.size) with ⟨empty, -⟩ | same
      · exact absurd (Nat.eq_zero_of_add_eq_zero_left empty) here
      · rw [same, List.flatMap_cons, List.append_assoc]

/-- Nothing of a word is lost when it is cut. A word that takes no column may have no pieces. -/
theorem flatten_cut (width : Nat) (word : List Char) :
    cut width word = [] ∨ (cut width word).flatten = word := by
  cases word with
  | nil => exact .inl rfl
  | cons c rest =>
    obtain ⟨first, others, same, -, solid⟩ := exists_clustersAfter (.ofChar c) rest
    have whole := flatMap_chars_clusters (c :: rest)
    rw [clusters, same, List.flatMap_cons] at whole
    unfold cut
    rw [clusters, same, cutClusters]
    split
    next tooWide =>
      refine .inr ?_
      rcases flatten_cutClusters solid first.chars first.size with ⟨empty, -⟩ | pieces
      · omega
      · rw [List.flatten_cons, pieces, List.nil_append, whole]
    · rw [List.nil_append, Nat.zero_add]
      rcases flatten_cutClusters solid first.chars first.size with ⟨empty, rfl⟩ | pieces
      · exact .inl (by simp [cutClusters, empty])
      · exact .inr (by rw [pieces, whole])

theorem placePieces_append (line : List Char) (pieces : List (List Char)) :
    ((placePieces line pieces).1 ++ [(placePieces line pieces).2]).flatten =
      line ++ pieces.flatten := by
  have placed : ∀ pieces : List (List Char),
      (pieces.dropLast ++ [pieces.getLastD []]).flatten = pieces.flatten := by
    intro pieces
    cases pieces using List.reverseRecOn with
    | nil => rfl
    | append_singleton => simp
  have dropped : ∀ pieces : List (List Char),
      (pieces.dropWhile (· = [])).flatten = pieces.flatten := by
    intro pieces
    induction pieces with
    | nil => rfl
    | cons first rest ih =>
      by_cases empty : first = []
      · simp [empty, ih]
      · simp [empty]
  unfold placePieces
  dsimp only
  rw [placed]
  split
  next empty => rw [dropped, empty, List.nil_append]
  · rfl

/-- Nothing is lost when lines are filled. -/
theorem flatten_fill (line : List Char) (size : Nat) (words : List (List Char)) :
    (fill overflow width line size words).flatten = line ++ words.flatten := by
  fun_induction fill overflow width line size words with
  | case1 => simp
  | case2 line size word rest own fits ih => rw [ih, List.append_assoc, List.flatten_cons]
  | case3 line size word rest own tooWide pieces none ih =>
    rw [ih, List.append_assoc, List.flatten_cons]
  | case4 line size word rest own tooWide pieces some before last placed ih =>
    have whole : pieces.flatten = word := by
      by_cases folds : width < own ∧ overflow = .fold
      · have same : pieces = cut width word := if_pos folds
        exact same ▸ (flatten_cut width word).resolve_left (same ▸ some)
      · have same : pieces = [word] := if_neg folds
        rw [same, List.flatten_singleton]
    have parts := placePieces_append line pieces
    rw [placed, List.flatten_append, List.flatten_singleton, whole] at parts
    rw [List.flatten_append, ih, ← List.append_assoc, parts, List.append_assoc, List.flatten_cons]

theorem fill_ne_nil (line : List Char) (size : Nat) (words : List (List Char)) :
    fill overflow width line size words ≠ [] := by
  fun_induction fill overflow width line size words with
  | case1 => exact List.cons_ne_nil _ _
  | case2 _ _ _ _ _ _ ih => exact ih
  | case3 _ _ _ _ _ _ _ _ ih => exact ih
  | case4 _ _ _ _ _ _ _ _ _ _ _ ih => exact List.append_ne_nil_of_right_ne_nil _ ih

theorem columns_trimEnd_le (single : Single word) : columns (trimEnd word) ≤ word.length := by
  have whole := List.rdropWhile_prefix isBlank word
  rw [(single.subset whole.subset : Single (trimEnd word)).columns_eq]
  exact whole.length_le

/-- Words that fit into the width fill one line. -/
theorem fill_of_fits (single : ∀ word ∈ words, Single word)
    (fits : line.length + words.flatten.length ≤ width) :
    fill overflow width line line.length words = [line ++ words.flatten] := by
  induction words generalizing line with
  | nil => simp [fill]
  | cons word rest ih =>
    obtain ⟨here, later⟩ := List.forall_mem_cons.mp single
    rw [List.flatten_cons, List.length_append] at fits
    have own : line.length + columns (trimEnd word) ≤ width := by
      have := columns_trimEnd_le here
      omega
    have fits' : (line ++ word).length + rest.flatten.length ≤ width := by
      rw [List.length_append]
      omega
    rw [fill, if_pos own, here.columns_eq, ← List.length_append, ih later fits',
      List.flatten_cons, List.append_assoc]

theorem cropBlanks_leads (width : Nat) (line : List Char) : cropBlanks width line <+: line :=
  List.take_prefix _ _

/-- Only blanks at the end of a line are left out before it is cropped. -/
theorem prefix_cropBlanks (width : Nat) (ends : ∀ c ∈ s.getLast?, isBlank c = false)
    (rest : List Char) : s <+: cropBlanks width (s ++ rest) := by
  have blanks : ((s ++ rest).reverse.takeWhile isBlank).length ≤ rest.length := by
    rw [List.reverse_append, List.takeWhile_append]
    split
    · have empty : s.reverse.takeWhile isBlank = [] := by
        cases s using List.reverseRecOn with
        | nil => rfl
        | append_singleton before c => simp [ends c (by simp)]
      simp [empty]
    · simpa using (List.takeWhile_prefix (l := rest.reverse) isBlank).length_le
  refine List.prefix_take_iff.mpr ⟨List.prefix_append s rest, ?_⟩
  rw [List.length_append]
  omega

theorem cropBlanks_of_length_le (fits : line.length ≤ width) : cropBlanks width line = line := by
  unfold cropBlanks
  dsimp only
  rw [Nat.sub_eq_zero_of_le fits, Nat.min_zero, Nat.sub_zero, List.take_length]

theorem cropLine_of_fits (single : Single line) (fits : line.length ≤ width) :
    cropLine overflow width line = line := by
  unfold cropLine
  dsimp only
  rw [cropBlanks_of_length_le fits, single.columns_eq, if_pos fits]

theorem takeClusters_append {leading more : List Cluster} (fits : totalSize leading ≤ width) :
    takeClusters width (leading ++ more) =
      leading.flatMap Cluster.chars ++ takeClusters (width - totalSize leading) more := by
  induction leading generalizing width with
  | nil => simp
  | cons first others ih =>
    rw [totalSize_cons] at fits
    have here : first.size ≤ width := by omega
    have later : totalSize others ≤ width - first.size := by omega
    rw [List.cons_append, takeClusters, if_pos here, ih later, List.flatMap_cons, totalSize_cons,
      List.append_assoc, Nat.sub_sub]

theorem takeClusters_of_single (single : Single s) (width : Nat) :
    takeClusters width (s.map .ofChar) = s.take width := by
  induction s generalizing width with
  | nil => rw [List.take_nil]; rfl
  | cons c rest ih =>
    have one : (Cluster.ofChar c).size = 1 := single c List.mem_cons_self
    rw [List.map_cons, takeClusters, one]
    cases width with
    | zero => rfl
    | succ width =>
      rw [if_pos (Nat.le_add_left 1 width),
        ih (single.subset (List.subset_cons_self c rest)) (width + 1 - 1)]
      rfl

/-- Of single columns a line keeps its start, and no more than the width. -/
theorem cropLine_of_single (single : Single line) :
    cropLine .fold width line <+: line ∧ (cropLine .fold width line).length ≤ width := by
  have kept := cropBlanks_leads width line
  have single' := single.subset kept.subset
  unfold cropLine
  dsimp only
  split
  next fits => exact ⟨kept, by rwa [single'.columns_eq] at fits⟩
  · unfold takeColumns
    split
    · exact ⟨List.nil_prefix, Nat.zero_le _⟩
    · rw [single'.clusters_eq, takeClusters_of_single single']
      exact ⟨(List.take_prefix _ _).trans kept, List.length_take_le _ _⟩

theorem wrapLine_ne_nil (overflow : Overflow) (width : Nat) (s : List Char) :
    wrapLine overflow width s ≠ [] := by
  unfold wrapLine
  dsimp only
  split
  · exact List.cons_ne_nil _ _
  · exact mt List.map_eq_nil_iff.mp (fill_ne_nil _ _ _)

/-- A text that fits into the width stays on its line. -/
theorem wrapLine_of_fits (single : Single s) (fits : s.length ≤ width) :
    wrapLine overflow width s = [s] := by
  unfold wrapLine
  dsimp only
  split
  next empty => rw [List.map_singleton, cropLine_of_fits single fits]
  next nonempty =>
    have whole := flatten_wordsOf nonempty
    have singles : ∀ word ∈ wordsOf s, Single word := fun word member => by
      refine single.subset fun c inside => ?_
      rw [← whole]
      exact List.mem_flatten.mpr ⟨word, member, inside⟩
    have filled : fill overflow width [] 0 (wordsOf s) = [[] ++ (wordsOf s).flatten] := by
      have fits' : ([] : List Char).length + (wordsOf s).flatten.length ≤ width := by
        rwa [whole, List.length_nil, Nat.zero_add]
      exact fill_of_fits singles fits'
    rw [filled, whole, List.nil_append, List.map_singleton, cropLine_of_fits single fits]

/-- No line is longer than the terminal is wide, and none has characters of its own. -/
theorem of_mem_wrapLine (single : Single s) (member : line ∈ wrapLine .fold width s) :
    line ⊆ s ∧ line.length ≤ width := by
  unfold wrapLine at member
  dsimp only at member
  split at member
  next empty =>
    obtain rfl := List.mem_singleton.mp member
    exact ⟨(cropLine_of_single single).1.subset, (cropLine_of_single single).2⟩
  next nonempty =>
    obtain ⟨filled, inside, rfl⟩ := List.mem_map.mp member
    have whole : (fill .fold width [] 0 (wordsOf s)).flatten = s := by
      rw [flatten_fill, flatten_wordsOf nonempty, List.nil_append]
    have part : filled ⊆ s := by
      intro c member
      rw [← whole]
      exact List.mem_flatten.mpr ⟨filled, inside, member⟩
    obtain ⟨starts, short⟩ := cropLine_of_single (single.subset part)
    exact ⟨List.Subset.trans starts.subset part, short⟩

section

variable {p : Char → Bool}

theorem countP_takeClusters_le (blank : p ' ' = false) (width : Nat) (clusters : List Cluster) :
    (takeClusters width clusters).countP p ≤ (clusters.flatMap Cluster.chars).countP p := by
  induction clusters generalizing width with
  | nil => simp [takeClusters]
  | cons first others ih =>
    rw [takeClusters]
    split
    · have later := ih (width - first.size)
      simp only [List.flatMap_cons, List.countP_append]
      omega
    · simp [List.countP_replicate, blank]

theorem countP_cropLine_le (blank : p ' ' = false) (width : Nat) (line : List Char) :
    (cropLine .fold width line).countP p ≤ line.countP p := by
  have kept := (cropBlanks_leads width line).sublist.countP_le (p := p)
  unfold cropLine
  dsimp only
  split
  · exact kept
  · unfold takeColumns
    split
    · simp
    · have taken := countP_takeClusters_le blank width (clusters (cropBlanks width line))
      rw [flatMap_chars_clusters] at taken
      exact taken.trans kept

/-- Wrapping puts nothing but blanks in. -/
theorem countP_wrapLine_le (blank : p ' ' = false) (width : Nat) (s : List Char) :
    (wrapLine .fold width s).flatten.countP p ≤ s.countP p := by
  have cropped : ∀ lines : List (List Char),
      (lines.map (cropLine .fold width)).flatten.countP p ≤ lines.flatten.countP p := by
    intro lines
    induction lines with
    | nil => simp
    | cons first rest ih =>
      have here := countP_cropLine_le blank width first
      simp only [List.map_cons, List.flatten_cons, List.countP_append]
      omega
  unfold wrapLine
  dsimp only
  split
  next empty => simpa using countP_cropLine_le blank width s
  next nonempty =>
    refine (cropped _).trans ?_
    rw [flatten_fill, flatten_wordsOf nonempty, List.nil_append]

end

theorem cutClusters_ne_nil {clusters : List Cluster} (taken : List Char)
    (nonempty : size + totalSize clusters ≠ 0) : cutClusters width taken size clusters ≠ [] := by
  induction clusters generalizing taken size with
  | nil =>
    have solid : size ≠ 0 := by simpa using nonempty
    simp [cutClusters, solid]
  | cons first others ih =>
    rw [totalSize_cons, ← Nat.add_assoc] at nonempty
    rw [cutClusters]
    split
    · exact List.cons_ne_nil _ _
    · exact ih _ nonempty

theorem fill_cons_of_fits (fits : size + columns (trimEnd word) ≤ width) :
    fill overflow width line size (word :: words) =
      fill overflow width (line ++ word) (size + columns word) words := by
  rw [fill, if_pos fits]

theorem fill_cons_of_tooWide (tooWide : ¬ size + columns (trimEnd word) ≤ width)
    (same : pieces = if width < columns (trimEnd word) ∧ overflow = .fold then cut width word
      else [word]) (nonempty : pieces ≠ []) :
    fill overflow width line size (word :: words) = (placePieces line pieces).1 ++
      fill overflow width (placePieces line pieces).2 (columns (placePieces line pieces).2)
        words := by
  rw [fill, if_neg tooWide, ← same]
  exact if_neg nonempty

/-- A word that no line has room for with what the line has leaves the line as it is. -/
theorem exists_fill_of_tooWide (overflow : Overflow) (words : List (List Char)) (nonempty : line ≠ [])
    (solid : totalSize (clusters word) ≠ 0)
    (tooWide : ¬ size + columns (trimEnd word) ≤ width) :
    ∃ others, fill overflow width line size (word :: words) = line :: others := by
  obtain ⟨pieces, same⟩ : ∃ pieces, pieces =
      if width < columns (trimEnd word) ∧ overflow = .fold then cut width word else [word] :=
    ⟨_, rfl⟩
  have filled : pieces ≠ [] := by
    rw [same]
    split
    · exact cutClusters_ne_nil [] (by rwa [Nat.zero_add])
    · exact List.cons_ne_nil _ _
  rw [fill_cons_of_tooWide tooWide same filled]
  obtain ⟨first, others, shape⟩ := List.exists_cons_of_ne_nil filled
  rw [placePieces, if_neg nonempty, shape, List.dropLast_cons_cons, List.cons_append]
  exact ⟨_, rfl⟩

/-- After words of single columns the next words go on with a line of single columns. -/
theorem exists_fill_append (overflow : Overflow) (width : Nat)
    (singles : ∀ word ∈ words, word ≠ [] ∧ Single word)
    (single : Single line) : ∃ before last, Single last ∧ ∀ rest,
      fill overflow width line line.length (words ++ rest) =
        before ++ fill overflow width last last.length rest := by
  induction words generalizing line with
  | nil => exact ⟨[], line, single, fun rest => rfl⟩
  | cons word words ih =>
    obtain ⟨⟨nonempty, here⟩, later⟩ := List.forall_mem_cons.mp singles
    by_cases fits : line.length + columns (trimEnd word) ≤ width
    · obtain ⟨before, last, single', goes⟩ := ih later (single.append here)
      refine ⟨before, last, single', fun rest => ?_⟩
      rw [List.cons_append, fill_cons_of_fits fits, here.columns_eq, ← List.length_append, goes]
    · obtain ⟨pieces, same⟩ : ∃ pieces, pieces =
          if width < columns (trimEnd word) ∧ overflow = .fold then cut width word else [word] :=
        ⟨_, rfl⟩
      have whole : pieces ≠ [] ∧ pieces.flatten = word := by
        by_cases folds : width < columns (trimEnd word) ∧ overflow = .fold
        · rw [if_pos folds] at same
          have notNil : cut width word ≠ [] := by
            refine cutClusters_ne_nil [] ?_
            rw [here.clusters_eq, here.totalSize_map, Nat.zero_add]
            exact mt List.length_eq_zero_iff.mp nonempty
          rw [same]
          exact ⟨notNil, (flatten_cut width word).resolve_left notNil⟩
        · rw [same, if_neg folds]
          exact ⟨List.cons_ne_nil _ _, List.flatten_singleton⟩
      have single' : Single (placePieces line pieces).2 := by
        refine (single.append here).subset ?_
        rw [← whole.2, ← placePieces_append line pieces]
        simp
      obtain ⟨before, last, single'', goes⟩ := ih later single'
      refine ⟨(placePieces line pieces).1 ++ before, last, single'', fun rest => ?_⟩
      rw [List.cons_append, fill_cons_of_tooWide fits same whole.1, single'.columns_eq, goes,
        List.append_assoc]

/-- What a line has stays at its start. -/
theorem exists_fill_cons (overflow : Overflow) (width : Nat) (nonempty : line ≠ []) (size : Nat)
    (words : List (List Char)) :
    ∃ more others, fill overflow width line size words = (line ++ more) :: others := by
  fun_induction fill overflow width line size words with
  | case1 => exact ⟨[], [], by rw [List.append_nil]⟩
  | case2 line size word rest own fits ih =>
    obtain ⟨more, others, same⟩ := ih (by simp [nonempty])
    exact ⟨word ++ more, others, by rw [same, List.append_assoc]⟩
  | case3 line size word rest own tooWide pieces none ih =>
    obtain ⟨more, others, same⟩ := ih (by simp [nonempty])
    exact ⟨word ++ more, others, by rw [same, List.append_assoc]⟩
  | case4 line size word rest own tooWide pieces filled before last placed ih =>
    obtain ⟨first, others, shape⟩ := List.exists_cons_of_ne_nil filled
    rw [placePieces, if_neg nonempty, shape] at placed
    cases placed
    exact ⟨[], _, by rw [List.append_nil, List.dropLast_cons_cons, List.cons_append]⟩

/-- A line that fits and ends in no blank is not cropped. -/
theorem cropLine_of_ends (ends : ∀ c ∈ s.getLast?, isBlank c = false) (fits : columns s ≤ width) :
    cropLine overflow width s = s := by
  have kept := prefix_cropBlanks width ends []
  rw [List.append_nil] at kept
  have same := (cropBlanks_leads width s).eq_of_length_le kept.length_le
  unfold cropLine
  dsimp only
  rw [same, if_pos fits]

/-- What fits into the width before a blank is not cropped. -/
theorem prefix_cropLine {c : Char} (visible : columnsOf c ≠ 0)
    (ends : ∀ d ∈ (c :: s).getLast?, isBlank d = false ∧ d ≠ joiner)
    (fits : columns (c :: s) ≤ width) (rest : List Char) :
    c :: s <+: cropLine .fold width (c :: s ++ ' ' :: rest) := by
  obtain ⟨more, same⟩ := prefix_cropBlanks width (fun d last => (ends d last).1) (' ' :: rest)
  have left : more <+: ' ' :: rest := by
    have whole := cropBlanks_leads width (c :: s ++ ' ' :: rest)
    rw [← same] at whole
    exact (List.prefix_append_right_inj _).mp whole
  have split : clusters (c :: s ++ more) = clusters (c :: s) ++ clusters more := by
    cases more with
    | nil => rw [List.append_nil, clusters.eq_1, List.append_nil]
    | cons d more =>
      obtain ⟨rfl, -⟩ := List.cons_prefix_cons.mp left
      exact clusters_append (by decide) (fun last => (ends joiner last).2 rfl) more
  unfold cropLine
  dsimp only
  rw [← same]
  split_ifs
  · exact List.prefix_append _ _
  · have nonempty : width ≠ 0 := by
      have := columns_pos visible s
      omega
    rw [columns_cons visible] at fits
    rw [takeColumns, if_neg nonempty, split, takeClusters_append fits, flatMap_chars_clusters]
    exact List.prefix_append _ _

/-- A word that fits but for its last character is cut before that one. -/
theorem exists_cut {c last : Char} {core : List Char} (visible : columnsOf c ≠ 0)
    (visibleLast : columnsOf last ≠ 0) (fits : columns (c :: core) ≤ width)
    (tooWide : ¬ columns (c :: core ++ [last]) ≤ width) :
    ∃ piece others, cut width (c :: core ++ [last] ++ [' ']) = (c :: core) :: piece :: others := by
  have split : ∀ rest, clusters (c :: core ++ last :: rest) =
      clusters (c :: core) ++ clusters (last :: rest) := by
    rcases clustersAfter_append_or visibleLast (.ofChar c) core with splits | ⟨-, joined⟩
    · exact splits
    · -- Joined to what is before it, the last character would take no column.
      have same : columns (c :: core ++ [last]) = columns (c :: core) := by
        rw [columns_cons visible]
        exact (columns_cons visible _).trans joined
      omega
  have blank : columnsOf ' ' ≠ 0 := by decide
  have ending : clusters [last, ' '] = [.ofChar last, .ofChar ' '] := clustersAfter_cons blank _ []
  have full : ¬ totalSize (clusters (c :: core)) + (Cluster.ofChar last).size ≤ width := by
    have whole : columns (c :: core ++ [last]) =
        totalSize (clusters (c :: core)) + (Cluster.ofChar last).size := by
      rw [List.cons_append, columns_cons visible, ← List.cons_append, split, totalSize_append]
      rfl
    rwa [whole] at tooWide
  have fits' : 0 + totalSize (clusters (c :: core)) ≤ width := by
    rwa [Nat.zero_add, ← columns_cons visible]
  have notNil : cutClusters width [last] (columnsOf last) [.ofChar ' '] ≠ [] :=
    cutClusters_ne_nil _ (by omega)
  obtain ⟨piece, others, shape⟩ := List.exists_cons_of_ne_nil notNil
  refine ⟨piece, others, ?_⟩
  rw [List.append_assoc, List.singleton_append, cut, split, cutClusters_append fits',
    flatMap_chars_clusters, List.nil_append, Nat.zero_add, ending, cutClusters,
    if_pos (Nat.lt_of_not_le full)]
  exact congrArg ((c :: core) :: ·) shape

/-- What a line has before a blank is shown on a line if it fits into the width. -/
theorem exists_line_of_start {c : Char} (visible : columnsOf c ≠ 0)
    (ends : ∀ d ∈ (c :: s).getLast?, isBlank d = false ∧ d ≠ joiner)
    (fits : columns (c :: s) ≤ width) (rest : List Char) (size : Nat) (words : List (List Char)) :
    ∃ line ∈ (fill .fold width (c :: s ++ ' ' :: rest) size words).map (cropLine .fold width),
      c :: s <+: line := by
  have nonempty : c :: s ++ ' ' :: rest ≠ [] := List.cons_ne_nil _ _
  obtain ⟨more, others, same⟩ := exists_fill_cons .fold width nonempty size words
  rw [same, List.map_cons, List.append_assoc, List.cons_append]
  exact ⟨_, List.mem_cons_self, prefix_cropLine visible ends fits (rest ++ more)⟩

section

variable {c last : Char} {core : List Char}

theorem ends_append_singleton (one : columnsOf last = 1) (plain : isBlank last = false)
    (s : List Char) : ∀ d ∈ (s ++ [last]).getLast?, isBlank d = false ∧ d ≠ joiner := by
  intro d atEnd
  obtain rfl : last = d := by simpa using atEnd
  refine ⟨plain, ?_⟩
  rintro rfl
  rw [columnsOf_joiner] at one
  cases one

theorem trimEnd_append_blank (plain : isBlank last = false) (s : List Char) :
    trimEnd (s ++ [last] ++ [' ']) = s ++ [last] := by
  refine trimEnd_append (by decide) fun d atEnd => ?_
  obtain rfl : last = d := by simpa using atEnd
  exact plain

/-- The word goes to the line that it finds if there is room. -/
theorem exists_line_of_room (single : Single line) (visible : columnsOf c ≠ 0)
    (one : columnsOf last = 1) (plain : isBlank last = false)
    (room : line.length + columns (c :: core ++ [last]) ≤ width) (after : List (List Char)) :
    ∃ shown ∈ (fill .fold width line line.length ((c :: core ++ [last] ++ [' ']) :: after)).map
      (cropLine .fold width), c :: core <:+: shown := by
  have apart : line.getLast? ≠ some joiner := fun atEnd => by
    have joins := single joiner (List.mem_of_getLast? atEnd)
    rw [columnsOf_joiner] at joins
    cases joins
  have together : columns (line ++ c :: core ++ [last]) ≤ width := by
    rwa [List.append_assoc, List.cons_append, columns_append visible apart, single.columns_eq]
  have inside : c :: core <:+: line ++ c :: core ++ [last] := ⟨line, [last], rfl⟩
  have ends := ends_append_singleton one plain (line ++ c :: core)
  obtain ⟨d, more, shape, visible'⟩ : ∃ d more, line ++ c :: core ++ [last] = d :: more ∧
      columnsOf d ≠ 0 := by
    cases line with
    | nil => exact ⟨c, _, rfl, visible⟩
    | cons d others => exact ⟨d, _, rfl, by simp [single d List.mem_cons_self]⟩
  have trimmed := trimEnd_append_blank plain (c :: core)
  rw [fill_cons_of_fits (by rwa [trimmed]), ← List.append_assoc, ← List.append_assoc]
  rw [shape] at together inside ends ⊢
  obtain ⟨shown, member, starts⟩ := exists_line_of_start visible' ends together [] _ after
  exact ⟨shown, member, inside.trans starts.isInfix⟩

/-- The word starts a line if there is room on that one. -/
theorem exists_line_of_alone (visible : columnsOf c ≠ 0) (one : columnsOf last = 1)
    (plain : isBlank last = false)
    (noRoom : ¬ line.length + columns (c :: core ++ [last]) ≤ width)
    (alone : columns (c :: core ++ [last]) ≤ width) (after : List (List Char)) :
    ∃ shown ∈ (fill .fold width line line.length ((c :: core ++ [last] ++ [' ']) :: after)).map
      (cropLine .fold width), c :: core <:+: shown := by
  have trimmed := trimEnd_append_blank plain (c :: core)
  have same : [c :: core ++ [last] ++ [' ']] =
      if width < columns (trimEnd (c :: core ++ [last] ++ [' '])) ∧ Overflow.fold = .fold then
        cut width (c :: core ++ [last] ++ [' ']) else [c :: core ++ [last] ++ [' ']] := by
    rw [trimmed, if_neg fun folds => Nat.not_lt_of_le alone folds.1]
  have placed : (placePieces line [c :: core ++ [last] ++ [' ']]).2 =
      c :: core ++ [last] ++ [' '] := by
    unfold placePieces
    split <;> simp
  rw [fill_cons_of_tooWide (by rwa [trimmed]) same (List.cons_ne_nil _ _), List.map_append, placed]
  obtain ⟨shown, member, starts⟩ :=
    exists_line_of_start visible (ends_append_singleton one plain (c :: core)) alone [] _ after
  exact ⟨shown, List.mem_append_right _ member,
    (List.prefix_append _ _).isInfix.trans starts.isInfix⟩

/-- The word is cut if no line has room for it, and its first piece ends before its last character. -/
theorem exists_line_of_cut (visible : columnsOf c ≠ 0) (one : columnsOf last = 1)
    (plain : ∀ d ∈ c :: core, isBlank d = false) (plainLast : isBlank last = false)
    (fits : columns (c :: core) ≤ width) (tooWide : ¬ columns (c :: core ++ [last]) ≤ width)
    (after : List (List Char)) :
    ∃ shown ∈ (fill .fold width line line.length ((c :: core ++ [last] ++ [' ']) :: after)).map
      (cropLine .fold width), c :: core <:+: shown := by
  obtain ⟨piece, others, same⟩ := exists_cut visible (by omega) fits tooWide
  have trimmed := trimEnd_append_blank plainLast (c :: core)
  have folds : width < columns (trimEnd (c :: core ++ [last] ++ [' '])) ∧
      Overflow.fold = .fold := ⟨by rw [trimmed]; omega, rfl⟩
  have member : c :: core ∈ (placePieces line ((c :: core) :: piece :: others)).1 := by
    unfold placePieces
    split <;> simp
  have ends : ∀ d ∈ (c :: core).getLast?, isBlank d = false := fun d atEnd =>
    plain d (List.mem_of_mem_getLast? atEnd)
  rw [fill_cons_of_tooWide (by rw [trimmed]; omega) (by rw [if_pos folds, same])
    (List.cons_ne_nil _ _)]
  exact ⟨c :: core, List.mem_map.mpr ⟨c :: core, List.mem_append_left _ member,
    cropLine_of_ends ends fits⟩, List.infix_rfl⟩

/-- Before its last character a word is on a line as a whole if it fits into the width, whatever words
of single columns come before it. -/
theorem exists_line_of_word {before : List (List Char)}
    (singles : ∀ word ∈ before, word ≠ [] ∧ Single word) (visible : columnsOf c ≠ 0)
    (plain : ∀ d ∈ c :: core, isBlank d = false) (one : columnsOf last = 1)
    (plainLast : isBlank last = false) (fits : columns (c :: core) ≤ width)
    (after : List (List Char)) :
    ∃ line ∈ (fill .fold width [] 0 (before ++ (c :: core ++ [last] ++ [' ']) :: after)).map
      (cropLine .fold width), c :: core <:+: line := by
  obtain ⟨lines, line, single, goes⟩ := exists_fill_append .fold width singles Single.nil
  rw [List.length_nil] at goes
  rw [goes, List.map_append]
  have found : ∃ shown ∈ (fill .fold width line line.length
      ((c :: core ++ [last] ++ [' ']) :: after)).map (cropLine .fold width),
      c :: core <:+: shown := by
    by_cases room : line.length + columns (c :: core ++ [last]) ≤ width
    · exact exists_line_of_room single visible one plainLast room after
    by_cases alone : columns (c :: core ++ [last]) ≤ width
    · exact exists_line_of_alone visible one plainLast room alone after
    · exact exists_line_of_cut visible one plain plainLast fits alone after
  obtain ⟨shown, member, inside⟩ := found
  exact ⟨shown, List.mem_append_right _ member, inside⟩

end

end DependencyAudit.Terminal
