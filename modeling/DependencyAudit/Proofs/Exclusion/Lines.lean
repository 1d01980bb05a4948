import DependencyAudit.Proofs.Exclusion.Segments
import DependencyAudit.Proofs.Text.Pieces
import Mathlib.Data.List.TakeWhile

namespace DependencyAudit

namespace Exclusion

/-- What a partial function gives for all of a list, it gives for each of its elements. -/
theorem map_some_of_mapM {α β : Type} {f : α → Option β} {items : List α} {found : List β}
    (all : items.mapM f = some found) : found.map some = items.map f := by
  induction items generalizing found with
  | nil =>
    cases all
    rfl
  | cons item rest ih =>
    rw [List.mapM_cons] at all
    obtain ⟨first, here, all⟩ := Option.bind_eq_some_iff.mp all
    obtain ⟨others, later, all⟩ := Option.bind_eq_some_iff.mp all
    cases all
    rw [List.map_cons, List.map_cons, here, ih later]

/-- The texts of the segments of the pattern that a line writes. -/
def segmentTexts (line : String) : List (List Char) :=
  closed (anchored (Text.piecesAt '/' (withoutTrailingBlanks line.toList)))

/-- The line is no comment, and its pattern ends in a star for a single name, to which stars alone
do not lead from `**`. -/
def StopsShort (line : String) : Prop :=
  line.toList.head? ≠ some '#' ∧ (segmentTexts line).getLast? = some ['*'] ∧
    ((segmentTexts line).reverse.dropWhile (· = ['*'])).head? ≠ some ['*', '*']

instance (line : String) : Decidable (StopsShort line) := inferInstanceAs (Decidable (_ ∧ _))

/-- A line whose pattern matches what is below a directory wherever it matches the directory. -/
structure ReachesDown (line : String) : Prop where
  positive : line.toList.head? ≠ some '!'
  noBracket : '[' ∉ line.toList
  ends : ¬ StopsShort line

theorem mem_closed {texts : List (List Char)} {text : List Char} (member : text ∈ closed texts) :
    text ∈ texts ∨ text = ['*', '*'] := by
  fun_induction closed texts with
  | case1 => cases member
  | case2 => exact .inr (List.mem_singleton.mp member)
  | case3 first rest _ ih =>
    rcases List.mem_cons.mp member with rfl | later
    · exact .inl List.mem_cons_self
    · exact (ih later).imp_left (List.mem_cons_of_mem _)

theorem mem_anchored {texts : List (List Char)} {text : List Char}
    (member : text ∈ anchored texts) : text ∈ texts ∨ text = ['*', '*'] := by
  unfold anchored at member
  split at member
  · exact .inl (List.mem_cons_of_mem _ member)
  · split at member
    · exact .inl member
    · exact (List.mem_cons.mp member).symm
  · split at member
    · exact .inl member
    · exact (List.mem_cons.mp member).symm
  · exact .inl member

theorem closed_ne_nil {texts : List (List Char)} (nonempty : texts ≠ []) : closed texts ≠ [] := by
  fun_cases closed texts with
  | case1 => exact absurd rfl nonempty
  | case2 => exact List.cons_ne_nil _ _
  | case3 => exact List.cons_ne_nil _ _

theorem getLast?_closed_ne (texts : List (List Char)) : (closed texts).getLast? ≠ some [] := by
  fun_induction closed texts with
  | case1 => simp
  | case2 => simp
  | case3 first rest other ih =>
    by_cases alone : rest = []
    · subst alone
      simpa [closed] using other
    · obtain ⟨second, more, shape⟩ := List.exists_cons_of_ne_nil (closed_ne_nil alone)
      rw [shape, List.getLast?_cons_cons, ← shape]
      exact ih

theorem prefix_withoutTrailingBlanks (s : List Char) : withoutTrailingBlanks s <+: s := by
  unfold withoutTrailingBlanks
  split
  · exact List.prefix_refl s
  · have suffix := List.dropWhile_suffix Text.isBlank (l := s.reverse)
    rw [Text.trimEnd]
    exact List.reverse_suffix.mp (by rwa [List.reverse_reverse])

theorem head?_withoutTrailingBlanks {s : List Char} (nonempty : withoutTrailingBlanks s ≠ []) :
    (withoutTrailingBlanks s).head? = s.head? := by
  obtain ⟨more, whole⟩ := prefix_withoutTrailingBlanks s
  conv_rhs => rw [← whole]
  exact (List.head?_append_of_ne_nil _ nonempty).symm

/-- A segment holds no slash, and what other characters there are come from the line. -/
theorem mem_of_mem_segmentTexts {line : String} {text : List Char}
    (member : text ∈ segmentTexts line) {c : Char} (inText : c ∈ text) :
    c ≠ '/' ∧ (c ∈ line.toList ∨ c = '*') := by
  have star : text = ['*', '*'] → c = '*' := by
    intro same
    simpa [same] using inText
  rcases mem_closed member with member | same
  · rcases mem_anchored member with member | same
    · obtain ⟨inside, inName⟩ := Text.mem_of_mem_pieces member inText
      exact ⟨by simpa using inName, .inl ((prefix_withoutTrailingBlanks _).subset inside)⟩
    · exact ⟨by simp [star same], .inr (star same)⟩
  · exact ⟨by simp [star same], .inr (star same)⟩

theorem ofText?_eq_anyName_iff {text : List Char} :
    Segment.ofText? text = some .anyName ↔ text = ['*'] := by
  unfold Segment.ofText?
  split
  next deep => simp [deep]
  · split
    next lone => simp [lone]
    next other => simp [other]

theorem ofText?_eq_anyDepth_iff {text : List Char} :
    Segment.ofText? text = some .anyDepth ↔ text = ['*', '*'] := by
  unfold Segment.ofText?
  split
  next deep => simp [deep]
  next other =>
    split
    next lone => simp [lone]
    · simp [other]

theorem eq_nil_of_ofText? {text : List Char} (read : Segment.ofText? text = some (.glob [])) :
    text = [] := by
  unfold Segment.ofText? at read
  split at read
  · cases read
  · split at read
    · cases read
    · obtain ⟨items, found, same⟩ := Option.map_eq_some_iff.mp read
      cases same
      revert found
      fun_cases globItems? text <;> simp_all

theorem isPlain_of_ofText? {text : List Char} {segment : Segment}
    (read : Segment.ofText? text = some segment) (noSlash : '/' ∉ text)
    (noBracket : '[' ∉ text) : segment.IsPlain := by
  unfold Segment.ofText? at read
  split at read
  · cases read
    trivial
  · split at read
    · cases read
      trivial
    · obtain ⟨items, found, rfl⟩ := Option.map_eq_some_iff.mp read
      exact isPlain_of_globItems? found noSlash noBracket

theorem collapse_cons (first : Segment) (rest : List Segment) :
    collapse (first :: rest) = first :: collapse rest ∨
      (∃ more, first = .anyDepth ∧ rest = .anyDepth :: more) ∧
        collapse (first :: rest) = collapse rest := by
  by_cases repeated : ∃ more, first = .anyDepth ∧ rest = .anyDepth :: more
  · obtain ⟨more, rfl, rfl⟩ := repeated
    exact .inr ⟨⟨more, rfl, rfl⟩, collapse.eq_1 more⟩
  · refine .inl (collapse.eq_2 first rest fun more deep again => repeated ⟨more, deep, again⟩)

theorem mem_of_mem_collapse {segments : List Segment} {segment : Segment}
    (member : segment ∈ collapse segments) : segment ∈ segments := by
  induction segments with
  | nil => exact member
  | cons first rest ih =>
    rcases collapse_cons first rest with same | ⟨-, same⟩
    · rw [same] at member
      exact (List.mem_cons.mp member).elim (fun here => by simp [here])
        fun later => List.mem_cons_of_mem _ (ih later)
    · rw [same] at member
      exact List.mem_cons_of_mem _ (ih member)

theorem getLast?_collapse (segments : List Segment) :
    (collapse segments).getLast? = segments.getLast? := by
  induction segments with
  | nil => rfl
  | cons first rest ih =>
    rcases collapse_cons first rest with same | ⟨⟨more, -, rfl⟩, same⟩
    · rw [same, List.getLast?_cons, List.getLast?_cons, ih]
    · rw [same, ih, List.getLast?_cons_cons]

/-- The segments of a line without brackets hold none. -/
theorem isPlain_of_mem_collapse {line : String} (noBracket : '[' ∉ line.toList)
    {segments : List Segment} (read : (segmentTexts line).mapM Segment.ofText? = some segments) :
    ∀ segment ∈ collapse segments, segment.IsPlain := by
  intro segment member
  have inTexts : some segment ∈ segments.map some :=
    List.mem_map_of_mem (mem_of_mem_collapse member)
  rw [map_some_of_mapM read] at inTexts
  obtain ⟨text, inTexts, isSegment⟩ := List.mem_map.mp inTexts
  refine isPlain_of_ofText? isSegment ?_ ?_
  · exact fun slash => (mem_of_mem_segmentTexts inTexts slash).1 rfl
  · intro bracket
    rcases (mem_of_mem_segmentTexts inTexts bracket).2 with inLine | star
    · exact noBracket inLine
    · cases star

/-- No pattern ends in an empty segment: a slash at the end stands for all below. -/
theorem getLast?_collapse_ne {line : String} {segments : List Segment}
    (read : (segmentTexts line).mapM Segment.ofText? = some segments) :
    (collapse segments).getLast? ≠ some (.glob []) := by
  intro last
  have lasts := congrArg List.getLast? (map_some_of_mapM read)
  rw [getLast?_collapse] at last
  rw [List.getLast?_map, List.getLast?_map, last] at lasts
  obtain ⟨text, isLast, isEmpty⟩ := Option.map_eq_some_iff.mp lasts.symm
  rw [eq_nil_of_ofText? isEmpty] at isLast
  exact getLast?_closed_ne _ isLast

/-- Writing `**` once where it is repeated leaves the stars after it as they are. -/
theorem exists_collapse_stars {stars : List Segment} (all : ∀ star ∈ stars, star = .anyName)
    (before : List Segment) :
    ∃ others, collapse (before ++ .anyDepth :: stars) = others ++ .anyDepth :: stars := by
  have alone : ∀ {stars : List Segment}, (∀ star ∈ stars, star = .anyName) →
      collapse stars = stars := by
    intro stars all
    induction stars with
    | nil => rfl
    | cons star rest ih =>
      obtain ⟨rfl, allRest⟩ := List.forall_mem_cons.mp all
      rcases collapse_cons .anyName rest with same | ⟨⟨more, deep, -⟩, -⟩
      · rw [same, ih allRest]
      · cases deep
  induction before with
  | nil =>
    refine ⟨[], ?_⟩
    simp only [List.nil_append]
    rcases collapse_cons .anyDepth stars with same | ⟨⟨more, -, rfl⟩, -⟩
    · rw [same, alone all]
    · cases all _ List.mem_cons_self
  | cons first before ih =>
    obtain ⟨others, same⟩ := ih
    rw [List.cons_append]
    rcases collapse_cons first (before ++ .anyDepth :: stars) with kept | ⟨-, dropped⟩
    · exact ⟨first :: others, by rw [kept, same, List.cons_append]⟩
    · exact ⟨others, by rw [dropped, same]⟩

theorem reachesBelow_of_not_stopsShort {line : String} {segments : List Segment}
    (ends : ¬ StopsShort line) (notComment : line.toList.head? ≠ some '#')
    (read : (segmentTexts line).mapM Segment.ofText? = some segments) :
    ReachesBelow (collapse segments) := by
  have same := map_some_of_mapM read
  intro last
  rw [getLast?_collapse] at last
  have lastText : (segmentTexts line).getLast? = some ['*'] := by
    have lasts := congrArg List.getLast? same
    rw [List.getLast?_map, List.getLast?_map, last] at lasts
    obtain ⟨text, isLast, star⟩ := Option.map_eq_some_iff.mp lasts.symm
    rw [isLast, ofText?_eq_anyName_iff.mp star]
  -- Going back from the end over the lone stars one meets `**`.
  have meets : ((segmentTexts line).reverse.dropWhile (· = ['*'])).head? = some ['*', '*'] := by
    by_contra other
    exact ends ⟨notComment, lastText, other⟩
  obtain ⟨before, shape⟩ := List.head?_eq_some_iff.mp meets
  have whole : segmentTexts line = before.reverse ++ ['*', '*'] ::
      ((segmentTexts line).reverse.takeWhile (· = ['*'])).reverse := by
    have cut := List.takeWhile_append_dropWhile (l := (segmentTexts line).reverse)
      (p := fun text => decide (text = ['*']))
    rw [shape] at cut
    simpa using (congrArg List.reverse cut).symm
  rw [whole] at same
  obtain ⟨front, back, rfl, -, behind⟩ := List.map_eq_append_iff.mp (same.trans List.map_append)
  rw [List.map_cons] at behind
  obtain ⟨deep, stars, rfl, isDeep, areStars⟩ := List.map_eq_cons_iff.mp behind
  have isDeep := ofText?_eq_anyDepth_iff.mpr rfl ▸ isDeep
  cases Option.some.inj isDeep
  have all : ∀ star ∈ stars, star = .anyName := by
    intro star member
    have inTexts : some star ∈ stars.map some := List.mem_map_of_mem member
    rw [areStars] at inTexts
    obtain ⟨text, inStars, isStar⟩ := List.mem_map.mp inTexts
    have lone := List.mem_takeWhile_imp (List.mem_reverse.mp inStars)
    rw [decide_eq_true_eq] at lone
    rw [lone, ofText?_eq_anyName_iff.mpr rfl] at isStar
    exact (Option.some.inj isStar).symm
  obtain ⟨others, collapsed⟩ := exists_collapse_stars all front
  exact ⟨others, stars, collapsed, all⟩

end Exclusion

end DependencyAudit
