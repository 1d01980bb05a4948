import DependencyAudit.Exclusion.Excluder
import DependencyAudit.Proofs.Exclusion.Glob
import Mathlib.Data.List.Basic

namespace DependencyAudit.Exclusion

open Regex

/-- A segment that holds no brackets. -/
def Segment.IsPlain : Segment → Prop
  | glob items => ∀ item ∈ items, item.IsPlain
  | anyDepth | anyName => True

/-- The text of a path by its names. -/
def pathText (names : List String) : List Char := (String.intercalate "/" names).toList

theorem pathText_singleton (name : String) : pathText [name] = name.toList := by
  rw [pathText, String.intercalate_singleton]

theorem pathText_append {names more : List String} (nonempty : names ≠ []) (someMore : more ≠ []) :
    pathText (names ++ more) = pathText names ++ '/' :: pathText more := by
  simp only [pathText, String.intercalate_append_of_ne_nil nonempty someMore, String.toList_append,
    List.append_assoc]
  rfl

theorem pathText_ne_nil {names : List String} (nonempty : names ≠ []) (areNames : ∀ n ∈ names, n ≠ "") :
    pathText names ≠ [] := by
  cases names with
  | nil => exact absurd rfl nonempty
  | cons first rest =>
    have here : first.toList ≠ [] := fun empty =>
      areNames first List.mem_cons_self (String.toList_eq_nil_iff.mp empty)
    cases rest with
    | nil => rwa [pathText_singleton]
    | cons second rest =>
      rw [← List.singleton_append, pathText_append (by simp) (by simp), pathText_singleton]
      simp

/-- The text ends in a slash, unless it is empty. -/
def EndsInSlash (s : List Char) : Prop := ∀ before c, s = before ++ [c] → c = '/'

theorem EndsInSlash.of_suffix {s rest : List Char} (ends : EndsInSlash s) (suffix : rest <:+ s) :
    EndsInSlash rest := by
  obtain ⟨taken, rfl⟩ := suffix
  intro before c same
  refine ends (taken ++ before) c ?_
  rw [same, List.append_assoc]

theorem EndsInSlash.eq_nil_of_not_mem {s : List Char} (ends : EndsInSlash s)
    (noSlash : '/' ∉ s) : s = [] := by
  rcases List.eq_nil_or_concat' s with rfl | ⟨before, c, rfl⟩
  · rfl
  · have slash := ends before c rfl
    subst slash
    simp at noSlash

/-- The text of a path with a real name at its end does not end in a slash. -/
theorem not_endsInSlash_pathText {names : List String} (nonempty : names ≠ [])
    (areNames : ∀ n ∈ names, n ≠ "" ∧ '/' ∉ n.toList) (s : List Char) :
    ¬ EndsInSlash (s ++ pathText names) := by
  intro ends
  obtain ⟨before, last, rfl⟩ := (List.eq_nil_or_concat' names).resolve_left nonempty
  obtain ⟨nonempty, noSlash⟩ := areNames last (by simp)
  have suffix : last.toList <:+ s ++ pathText (before ++ [last]) := by
    refine List.IsSuffix.trans ?_ (List.suffix_append _ _)
    by_cases alone : before = []
    · have whole : pathText (before ++ [last]) = last.toList := by
        rw [alone, List.nil_append, pathText_singleton]
      exact whole ▸ List.suffix_refl _
    · rw [pathText_append alone (by simp), pathText_singleton]
      exact (List.suffix_cons _ _).trans (List.suffix_append _ _)
  have empty := (ends.of_suffix suffix).eq_nil_of_not_mem noSlash
  exact nonempty (String.toList_eq_nil_iff.mp empty)

/-- The slash before the next name, where there is one. -/
def lead (needsSlash : Bool) : List Char := if needsSlash then ['/'] else []

theorem mem_rests_char {c : Char} {s rest : List Char} :
    rest ∈ (char c).rests s ↔ s = c :: rest := by
  rw [char, mem_rests_one]
  constructor
  · intro holds
    obtain ⟨other, rfl, same⟩ := holds
    rw [beq_iff_eq.mp same]
  · intro same
    exact ⟨c, same, beq_self_eq_true c⟩

theorem mem_rests_lead {needsSlash : Bool} {s rest : List Char} :
    rest ∈ (if needsSlash then char '/' else empty).rests s ↔ s = lead needsSlash ++ rest := by
  cases needsSlash with
  | true => exact mem_rests_char
  | false => simp [rests, lead, eq_comm]

theorem isLocal_lead (needsSlash : Bool) :
    (if needsSlash then char '/' else empty).IsLocal := by
  cases needsSlash <;> trivial

/-- What stands for a name takes a name. -/
theorem mem_rests_name {needsSlash : Bool} {s rest : List Char} :
    rest ∈ ((if needsSlash then char '/' else empty) ++ atLeastOne notSlash).rests s ↔
      ∃ name : String, (name ≠ "" ∧ '/' ∉ name.toList) ∧
        s = lead needsSlash ++ name.toList ++ rest := by
  simp only [mem_rests_append, mem_rests_lead, mem_rests_atLeastOne]
  constructor
  · intro holds
    obtain ⟨_, rfl, run, nonempty, rfl, all⟩ := holds
    refine ⟨String.ofList run, ⟨?_, ?_⟩, by rw [String.toList_ofList, List.append_assoc]⟩
    · intro empty
      exact nonempty (by simpa using congrArg String.toList empty)
    · rw [String.toList_ofList]
      exact fun member => bne_iff_ne.mp (all _ member) rfl
  · intro holds
    obtain ⟨name, ⟨nonempty, noSlash⟩, rfl⟩ := holds
    refine ⟨name.toList ++ rest, by rw [List.append_assoc], name.toList, ?_, rfl, ?_⟩
    · exact fun empty => nonempty (String.toList_eq_nil_iff.mp empty)
    · exact fun c member => bne_iff_ne.mpr fun same => noSlash (same ▸ member)

theorem exists_rests_append {first second : Regex} {s : List Char} :
    (∃ rest, rest ∈ (first ++ second).rests s) ↔
      ∃ middle ∈ first.rests s, ∃ rest, rest ∈ second.rests middle := by
  simp only [mem_rests_append]
  exact ⟨fun ⟨rest, middle, start, ends⟩ => ⟨middle, start, rest, ends⟩,
    fun ⟨middle, start, rest, ends⟩ => ⟨rest, middle, start, ends⟩⟩

/-- What stands for any number of names before the first one takes these with the slash after
them. -/
theorem mem_rests_leading {s rest : List Char} :
    rest ∈ (optional (atLeastOne notLineFeed ++ char '/')).rests s ↔
      (∃ run, run ≠ [] ∧ '\n' ∉ run ∧ s = run ++ '/' :: rest) ∨ rest = s := by
  simp only [mem_rests_optional, mem_rests_append, mem_rests_atLeastOne, mem_rests_char]
  refine or_congr_left ⟨?_, ?_⟩
  · intro holds
    obtain ⟨_, ⟨run, nonempty, rfl, all⟩, rfl⟩ := holds
    exact ⟨run, nonempty, fun member => bne_iff_ne.mp (all _ member) rfl, rfl⟩
  · intro holds
    obtain ⟨run, nonempty, oneLine, rfl⟩ := holds
    refine ⟨_, ⟨run, nonempty, rfl, fun c member => bne_iff_ne.mpr fun same => ?_⟩, rfl⟩
    exact oneLine (same ▸ member)

/-- What stands for any number of names between others takes these with the slash before them. -/
theorem mem_rests_between {s rest : List Char} :
    rest ∈ (optional (char '/' ++ atLeastOne notLineFeed)).rests s ↔
      (∃ run, run ≠ [] ∧ '\n' ∉ run ∧ s = '/' :: run ++ rest) ∨ rest = s := by
  simp only [mem_rests_optional, mem_rests_append, mem_rests_atLeastOne, mem_rests_char]
  refine or_congr_left ⟨?_, ?_⟩
  · intro holds
    obtain ⟨_, rfl, run, nonempty, rfl, all⟩ := holds
    exact ⟨run, nonempty, fun member => bne_iff_ne.mp (all _ member) rfl, rfl⟩
  · intro holds
    obtain ⟨run, nonempty, oneLine, rfl⟩ := holds
    refine ⟨_, rfl, run, nonempty, rfl, fun c member => bne_iff_ne.mpr fun same => ?_⟩
    exact oneLine (same ▸ member)

/-- After the name that a closing star takes, the text ends, with a slash or without. -/
theorem exists_rests_end {s : List Char} (oneLine : '\n' ∉ s) :
    (∃ rest, rest ∈ (optional (char '/') ++ ahead atEnd).rests s) ↔ s = [] ∨ s = ['/'] := by
  have here : ∀ {middle : List Char}, '\n' ∉ middle →
      ((∃ rest, rest ∈ (ahead atEnd).rests middle) ↔ middle = []) := by
    intro middle oneLine
    have notLine : middle ≠ ['\n'] := fun same => oneLine (by simp [same])
    by_cases empty : middle = []
    · simp [rests, atEnd, empty]
    · simp [rests, atEnd, empty, notLine]
  rw [exists_rests_append]
  simp only [mem_rests_optional, mem_rests_char]
  constructor
  · intro holds
    obtain ⟨middle, rfl | rfl, ends⟩ := holds
    · simp only [List.mem_cons, not_or] at oneLine
      rw [(here oneLine.2).mp ends]
      exact .inr rfl
    · exact .inl ((here oneLine).mp ends)
  · intro holds
    rcases holds with rfl | rfl
    · exact ⟨[], .inr rfl, (here (by simp)).mpr rfl⟩
    · exact ⟨[], .inl rfl, (here (by simp)).mpr rfl⟩

/-- Stars at the end of a pattern take as many names as there are stars. -/
theorem exists_rests_stars {stars : List Segment} (nonempty : stars ≠ [])
    (all : ∀ star ∈ stars, star = .anyName) {isFirst needsSlash : Bool} {r : Regex}
    (built : segmentsRegex? isFirst needsSlash stars = .some r) {s : List Char}
    (oneLine : '\n' ∉ s) :
    (∃ rest, rest ∈ r.rests s) ↔ ∃ names : List String, names.length = stars.length ∧
      (∀ n ∈ names, n ≠ "" ∧ '/' ∉ n.toList) ∧
      ∃ tail, (tail = [] ∨ tail = ['/']) ∧ s = lead needsSlash ++ pathText names ++ tail := by
  induction stars generalizing isFirst needsSlash r s with
  | nil => exact absurd rfl nonempty
  | cons star rest ih =>
    obtain ⟨rfl, allRest⟩ := List.forall_mem_cons.mp all
    rw [segmentsRegex?.eq_5] at built
    split at built
    next alone =>
      cases built
      subst alone
      rw [exists_rests_append]
      simp only [mem_rests_name]
      constructor
      · intro holds
        obtain ⟨middle, ⟨name, isName, rfl⟩, ends⟩ := holds
        have oneLine' : '\n' ∉ middle := fun member => oneLine (List.mem_append_right _ member)
        refine ⟨[name], rfl, by simpa using isName, middle, (exists_rests_end oneLine').mp ends, ?_⟩
        rw [pathText_singleton]
      · intro holds
        obtain ⟨names, one, areNames, tail, shape, rfl⟩ := holds
        obtain ⟨name, rfl⟩ := List.length_eq_one_iff.mp one
        refine ⟨tail, ⟨name, areNames name (by simp), by rw [pathText_singleton]⟩, ?_⟩
        refine (exists_rests_end ?_).mpr shape
        exact fun member => oneLine (List.mem_append_right _ member)
    next more =>
      obtain ⟨others, later, built⟩ := Option.bind_eq_some_iff.mp built
      cases built
      rw [exists_rests_append]
      simp only [mem_rests_name]
      constructor
      · intro holds
        obtain ⟨middle, ⟨name, isName, rfl⟩, ends⟩ := holds
        have oneLine' : '\n' ∉ middle := fun member => oneLine (List.mem_append_right _ member)
        obtain ⟨names, size, areNames, tail, shape, rfl⟩ := (ih more allRest later oneLine').mp ends
        have someNames : names ≠ [] := fun empty => more (by simpa [empty] using size.symm)
        refine ⟨name :: names, by rw [List.length_cons, size, List.length_cons],
          List.forall_mem_cons.mpr ⟨isName, areNames⟩, tail, shape, ?_⟩
        rw [← List.singleton_append, pathText_append (by simp) someNames, pathText_singleton]
        simp [lead]
      · intro holds
        obtain ⟨names, size, areNames, tail, shape, rfl⟩ := holds
        cases names with
        | nil => simp at size
        | cons name names =>
          obtain ⟨isName, areNames⟩ := List.forall_mem_cons.mp areNames
          simp only [List.length_cons, Nat.add_right_cancel_iff] at size
          have someNames : names ≠ [] := fun empty => more (by simpa [empty] using size.symm)
          have cut : lead needsSlash ++ pathText (name :: names) ++ tail =
              lead needsSlash ++ name.toList ++ (lead true ++ pathText names ++ tail) := by
            rw [← List.singleton_append, pathText_append (by simp) someNames, pathText_singleton]
            simp [lead]
          rw [cut] at oneLine ⊢
          refine ⟨lead true ++ pathText names ++ tail, ⟨name, isName, rfl⟩, ?_⟩
          refine (ih more allRest later ?_).mpr ⟨names, size, areNames, tail, shape, rfl⟩
          exact fun member => oneLine (List.mem_append_right _ member)

/-- Segments with a closing star for a single name match what is below a directory only if stars
alone lead to it from `**`. -/
def ReachesBelow (segments : List Segment) : Prop :=
  segments.getLast? = some .anyName →
    ∃ before stars, segments = before ++ .anyDepth :: stars ∧ ∀ star ∈ stars, star = .anyName

theorem ReachesBelow.tail {first : Segment} {rest : List Segment}
    (reaches : ReachesBelow (first :: rest)) :
    ReachesBelow rest ∨
      first = .anyDepth ∧ rest ≠ [] ∧ ∀ star ∈ rest, star = .anyName := by
  by_cases alone : rest = []
  · subst alone
    exact .inl fun last => by cases last
  by_cases last : rest.getLast? = some .anyName
  · have whole : (first :: rest).getLast? = some .anyName := by
      rw [← last, List.getLast?_cons, List.getLast?_eq_some_getLast alone]
      rfl
    obtain ⟨before, stars, shape, all⟩ := reaches whole
    cases before with
    | nil =>
      obtain ⟨rfl, rfl⟩ := List.cons.inj shape
      exact .inr ⟨rfl, alone, all⟩
    | cons other before =>
      obtain ⟨rfl, rfl⟩ := List.cons.inj shape
      exact .inl fun _ => ⟨before, stars, rfl, all⟩
  · exact .inl fun same => absurd same last

/-- Names and those below them: the last ones of all are as many as the former, and some are left
before them. -/
theorem exists_shift (names : List String) {below : List String} (nonempty : below ≠ []) :
    ∃ before after, before ≠ [] ∧ after.length = names.length ∧
      names ++ below = before ++ after := by
  refine ⟨(names ++ below).take below.length, (names ++ below).drop below.length, ?_, ?_,
    (List.take_append_drop _ _).symm⟩
  · have positive := List.length_pos_iff.mpr nonempty
    intro empty
    have size := congrArg List.length empty
    simp only [List.length_take, List.length_append, List.length_nil] at size
    omega
  · simp only [List.length_drop, List.length_append]
    omega

section

variable {below : List String} {s : List Char}

theorem not_mem_of_suffix {c : Char} {more middle : List Char} (suffix : middle <:+ s)
    (absent : c ∉ s ++ more) : c ∉ middle ++ more := by
  obtain ⟨taken, rfl⟩ := suffix
  rw [List.append_assoc] at absent
  exact fun member => absent (List.mem_append_right _ member)

/-- What is left of a directory's text goes on with the text of what is below. -/
theorem exists_rests_append_below {front others : Regex} (isLocal : front.IsLocal)
    (ends : EndsInSlash s) (oneLine : '\n' ∉ s ++ pathText below)
    (later : ∀ {middle : List Char}, EndsInSlash middle → '\n' ∉ middle ++ pathText below →
      (∃ rest, rest ∈ others.rests middle) →
        ∃ rest, rest ∈ others.rests (middle ++ pathText below))
    (found : ∃ rest, rest ∈ (front ++ others).rests s) :
    ∃ rest, rest ∈ (front ++ others).rests (s ++ pathText below) := by
  rw [exists_rests_append] at found ⊢
  obtain ⟨middle, start, goesOn⟩ := found
  have suffix := suffix_of_mem_rests start
  refine ⟨middle ++ pathText below, (mem_rests_append_right isLocal).mpr start, ?_⟩
  exact later (ends.of_suffix suffix) (not_mem_of_suffix suffix oneLine) goesOn

/-- Stars that take the last names of a directory take the last names of a path below it as well,
and there is a way to these that goes at least one name further down. -/
theorem exists_way_of_stars {stars : List Segment} (nonempty : stars ≠ [])
    (all : ∀ star ∈ stars, star = .anyName) {isFirst needsSlash : Bool} {r : Regex}
    (built : segmentsRegex? isFirst needsSlash stars = .some r) (ends : EndsInSlash s)
    (oneLine : '\n' ∉ s ++ pathText below) (someBelow : below ≠ [])
    (areNames : ∀ n ∈ below, n ≠ "" ∧ '/' ∉ n.toList) (found : ∃ rest, rest ∈ r.rests s) :
    ∃ way after, way ≠ [] ∧ s ++ pathText below = lead needsSlash ++ way ++ '/' :: after ∧
      ∃ rest, rest ∈ r.rests (lead needsSlash ++ after) := by
  have oneLine' : '\n' ∉ s := fun member => oneLine (List.mem_append_left _ member)
  obtain ⟨names, size, names', tail, shape, rfl⟩ :=
    (exists_rests_stars nonempty all built oneLine').mp found
  have someNames : names ≠ [] := fun empty => nonempty (by simpa [empty] using size.symm)
  have slash : tail = ['/'] := by
    refine shape.resolve_left fun empty => ?_
    rw [empty, List.append_nil] at ends
    exact not_endsInSlash_pathText someNames names' _ ends
  subst slash
  obtain ⟨before, after, someBefore, sizeAfter, shift⟩ := exists_shift names someBelow
  have someAfter : after ≠ [] := by
    intro empty
    rw [empty] at sizeAfter
    exact someNames (List.length_eq_zero_iff.mp sizeAfter.symm)
  have areAll : ∀ n ∈ before ++ after, n ≠ "" ∧ '/' ∉ n.toList := by
    rw [← shift]
    exact fun n member => (List.mem_append.mp member).elim (names' n) (areNames n)
  have whole : lead needsSlash ++ pathText names ++ ['/'] ++ pathText below =
      lead needsSlash ++ pathText before ++ '/' :: pathText after := by
    simp only [List.append_assoc, List.singleton_append]
    rw [← pathText_append someNames someBelow, shift, pathText_append someBefore someAfter]
  refine ⟨pathText before, pathText after, pathText_ne_nil someBefore ?_, whole, ?_⟩
  · exact fun n member => (areAll n (List.mem_append_left _ member)).1
  rw [whole] at oneLine
  refine (exists_rests_stars nonempty all built ?_).mpr
    ⟨after, sizeAfter.trans size, ?_, [], .inl rfl, ?_⟩
  · simp only [List.mem_append, List.mem_cons, not_or] at oneLine ⊢
    exact ⟨oneLine.1.1, oneLine.2.2⟩
  · exact fun n member => areAll n (List.mem_append_right _ member)
  · rw [List.append_nil]

/-- Where only stars follow a leading `**`, it takes the way to the last names below. -/
theorem exists_rests_leading_of_stars {stars : List Segment} (nonempty : stars ≠ [])
    (all : ∀ star ∈ stars, star = .anyName) {others : Regex}
    (built : segmentsRegex? false false stars = .some others) (ends : EndsInSlash s)
    (oneLine : '\n' ∉ s ++ pathText below) (someBelow : below ≠ [])
    (areNames : ∀ n ∈ below, n ≠ "" ∧ '/' ∉ n.toList)
    (found : ∃ rest, rest ∈
      (optional (atLeastOne notLineFeed ++ char '/') ++ others).rests s) :
    ∃ rest, rest ∈ (optional (atLeastOne notLineFeed ++ char '/') ++ others).rests
      (s ++ pathText below) := by
  rw [exists_rests_append] at found ⊢
  obtain ⟨middle, start, goesOn⟩ := found
  have suffix := suffix_of_mem_rests start
  obtain ⟨way, after, someWay, cut, again⟩ := exists_way_of_stars nonempty all built
    (ends.of_suffix suffix) (not_mem_of_suffix suffix oneLine) someBelow areNames goesOn
  refine ⟨after, mem_rests_leading.mpr (.inl ?_), again⟩
  obtain ⟨run, someRun, whole⟩ : ∃ run, run ≠ [] ∧ s ++ pathText below = run ++ '/' :: after := by
    rcases mem_rests_leading.mp start with ⟨run, _, _, rfl⟩ | rfl
    · refine ⟨run ++ '/' :: way, by simp, ?_⟩
      simp [cut, lead]
    · exact ⟨way, someWay, cut⟩
  rw [whole] at oneLine
  exact ⟨run, someRun, fun member => oneLine (List.mem_append_left _ member), whole⟩

/-- Where only stars follow a `**` between names, it takes the way to the last names below. -/
theorem exists_rests_between_of_stars {stars : List Segment} (nonempty : stars ≠ [])
    (all : ∀ star ∈ stars, star = .anyName) {others : Regex}
    (built : segmentsRegex? false true stars = .some others) (ends : EndsInSlash s)
    (oneLine : '\n' ∉ s ++ pathText below) (someBelow : below ≠ [])
    (areNames : ∀ n ∈ below, n ≠ "" ∧ '/' ∉ n.toList)
    (found : ∃ rest, rest ∈
      (optional (char '/' ++ atLeastOne notLineFeed) ++ others).rests s) :
    ∃ rest, rest ∈ (optional (char '/' ++ atLeastOne notLineFeed) ++ others).rests
      (s ++ pathText below) := by
  rw [exists_rests_append] at found ⊢
  obtain ⟨middle, start, goesOn⟩ := found
  have suffix := suffix_of_mem_rests start
  obtain ⟨way, after, someWay, cut, again⟩ := exists_way_of_stars nonempty all built
    (ends.of_suffix suffix) (not_mem_of_suffix suffix oneLine) someBelow areNames goesOn
  refine ⟨lead true ++ after, mem_rests_between.mpr (.inl ?_), again⟩
  obtain ⟨run, someRun, whole⟩ :
      ∃ run, run ≠ [] ∧ s ++ pathText below = '/' :: run ++ (lead true ++ after) := by
    rcases mem_rests_between.mp start with ⟨run, _, _, rfl⟩ | rfl
    · refine ⟨run ++ '/' :: way, by simp, ?_⟩
      simp [cut, lead]
    · exact ⟨way, someWay, by simpa [lead] using cut⟩
  rw [whole] at oneLine
  refine ⟨run, someRun, fun member => oneLine ?_, whole⟩
  exact List.mem_append_left _ (List.mem_cons_of_mem _ member)

theorem getLast?_ne_of_cons {first segment : Segment} {rest : List Segment}
    (last : (first :: rest).getLast? ≠ some segment) : rest.getLast? ≠ some segment := by
  cases rest with
  | nil => simp
  | cons second rest => rwa [List.getLast?_cons_cons] at last

/-- A glob at the end of a pattern leaves the slash after the name of the directory to what is
below, unless it takes nothing; then it takes the next name. -/
theorem exists_rests_below_of_glob {needsSlash : Bool} {items : List GlobItem} {own : Regex}
    (built : globRegex? items = some own) (plain : ∀ item ∈ items, item.IsPlain)
    (nonempty : items ≠ []) (ends : EndsInSlash s) (oneLine : '\n' ∉ s ++ pathText below)
    (someBelow : below ≠ []) (areNames : ∀ n ∈ below, n ≠ "" ∧ '/' ∉ n.toList)
    (found : ∃ rest, rest ∈
      ((if needsSlash then char '/' else empty) ++ own ++ ahead atSegmentEnd).rests s) :
    ∃ rest, rest ∈ ((if needsSlash then char '/' else empty) ++ own ++
      ahead atSegmentEnd).rests (s ++ pathText below) := by
  rw [exists_rests_append] at found ⊢
  obtain ⟨middle, start, rest, stands⟩ := found
  have atEnd : atSegmentEnd middle := by
    by_contra other
    simp [rests, other] at stands
  have goesOn : ∀ {tail : List Char}, tail = [] ∨ tail.head? = .some '/' →
      ∃ rest, rest ∈ (ahead atSegmentEnd).rests tail := by
    intro tail shape
    refine ⟨tail, ?_⟩
    rcases shape with rfl | slash
    · simp [rests, atSegmentEnd, Exclusion.atEnd]
    · simp [rests, atSegmentEnd, slash]
  have isLocal : ((if needsSlash then char '/' else empty) ++ own).IsLocal :=
    ⟨isLocal_lead needsSlash, isLocal_globRegex? built⟩
  cases middle with
  | cons c tail =>
    refine ⟨c :: tail ++ pathText below, (mem_rests_append_right isLocal).mpr start, goesOn (.inr ?_)⟩
    have member : c ∈ s := (suffix_of_mem_rests start).subset List.mem_cons_self
    have notLine : c ≠ '\n' := fun same => oneLine (List.mem_append_left _ (same ▸ member))
    simpa [atSegmentEnd, Exclusion.atEnd, notLine] using atEnd
  | nil =>
    obtain ⟨afterLead, leads, takes⟩ := mem_rests_append.mp start
    rw [mem_rests_lead] at leads
    subst leads
    -- The glob has taken what is left of the text, which cannot be a name with no slash after it.
    obtain ⟨taken, same, inName⟩ := exists_taken_of_mem_rests (takesOnly_globRegex? built plain) takes
    have nothing : afterLead = [] := by
      refine (ends.of_suffix (List.suffix_append _ _)).eq_nil_of_not_mem fun member => ?_
      rw [same, List.append_nil] at member
      exact inName _ member rfl
    subst nothing
    obtain ⟨first, more, rfl⟩ := List.exists_cons_of_ne_nil someBelow
    obtain ⟨tail, cut, shape⟩ : ∃ tail, pathText (first :: more) = first.toList ++ tail ∧
        (tail = [] ∨ tail.head? = .some '/') := by
      cases more with
      | nil => exact ⟨[], by rw [pathText_singleton, List.append_nil], .inl rfl⟩
      | cons second more =>
        refine ⟨'/' :: pathText (second :: more), ?_, .inr rfl⟩
        rw [← List.singleton_append, pathText_append (by simp) (by simp), pathText_singleton]
    refine ⟨tail, mem_rests_append.mpr ⟨pathText (first :: more), ?_, ?_⟩, goesOn shape⟩
    · rw [mem_rests_lead, List.append_nil]
    · rw [cut]
      exact takes_name_of_takes_nothing built plain nonempty takes (areNames first List.mem_cons_self).2

/-- Segments that match a directory match every path below it. -/
theorem exists_rests_below {isFirst needsSlash : Bool} {segments : List Segment} {r : Regex}
    (built : segmentsRegex? isFirst needsSlash segments = some r)
    (plain : ∀ segment ∈ segments, segment.IsPlain) (last : segments.getLast? ≠ some (.glob []))
    (reaches : ReachesBelow segments) (ends : EndsInSlash s) (oneLine : '\n' ∉ s ++ pathText below)
    (someBelow : below ≠ []) (areNames : ∀ n ∈ below, n ≠ "" ∧ '/' ∉ n.toList)
    (found : ∃ rest, rest ∈ r.rests s) : ∃ rest, rest ∈ r.rests (s ++ pathText below) := by
  induction isFirst, needsSlash, segments using segmentsRegex?.induct generalizing r s with
  | case1 isFirst needsSlash =>
    cases built
    exact ⟨_, List.mem_singleton_self _⟩
  | case2 needsSlash =>
    cases built
    obtain ⟨rest, slash⟩ := found
    rw [mem_rests_char] at slash
    exact ⟨rest ++ pathText below, mem_rests_char.mpr (by rw [slash, List.cons_append])⟩
  | case3 needsSlash rest ih =>
    rw [segmentsRegex?.eq_3] at built
    obtain ⟨others, later, built⟩ := Option.bind_eq_some_iff.mp built
    cases built
    obtain ⟨_, plainRest⟩ := List.forall_mem_cons.mp plain
    rcases reaches.tail with tail | ⟨-, more, stars⟩
    · refine exists_rests_append_below ⟨⟨trivial, trivial⟩, trivial⟩ ends oneLine ?_ found
      intro middle ends oneLine
      exact ih later plainRest (getLast?_ne_of_cons last) tail ends oneLine
    · exact exists_rests_leading_of_stars more stars later ends oneLine someBelow areNames found
  | case4 needsSlash rest more ih =>
    rw [segmentsRegex?.eq_4 _ _ more] at built
    obtain ⟨others, later, built⟩ := Option.bind_eq_some_iff.mp built
    cases built
    obtain ⟨_, plainRest⟩ := List.forall_mem_cons.mp plain
    rcases reaches.tail with tail | ⟨-, more, stars⟩
    · refine exists_rests_append_below ⟨trivial, ⟨trivial, trivial⟩⟩ ends oneLine ?_ found
      intro middle ends oneLine
      exact ih later plainRest (getLast?_ne_of_cons last) tail ends oneLine
    · exact exists_rests_between_of_stars more stars later ends oneLine someBelow areNames found
  | case5 isFirst needsSlash =>
    obtain ⟨before, stars, shape, _⟩ := reaches rfl
    have member : Segment.anyDepth ∈ [Segment.anyName] := by
      rw [shape]
      simp
    simp at member
  | case6 isFirst needsSlash rest more ih =>
    rw [segmentsRegex?.eq_5, if_neg more] at built
    obtain ⟨others, later, built⟩ := Option.bind_eq_some_iff.mp built
    cases built
    obtain ⟨_, plainRest⟩ := List.forall_mem_cons.mp plain
    have tail := reaches.tail.resolve_right (by simp)
    refine exists_rests_append_below ⟨isLocal_lead needsSlash, trivial, trivial⟩ ends oneLine ?_ found
    intro middle ends oneLine
    exact ih later plainRest (getLast?_ne_of_cons last) tail ends oneLine
  | case7 isFirst needsSlash items rest ih =>
    rw [segmentsRegex?.eq_6] at built
    obtain ⟨own, own', built⟩ := Option.bind_eq_some_iff.mp built
    obtain ⟨here, plainRest⟩ := List.forall_mem_cons.mp plain
    dsimp only at built
    split at built
    next alone =>
      cases built
      subst alone
      have nonempty : items ≠ [] := fun empty => last (by rw [empty]; rfl)
      exact exists_rests_below_of_glob own' here nonempty ends oneLine someBelow areNames found
    next more =>
      obtain ⟨others, later, built⟩ := Option.bind_eq_some_iff.mp built
      cases built
      have tail := reaches.tail.resolve_right (by simp)
      refine exists_rests_append_below ⟨isLocal_lead needsSlash, isLocal_globRegex? own'⟩ ends
        oneLine ?_ found
      intro middle ends oneLine
      exact ih later plainRest (getLast?_ne_of_cons last) tail ends oneLine

end

end DependencyAudit.Exclusion
