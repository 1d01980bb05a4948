import DependencyAudit.Proofs.Terminal.Markup
import Mathlib.Data.List.Induction
import Mathlib.Data.List.TakeWhile

namespace DependencyAudit.Terminal

/-- What is seen of a text with markup where its tags can be read. -/
def visible (s : List Char) : List Char :=
  match s with
  | [] => []
  | c :: rest =>
    let slashes := ((c :: rest).takeWhile (· == '\\')).length
    match _found : nextTag? (c :: rest) with
    | some tagged =>
      List.replicate (slashes / 2) '\\' ++
        ((if slashes % 2 = 1 then '[' :: tagged.1 ++ [']'] else []) ++ visible tagged.2)
    | none =>
      if c = '\\' ∧ rest.head? = some '[' then '[' :: visible rest.tail else c :: visible rest
termination_by s.length
decreasing_by
  · exact length_lt_of_nextTag? _found
  · simp only [List.length_cons]
    have := List.length_tail (l := rest)
    omega
  · simp

/-- No bracket in the text opens a tag, and none stands behind a backslash. -/
def Verbatim (s : List Char) : Prop :=
  ∀ before inner, s = before ++ '[' :: inner → tag? inner = none ∧ before.getLast? ≠ some '\\'

section

variable {c : Char} {s rest inner tag after out : List Char}

@[simp] theorem visible_nil : visible [] = [] := by rw [visible]

theorem visible_of_tag (found : nextTag? s = some (tag, after)) :
    visible s = List.replicate ((s.takeWhile (· == '\\')).length / 2) '\\' ++
      ((if (s.takeWhile (· == '\\')).length % 2 = 1 then '[' :: tag ++ [']'] else []) ++
        visible after) := by
  cases s with
  | nil => cases found
  | cons c rest =>
    rw [visible]
    split
    next tagged found' =>
      cases found.symm.trans found'
      rfl
    next noTag => rw [noTag] at found; cases found

/-- A tag without backslashes before it is not seen. -/
theorem visible_bracket (found : tag? inner = some (tag, after)) :
    visible ('[' :: inner) = visible after := by
  have next : nextTag? ('[' :: inner) = some (tag, after) := found
  rw [visible_of_tag next]
  simp

theorem visible_of_held (noTag : nextTag? ('\\' :: '[' :: rest) = none) :
    visible ('\\' :: '[' :: rest) = '[' :: visible rest := by
  rw [visible]
  split
  next found => rw [noTag] at found; cases found
  · rfl

theorem visible_cons (noTag : nextTag? (c :: rest) = none)
    (notHeld : ¬ (c = '\\' ∧ rest.head? = some '[')) : visible (c :: rest) = c :: visible rest := by
  rw [visible]
  split
  next found => rw [noTag] at found; cases found
  · rw [if_neg notHeld]

/-- What is shown of a text is what is seen of it. -/
theorem eq_visible [Platform] {opened : List OpenTag} {position : Nat}
    (shows : shownFrom position opened s = .ok out) : out = visible s := by
  induction s using visible.induct generalizing position opened out with
  | case1 =>
    rw [shownFrom] at shows
    cases shows
    rw [visible_nil]
  | case2 c rest tagged found ih =>
    rw [shownFrom_of_tag found] at shows
    rw [visible_of_tag found]
    dsimp only at shows
    split at shows
    next odd =>
      obtain ⟨shown, later, rfl⟩ := Except.map_eq_ok_iff.mp shows
      rw [ih later, if_pos odd]
      simp
    next even =>
      obtain ⟨opened', -, shows⟩ := Except.bind_eq_ok_iff.mp shows
      obtain ⟨shown, later, rfl⟩ := Except.map_eq_ok_iff.mp shows
      rw [ih later, if_neg even]
      rfl
  | case3 c rest noTag held ih =>
    obtain ⟨rfl, first⟩ := held
    obtain ⟨more, rfl⟩ := List.head?_eq_some_iff.mp first
    rw [shownFrom_of_held noTag] at shows
    obtain ⟨shown, later, rfl⟩ := Except.map_eq_ok_iff.mp shows
    rw [visible_of_held noTag, ih later]
    rfl
  | case4 c rest noTag notHeld ih =>
    rw [shownFrom_cons noTag notHeld] at shows
    obtain ⟨shown, later, rfl⟩ := Except.map_eq_ok_iff.mp shows
    rw [visible_cons noTag notHeld, ih later]

theorem tag?_eq_some_iff : tag? s = some (tag, after) ↔ ∃ c inside, tag = c :: inside ∧
    startsTag c ∧ (∀ d ∈ inside, (d != ']' && d != '[') = true) ∧
      s = c :: (inside ++ ']' :: after) := by
  constructor
  · intro found
    cases s with
    | nil => cases found
    | cons c tail =>
      simp only [tag?] at found
      split at found
      next starts =>
        split at found
        next afterwards shape =>
          cases found
          refine ⟨c, _, rfl, starts, fun d => List.mem_takeWhile_imp, ?_⟩
          rw [← shape, List.takeWhile_append_dropWhile]
        · cases found
      · cases found
  · rintro ⟨c, inside, rfl, starts, inner, rfl⟩
    exact tag?_of_closed starts inner

theorem isInside_of_startsTag (starts : startsTag c = true) : (c != ']' && c != '[') = true := by
  by_contra bracket
  have cases : c = ']' ∨ c = '[' := by
    by_contra other
    exact bracket (by simpa [not_or] using other)
  rcases cases with rfl | rfl <;> cases starts

theorem nextTag?_eq_some (found : nextTag? s = some (tag, after)) :
    ∃ inner, s = s.takeWhile (· == '\\') ++ '[' :: inner ∧ tag? inner = some (tag, after) := by
  unfold nextTag? at found
  split at found
  next inner shape => exact ⟨inner, by rw [← shape, List.takeWhile_append_dropWhile], found⟩
  · cases found

theorem shape_of_nextTag? (found : nextTag? s = some (tag, after)) :
    s = s.takeWhile (· == '\\') ++ '[' :: (tag ++ ']' :: after) := by
  obtain ⟨inner, shape, tagged⟩ := nextTag?_eq_some found
  obtain ⟨c, inside, rfl, -, -, rfl⟩ := tag?_eq_some_iff.mp tagged
  exact shape

theorem suffix_of_nextTag? (found : nextTag? s = some (tag, after)) : after <:+ s :=
  ⟨s.takeWhile (· == '\\') ++ '[' :: tag ++ [']'], by
    rw [List.append_assoc, List.append_assoc]
    exact (shape_of_nextTag? found).symm⟩

namespace Verbatim

theorem tail (verbatim : Verbatim (c :: rest)) : Verbatim rest := by
  rintro before inner rfl
  obtain ⟨noTag, notHeld⟩ := verbatim (c :: before) inner rfl
  refine ⟨noTag, fun last => notHeld ?_⟩
  rw [List.getLast?_cons, last]
  rfl

theorem nextTag?_eq_none (verbatim : Verbatim s) : nextTag? s = none := by
  cases found : nextTag? s with
  | none => rfl
  | some tagged =>
    obtain ⟨inner, shape, tagged⟩ := nextTag?_eq_some found
    rw [(verbatim _ inner shape).1] at tagged
    cases tagged

theorem not_held (verbatim : Verbatim (c :: rest)) : ¬ (c = '\\' ∧ rest.head? = some '[') := by
  rintro ⟨rfl, first⟩
  obtain ⟨inner, rfl⟩ := List.head?_eq_some_iff.mp first
  exact (verbatim ['\\'] inner rfl).2 rfl

theorem of_not_mem (noBracket : '[' ∉ s) : Verbatim s := by
  rintro before inner rfl
  exact absurd (by simp) noBracket

/-- A character in front that neither starts a tag nor holds a bracket. -/
theorem cons (noTag : nextTag? (c :: rest) = none) (notHeld : ¬ (c = '\\' ∧ rest.head? = some '['))
    (later : Verbatim rest) : Verbatim (c :: rest) := by
  intro before inner shape
  cases before with
  | nil =>
    obtain ⟨rfl, rfl⟩ := List.cons.inj shape
    exact ⟨noTag, nofun⟩
  | cons d before =>
    obtain ⟨rfl, rfl⟩ := List.cons.inj shape
    obtain ⟨noTag', notHeld'⟩ := later before inner rfl
    refine ⟨noTag', fun last => ?_⟩
    rw [List.getLast?_cons, Option.some.injEq] at last
    cases atEnd : before.getLast? with
    | none =>
      rw [List.getLast?_eq_none_iff] at atEnd
      subst atEnd
      exact notHeld ⟨last, rfl⟩
    | some d =>
      rw [atEnd] at last
      exact notHeld' (last ▸ atEnd)

end Verbatim

theorem visible_of_verbatim (verbatim : Verbatim s) : visible s = s := by
  induction s with
  | nil => exact visible_nil
  | cons c rest ih =>
    rw [visible_cons verbatim.nextTag?_eq_none verbatim.not_held, ih verbatim.tail]

/-- What is seen of a text is made of its characters. -/
theorem visible_subset (s : List Char) : visible s ⊆ s := by
  induction s using visible.induct with
  | case1 => simp
  | case2 c rest tagged found ih =>
    obtain ⟨tag, after⟩ := tagged
    rw [visible_of_tag found]
    refine List.append_subset.mpr ⟨fun d member => ?_, List.append_subset.mpr ⟨?_, ?_⟩⟩
    · obtain ⟨nonempty, rfl⟩ := List.mem_replicate.mp member
      have slash : ((c :: rest).takeWhile (· == '\\')) ≠ [] := by
        rintro empty
        rw [empty] at nonempty
        exact nonempty rfl
      have first := List.head_mem slash
      have same := List.mem_takeWhile_imp first
      rw [beq_iff_eq] at same
      rw [same] at first
      exact (List.takeWhile_prefix _).subset first
    · have inside : '[' :: tag ++ [']'] ⊆ c :: rest := by
        rw [shape_of_nextTag? found]
        intro d member
        simp only [List.cons_append, List.mem_cons, List.mem_append, List.not_mem_nil,
          or_false] at member ⊢
        tauto
      split
      · exact inside
      · exact List.nil_subset _
    · exact fun d member => (suffix_of_nextTag? found).subset (ih member)
  | case3 c rest noTag held ih =>
    obtain ⟨rfl, first⟩ := held
    obtain ⟨more, rfl⟩ := List.head?_eq_some_iff.mp first
    rw [visible_of_held noTag]
    exact List.Subset.trans (List.cons_subset_cons _ ih) (List.subset_cons_self _ _)
  | case4 c rest noTag notHeld ih =>
    rw [visible_cons noTag notHeld]
    exact List.cons_subset_cons c ih

/-- The characters that markup is written with. -/
def isMark (c : Char) : Bool := c == '[' || c == '\\'

/-- Reading markup leaves marks out: only of a text without any markup all of them are seen. -/
theorem countP_visible (s : List Char) : (visible s).countP isMark ≤ s.countP isMark ∧
    ((visible s).countP isMark = s.countP isMark → Verbatim s) := by
  induction s using visible.induct with
  | case1 => exact ⟨by simp, fun _ => .of_not_mem (by simp)⟩
  | case2 c rest tagged found ih =>
    generalize c :: rest = text at found ⊢
    have slashes : (text.takeWhile (· == '\\')).countP isMark =
        (text.takeWhile (· == '\\')).length :=
      List.countP_eq_length.mpr fun d member => by
        have slash := List.mem_takeWhile_imp member
        rw [beq_iff_eq] at slash
        rw [slash]
        rfl
    have whole := congrArg (List.countP isMark) (shape_of_nextTag? found)
    rw [visible_of_tag found]
    generalize text.takeWhile (· == '\\') = before at whole slashes ⊢
    have bracket : isMark '[' = true := rfl
    have closing : isMark ']' = false := rfl
    have slash : isMark '\\' = true := rfl
    simp only [List.countP_append, List.countP_cons, slashes, bracket, closing, if_true,
      Bool.false_eq_true, if_false, Nat.add_zero] at whole
    by_cases odd : before.length % 2 = 1
    · simp only [if_pos odd, List.countP_append, List.countP_replicate, List.countP_cons, slash,
        bracket, closing, if_true, Bool.false_eq_true, if_false, List.countP_nil]
      omega
    · simp only [if_neg odd, List.countP_append, List.countP_replicate, slash, if_true,
        List.countP_nil]
      omega
  | case3 c rest noTag held ih =>
    obtain ⟨rfl, first⟩ := held
    obtain ⟨more, rfl⟩ := List.head?_eq_some_iff.mp first
    have bracket : isMark '[' = true := rfl
    have slash : isMark '\\' = true := rfl
    rw [visible_of_held noTag]
    simp only [List.tail_cons, List.countP_cons, bracket, slash, if_true] at ih ⊢
    omega
  | case4 c rest noTag notHeld ih =>
    rw [visible_cons noTag notHeld]
    simp only [List.countP_cons, Nat.add_le_add_iff_right, Nat.add_right_cancel_iff]
    exact ⟨ih.1, fun same => .cons noTag notHeld (ih.2 same)⟩

theorem visible_eq_self_iff : visible s = s ↔ Verbatim s :=
  ⟨fun same => (countP_visible s).2 (congrArg (List.countP isMark) same), visible_of_verbatim⟩

/-- No markup begins in the first text and ends in the second. -/
structure Apart (s rest : List Char) : Prop where
  /-- The first bracket of the second text does not close what one of the first text opens. -/
  closes : '[' ∈ s → (rest.dropWhile fun d => d != ']' && d != '[').head? ≠ some ']'
  holds : s.getLast? = some '\\' → ∀ c ∈ rest.head?, c ≠ '\\' ∧ c ≠ '['

theorem tag?_append (found : tag? s = some (tag, after)) (rest : List Char) :
    tag? (s ++ rest) = some (tag, after ++ rest) := by
  obtain ⟨c, inside, same, starts, inner, rfl⟩ := tag?_eq_some_iff.mp found
  exact tag?_eq_some_iff.mpr ⟨c, inside, same, starts, inner, by simp⟩

theorem tag?_append_of_none (noTag : tag? s = none)
    (closes : (rest.dropWhile fun d => d != ']' && d != '[').head? ≠ some ']') :
    tag? (s ++ rest) = none := by
  cases found : tag? (s ++ rest) with
  | none => rfl
  | some tagged =>
    obtain ⟨tag, after⟩ := tagged
    obtain ⟨c, inside, -, starts, inner, shape⟩ := tag?_eq_some_iff.mp found
    have inner' : ∀ d ∈ c :: inside, (d != ']' && d != '[') = true :=
      List.forall_mem_cons.mpr ⟨isInside_of_startsTag starts, inner⟩
    rw [← List.cons_append] at shape
    rcases List.append_eq_append_iff.mp shape with ⟨later, split, rfl⟩ | ⟨more, rfl, split⟩
    · rw [split] at inner'
      have later' := fun d member => inner' d (List.mem_append_right s member)
      rw [List.dropWhile_append_of_pos later'] at closes
      exact absurd rfl closes
    · cases more with
      | nil =>
        rw [List.nil_append] at split
        exact absurd (by rw [← split]; rfl) closes
      | cons d more =>
        obtain ⟨rfl, -⟩ := List.cons.inj split
        rw [List.cons_append, tag?_of_closed starts inner] at noTag
        cases noTag

theorem nextTag?_of_slashes {slashes : List Char} (all : ∀ d ∈ slashes, d = '\\')
    (inner : List Char) : nextTag? (slashes ++ '[' :: inner) = tag? inner := by
  have noBracket : '[' ∉ slashes := fun member => absurd (all _ member) (by decide)
  rw [nextTag?_append_bracket noBracket, if_pos]
  simpa using all

theorem nextTag?_append (found : nextTag? s = some (tag, after)) (rest : List Char) :
    nextTag? (s ++ rest) = some (tag, after ++ rest) := by
  obtain ⟨inner, shape, tagged⟩ := nextTag?_eq_some found
  rw [shape, List.append_assoc, List.cons_append, nextTag?_of_slashes, tag?_append tagged]
  exact fun d member => by simpa using List.mem_takeWhile_imp member

theorem nextTag?_append_of_none (nonempty : s ≠ []) (noTag : nextTag? s = none)
    (apart : Apart s rest) : nextTag? (s ++ rest) = none := by
  cases found : nextTag? (s ++ rest) with
  | none => rfl
  | some tagged =>
    obtain ⟨inner, shape, tagged⟩ := nextTag?_eq_some found
    have slashes : ∀ d ∈ (s ++ rest).takeWhile (· == '\\'), d = '\\' :=
      fun d member => by simpa using List.mem_takeWhile_imp member
    generalize (s ++ rest).takeWhile (· == '\\') = before at shape slashes
    -- Were the first text but backslashes, the second would go on with one or with the bracket.
    have endsInSlash : (∀ d ∈ s, d = '\\') → s.getLast? = some '\\' := fun all => by
      rw [List.getLast?_eq_some_getLast nonempty, all _ (List.getLast_mem nonempty)]
    rcases List.append_eq_append_iff.mp shape with ⟨later, rfl, rfl⟩ | ⟨more, rfl, split⟩
    · have holds := apart.holds (endsInSlash fun d member =>
        slashes d (List.mem_append_left later member))
      cases later with
      | nil => exact absurd rfl (holds '[' rfl).2
      | cons d later => exact absurd (slashes d (by simp)) (holds d rfl).1
    · cases more with
      | nil =>
        rw [List.append_nil] at endsInSlash apart
        have holds := apart.holds (endsInSlash slashes)
        rw [List.nil_append] at split
        exact absurd rfl (holds '[' (by rw [← split]; rfl)).2
      | cons d more =>
        obtain ⟨rfl, same⟩ := List.cons.inj split
        rw [nextTag?_of_slashes slashes] at noTag
        rw [same, List.append_eq, tag?_append_of_none noTag (apart.closes (by simp))] at tagged
        cases tagged

theorem takeWhile_append_of_nextTag? (found : nextTag? s = some (tag, after)) (rest : List Char) :
    (s ++ rest).takeWhile (· == '\\') = s.takeWhile (· == '\\') := by
  obtain ⟨inner, shape, -⟩ := nextTag?_eq_some found
  have slashes : ∀ d ∈ s.takeWhile (· == '\\'), (d == '\\') = true :=
    fun _ => List.mem_takeWhile_imp
  rw [shape, List.append_assoc, List.cons_append, List.takeWhile_append_of_pos slashes,
    List.takeWhile_append_of_pos slashes]
  simp

namespace Apart

theorem of_suffix (apart : Apart s rest) (suffix : after <:+ s) : Apart after rest := by
  refine ⟨fun member => apart.closes (suffix.subset member), fun last => apart.holds ?_⟩
  obtain ⟨before, rfl⟩ := suffix
  rw [List.getLast?_append, last]
  rfl

theorem not_held (apart : Apart (c :: s) rest) (notHeld : ¬ (c = '\\' ∧ s.head? = some '[')) :
    ¬ (c = '\\' ∧ (s ++ rest).head? = some '[') := by
  rintro ⟨rfl, first⟩
  cases s with
  | nil => exact absurd rfl (apart.holds rfl '[' first).2
  | cons d more => exact notHeld ⟨rfl, first⟩

/-- A text with a bracket in it that comes before any that closes. -/
theorem of_bracket (plain : s.getLast? ≠ some '\\') (inner : List Char) :
    Apart s ('[' :: inner) :=
  ⟨fun _ => by simp, fun last => absurd last plain⟩

theorem of_plain (noBracket : '[' ∉ s) (plain : s.getLast? ≠ some '\\') (rest : List Char) :
    Apart s rest :=
  ⟨fun member => absurd member noBracket, fun last => absurd last plain⟩

theorem of_not_mem (noBracket : ']' ∉ rest) (first : ∀ d ∈ rest.head?, d ≠ '\\' ∧ d ≠ '[') :
    Apart s rest := by
  refine ⟨fun _ closing => noBracket ?_, fun _ => first⟩
  exact (List.dropWhile_suffix _).subset (List.mem_of_mem_head? closing)

end Apart

/-- Of texts that are apart each is seen by itself. -/
theorem visible_append (apart : Apart s rest) :
    visible (s ++ rest) = visible s ++ visible rest := by
  induction s using visible.induct with
  | case1 => rw [visible_nil]; rfl
  | case2 c s tagged found ih =>
    have later := ih (apart.of_suffix (suffix_of_nextTag? found))
    rw [visible_of_tag found, visible_of_tag (nextTag?_append found rest),
      takeWhile_append_of_nextTag? found, later]
    simp only [List.append_assoc]
  | case3 c s noTag held ih =>
    obtain ⟨rfl, first⟩ := held
    obtain ⟨more, rfl⟩ := List.head?_eq_some_iff.mp first
    have noTag' : nextTag? ('\\' :: '[' :: (more ++ rest)) = none :=
      nextTag?_append_of_none (List.cons_ne_nil _ _) noTag apart
    have later := ih (apart.of_suffix ⟨['\\', '['], rfl⟩)
    rw [List.tail_cons] at later
    rw [visible_of_held noTag, List.cons_append, List.cons_append, visible_of_held noTag', later]
    rfl
  | case4 c s noTag notHeld ih =>
    have noTag' : nextTag? (c :: (s ++ rest)) = none :=
      nextTag?_append_of_none (List.cons_ne_nil _ _) noTag apart
    have later := ih (apart.of_suffix (List.suffix_cons c s))
    rw [visible_cons noTag notHeld, List.cons_append, visible_cons noTag' (apart.not_held notHeld),
      later]
    rfl

theorem visible_styled (opens : opensStyle tag = true) (verbatim : Verbatim s)
    (ends : s.getLast? ≠ some '\\') (rest : List Char) :
    visible ('[' :: (tag ++ ']' :: (s ++ '[' :: '/' :: ']' :: rest))) = s ++ visible rest := by
  rw [visible_bracket (tag?_of_opensStyle opens _), visible_append (.of_bracket ends _),
    visible_of_verbatim verbatim, visible_bracket (tag?_close rest)]

/-- What stands before a text without markup of its own does not keep it from being drawn. -/
theorem drawFaults_append (apart : Apart s rest) :
    drawFaults (s ++ rest) = drawFaults s ++ drawFaults rest := by
  induction s using visible.induct with
  | case1 => rw [drawFaults_nil]; rfl
  | case2 c s tagged found ih =>
    have later := ih (apart.of_suffix (suffix_of_nextTag? found))
    rw [drawFaults_of_tag found, drawFaults_of_tag (nextTag?_append found rest),
      takeWhile_append_of_nextTag? found, later, List.append_assoc]
  | case3 c s noTag held ih =>
    obtain ⟨rfl, first⟩ := held
    obtain ⟨more, rfl⟩ := List.head?_eq_some_iff.mp first
    have noTag' : nextTag? ('\\' :: '[' :: (more ++ rest)) = none :=
      nextTag?_append_of_none (List.cons_ne_nil _ _) noTag apart
    have later := ih (apart.of_suffix ⟨['\\', '['], rfl⟩)
    rw [List.tail_cons] at later
    rw [drawFaults_of_held noTag, List.cons_append, List.cons_append, drawFaults_of_held noTag',
      later]
  | case4 c s noTag notHeld ih =>
    have noTag' : nextTag? (c :: (s ++ rest)) = none :=
      nextTag?_append_of_none (List.cons_ne_nil _ _) noTag apart
    have later := ih (apart.of_suffix (List.suffix_cons c s))
    rw [drawFaults_cons noTag notHeld, List.cons_append,
      drawFaults_cons noTag' (apart.not_held notHeld), later]

theorem drawFaults_of_verbatim (verbatim : Verbatim s) : drawFaults s = [] := by
  induction s with
  | nil => exact drawFaults_nil
  | cons c rest ih =>
    rw [drawFaults_cons verbatim.nextTag?_eq_none verbatim.not_held, ih verbatim.tail]

/-- Between tags that can be drawn only the text itself can fail to be. -/
theorem drawFaults_styled (opens : opensStyle tag = true) (ends : s.getLast? ≠ some '\\')
    (rest : List Char) :
    drawFaults ('[' :: (tag ++ ']' :: (s ++ '[' :: '/' :: ']' :: rest))) =
      drawFaults s ++ drawFaults rest := by
  rw [drawFaults_bracket (tag?_of_opensStyle opens _) (.of_opensStyle opens),
    drawFaults_append (.of_bracket ends _), drawFaults_bracket (tag?_close rest) (.inl rfl)]

section

variable [Platform] {opened : List OpenTag} {position : Nat}

/-- A text without markup is shown as it stands. -/
theorem shownFrom_append (verbatim : Verbatim s) (apart : Apart s rest) (position : Nat) :
    shownFrom position opened (s ++ rest) =
      (shownFrom (position + s.length) opened rest).map (s ++ ·) := by
  induction s generalizing position with
  | nil => cases shows : shownFrom position opened rest <;> simp [shows, Except.map]
  | cons c s ih =>
    have noTag : nextTag? (c :: (s ++ rest)) = none :=
      nextTag?_append_of_none (List.cons_ne_nil _ _) verbatim.nextTag?_eq_none apart
    rw [List.cons_append, shownFrom_cons noTag (apart.not_held verbatim.not_held),
      ih verbatim.tail (apart.of_suffix (List.suffix_cons c s)), List.length_cons, Nat.add_assoc,
      Nat.add_comm 1]
    cases shownFrom (position + (s.length + 1)) opened rest <;> rfl

theorem shownFrom_of_verbatim (verbatim : Verbatim s) (position : Nat) :
    shownFrom position opened s = .ok s := by
  have apart : Apart s [] := ⟨fun _ => nofun, nofun⟩
  have whole : shownFrom position opened (s ++ []) = _ := shownFrom_append verbatim apart position
  rw [List.append_nil, shownFrom] at whole
  rw [whole, Except.map, List.append_nil]

theorem shownFrom_bracket (found : tag? inner = some (tag, after)) (position : Nat) :
    shownFrom position opened ('[' :: inner) =
      stepTag position opened tag >>= fun opened' =>
        shownFrom (position + tag.length + 2) opened' after := by
  have next : nextTag? ('[' :: inner) = some (tag, after) := found
  have noSlash : ('[' :: inner).takeWhile (· == '\\') = [] := rfl
  rw [shownFrom_of_tag next, noSlash]
  cases steps : stepTag position opened tag with
  | error fault => simp [steps, bind, Except.bind]
  | ok opened' =>
    cases shows : shownFrom (position + tag.length + 2) opened' after <;>
      simp [steps, shows, bind, Except.bind, Except.map]

/-- A stretch of text between a tag and the one that closes it is shown without the tags. -/
theorem shownFrom_styled (opens : opensStyle tag = true) (verbatim : Verbatim s)
    (ends : s.getLast? ≠ some '\\') (position : Nat) :
    shownFrom position opened ('[' :: (tag ++ ']' :: (s ++ '[' :: '/' :: ']' :: after))) =
      (shownFrom (position + tag.length + s.length + 5) opened after).map (s ++ ·) := by
  obtain ⟨last, closes, steps⟩ := stepTag_of_opensStyle opens
  rw [shownFrom_bracket (tag?_of_opensStyle opens _), steps]
  change shownFrom _ (last :: opened) _ = _
  rw [shownFrom_append verbatim (.of_bracket ends _), shownFrom_bracket (tag?_close after),
    stepTag_close closes]
  have same : position + tag.length + 2 + s.length + ['/'].length + 2 =
      position + tag.length + s.length + 5 := by simp only [List.length_singleton]; omega
  rw [same]
  rfl

/-- Where a tag stands matters only for what is told of it if it cannot be read. -/
theorem toOption_stepTag (position other : Nat) :
    (stepTag position opened tag).toOption = (stepTag other opened tag).toOption := by
  unfold stepTag
  split
  next closed =>
    dsimp only
    split
    · cases opened <;> rfl
    · rw [Except.toOption_bind, Except.toOption_bind]
      congr 1
      funext style
      cases opened.find? (·.style = style) <;> rfl
  · rfl

/-- A tag that closes cannot be read where none is open. -/
theorem exists_fault_of_close (position : Nat) (closed : List Char) :
    ∃ fault, stepTag position [] ('/' :: closed) = .error fault := by
  unfold stepTag
  split
  next same =>
    cases same
    dsimp only
    split
    · exact ⟨_, rfl⟩
    · cases tagStyle (Text.trim (tagName closed)) with
      | error fault => exact ⟨fault, rfl⟩
      | ok style => exact ⟨_, rfl⟩
  next other => exact absurd rfl (other closed)

theorem toOption_shownFrom (position other : Nat) :
    (shownFrom position opened s).toOption = (shownFrom other opened s).toOption := by
  induction s using visible.induct generalizing position other opened with
  | case1 => rw [shownFrom, shownFrom]
  | case2 c s tagged found ih =>
    rw [shownFrom_of_tag found, shownFrom_of_tag found]
    dsimp only
    split
    · rw [Except.toOption_map, Except.toOption_map, ih]
    · rw [Except.toOption_bind, Except.toOption_bind, toOption_stepTag _ (other + _)]
      congr 1
      funext opened'
      rw [Except.toOption_map, Except.toOption_map, ih]
  | case3 c s noTag held ih =>
    obtain ⟨rfl, first⟩ := held
    obtain ⟨more, rfl⟩ := List.head?_eq_some_iff.mp first
    rw [shownFrom_of_held noTag, shownFrom_of_held noTag, Except.toOption_map,
      Except.toOption_map]
    exact congrArg _ (ih (position + 2) (other + 2))
  | case4 c s noTag notHeld ih =>
    rw [shownFrom_cons noTag notHeld, shownFrom_cons noTag notHeld, Except.toOption_map,
      Except.toOption_map, ih (position + 1) (other + 1)]

/-- Whether a text can be shown does not depend on where it stands. -/
theorem accepts_iff (position : Nat) :
    Accepts opened s ↔ ∃ out, shownFrom position opened s = .ok out := by
  refine ⟨fun accepts => accepts position, fun shows other => ?_⟩
  rw [← Except.isSome_toOption_iff, toOption_shownFrom other position, Except.isSome_toOption_iff]
  exact shows

theorem isSome_shownFrom_append (apart : Apart s rest) (always : ∀ opened, Accepts opened rest)
    (position : Nat) : (shownFrom position opened (s ++ rest)).toOption.isSome =
      (shownFrom position opened s).toOption.isSome := by
  induction s using visible.induct generalizing position opened with
  | case1 =>
    rw [List.nil_append, shownFrom]
    exact Except.isSome_toOption_iff.mpr (always opened position)
  | case2 c s tagged found ih =>
    have later := fun opened => @ih opened (apart.of_suffix (suffix_of_nextTag? found))
    rw [shownFrom_of_tag found, shownFrom_of_tag (nextTag?_append found rest),
      takeWhile_append_of_nextTag? found]
    dsimp only
    split
    · rw [Except.toOption_map, Except.toOption_map, Option.isSome_map, Option.isSome_map, later]
    · rw [Except.toOption_bind, Except.toOption_bind]
      cases (stepTag _ opened tagged.1).toOption with
      | none => rfl
      | some opened' =>
        rw [Option.bind_some, Option.bind_some, Except.toOption_map, Except.toOption_map,
          Option.isSome_map, Option.isSome_map, later]
  | case3 c s noTag held ih =>
    obtain ⟨rfl, first⟩ := held
    obtain ⟨more, rfl⟩ := List.head?_eq_some_iff.mp first
    have noTag' : nextTag? ('\\' :: '[' :: (more ++ rest)) = none :=
      nextTag?_append_of_none (List.cons_ne_nil _ _) noTag apart
    have later := @ih opened (apart.of_suffix ⟨['\\', '['], rfl⟩)
    rw [List.cons_append, List.cons_append, shownFrom_of_held noTag, shownFrom_of_held noTag',
      Except.toOption_map, Except.toOption_map, Option.isSome_map, Option.isSome_map]
    exact later (position + 2)
  | case4 c s noTag notHeld ih =>
    have noTag' : nextTag? (c :: (s ++ rest)) = none :=
      nextTag?_append_of_none (List.cons_ne_nil _ _) noTag apart
    have later := @ih opened (apart.of_suffix (List.suffix_cons c s))
    rw [List.cons_append, shownFrom_cons noTag notHeld,
      shownFrom_cons noTag' (apart.not_held notHeld), Except.toOption_map, Except.toOption_map,
      Option.isSome_map, Option.isSome_map]
    exact later (position + 1)

/-- Of texts that are apart, the second of which is always shown, the first one decides. -/
theorem accepts_append_iff (apart : Apart s rest) (always : ∀ opened, Accepts opened rest) :
    Accepts opened (s ++ rest) ↔ Accepts opened s := by
  rw [accepts_iff 0, accepts_iff 0, ← Except.isSome_toOption_iff, ← Except.isSome_toOption_iff,
    isSome_shownFrom_append apart always]

end

theorem exists_trailing (s : List Char) :
    ∃ before n, s = before ++ List.replicate n '\\' ∧ before.getLast? ≠ some '\\' := by
  induction s using List.reverseRec with
  | nil => exact ⟨[], 0, rfl, nofun⟩
  | append_singleton s c ih =>
    by_cases slash : c = '\\'
    · obtain ⟨before, n, rfl, ends⟩ := ih
      exact ⟨before, n + 1, by rw [slash, List.replicate_succ', List.append_assoc], ends⟩
    · exact ⟨s ++ [c], 0, by simp, by simpa using slash⟩

theorem visible_close (n : Nat) :
    visible (List.replicate n '\\' ++ ['[', '/', ']']) =
      List.replicate (n / 2) '\\' ++ if n % 2 = 1 then ['[', '/', ']'] else [] := by
  have slashes : ∀ d ∈ List.replicate n '\\', d = '\\' := fun d => List.eq_of_mem_replicate
  have found := nextTag?_of_slashes slashes ['/', ']']
  rw [tag?_close] at found
  have counted : ((List.replicate n '\\' ++ ['[', '/', ']']).takeWhile (· == '\\')).length = n := by
    rw [List.takeWhile_append_of_pos fun d member => by simpa using slashes d member]
    simp
  rw [visible_of_tag found, counted, visible_nil, List.append_nil]
  rfl

/-- Between tags a text is seen as it stands if it has no markup in it and the backslashes at its end
do not hold the tag after it. -/
theorem visible_append_close_eq_iff : visible (s ++ ['[', '/', ']']) = s ↔
    Verbatim s ∧ s.getLast? ≠ some '\\' := by
  obtain ⟨before, n, rfl, ends⟩ := exists_trailing s
  have seen : visible (before ++ List.replicate n '\\' ++ ['[', '/', ']']) =
      visible before ++ (List.replicate (n / 2) '\\' ++ if n % 2 = 1 then ['[', '/', ']'] else []) := by
    have apart : Apart before (List.replicate n '\\' ++ ['[', '/', ']']) := by
      refine ⟨fun _ => ?_, fun last => absurd last ends⟩
      rw [List.dropWhile_append_of_pos fun d member => by rw [List.eq_of_mem_replicate member]; rfl]
      exact nofun
    rw [List.append_assoc, visible_append apart, visible_close]
  rw [seen]
  cases n with
  | zero =>
    have seen' : visible before = before ↔ Verbatim before ∧ before.getLast? ≠ some '\\' := by
      rw [visible_eq_self_iff, and_iff_left ends]
    simpa using seen'
  | succ n =>
    -- Half of the backslashes are seen, and the tag if their number is odd.
    have last : (before ++ List.replicate (n + 1) '\\').getLast? = some '\\' := by
      rw [List.replicate_succ', ← List.append_assoc, List.getLast?_concat]
    refine ⟨fun same => ?_, fun holds => absurd last holds.2⟩
    by_cases odd : (n + 1) % 2 = 1
    · rw [if_pos odd] at same
      rw [← same] at last
      simp at last
    · rw [if_neg odd, List.append_nil] at same
      have marks := congrArg (List.countP isMark) same
      have slash : isMark '\\' = true := rfl
      simp only [List.countP_append, List.countP_replicate, slash, if_true] at marks
      have := (countP_visible before).1
      omega

end

end DependencyAudit.Terminal
