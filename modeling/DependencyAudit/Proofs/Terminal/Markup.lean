import DependencyAudit.Proofs.Except
import DependencyAudit.Terminal.Page
import Mathlib.Data.List.Basic

namespace DependencyAudit.Terminal

section

variable {c : Char} {s rest tag after : List Char}

theorem nextTag?_of_not_mem (noBracket : '[' ∉ s) : nextTag? s = none := by
  unfold nextTag?
  split
  next inner shape =>
    have member : '[' ∈ s.dropWhile (· == '\\') := by rw [shape]; exact List.mem_cons_self
    exact absurd ((List.dropWhile_suffix _).subset member) noBracket
  · rfl

theorem nextTag?_append_bracket (noBracket : '[' ∉ s) (inner : List Char) :
    nextTag? (s ++ '[' :: inner) = if s.all (· == '\\') then tag? inner else none := by
  induction s with
  | nil => rfl
  | cons c rest ih =>
    simp only [List.mem_cons, not_or] at noBracket
    by_cases slash : c = '\\'
    · subst slash
      exact ih noBracket.2
    · have noTag : nextTag? (c :: (rest ++ '[' :: inner)) = none := by
        unfold nextTag?
        rw [List.dropWhile_cons_of_neg (by simpa using slash)]
        split
        next shape => exact absurd (List.cons.inj shape).1.symm noBracket.1
        · rfl
      rw [List.cons_append, noTag, List.all_cons, beq_eq_false_iff_ne.mpr slash, Bool.false_and]
      rfl

/-- Only a tag that opens something can keep a text from being drawn. -/
theorem drawFaults_of_tag (found : nextTag? s = some (tag, after)) :
    drawFaults s =
      (if (s.takeWhile (· == '\\')).length % 2 = 1 ∨ tag.head? = some '/' then []
        else ((OpenTag.ofTag tag).toOption.bind OpenTag.drawFault?).toList) ++ drawFaults after := by
  cases s with
  | nil => cases found
  | cons c rest =>
    rw [drawFaults]
    dsimp only
    split
    next tagged found' =>
      cases found.symm.trans found'
      split <;> rfl
    next noTag => rw [noTag] at found; cases found

theorem drawFaults_of_held (noTag : nextTag? ('\\' :: '[' :: rest) = none) :
    drawFaults ('\\' :: '[' :: rest) = drawFaults rest := by
  rw [drawFaults]
  split
  next found => rw [noTag] at found; cases found
  · rfl

theorem drawFaults_cons (noTag : nextTag? (c :: rest) = none)
    (notHeld : ¬ (c = '\\' ∧ rest.head? = some '[')) : drawFaults (c :: rest) = drawFaults rest := by
  rw [drawFaults]
  split
  next found => rw [noTag] at found; cases found
  · rw [if_neg notHeld]

@[simp] theorem drawFaults_nil : drawFaults [] = [] := by rw [drawFaults]

theorem not_held_of_not_mem (noBracket : '[' ∉ rest) : ¬ (c = '\\' ∧ rest.head? = some '[') :=
  fun held => noBracket (List.mem_of_mem_head? held.2)

theorem not_held_append_bracket (noBracket : '[' ∉ rest)
    (other : ¬ (c :: rest).all (· == '\\') = true) (inner : List Char) :
    ¬ (c = '\\' ∧ (rest ++ '[' :: inner).head? = some '[') := by
  rintro ⟨rfl, first⟩
  cases rest with
  | nil => exact other rfl
  | cons second more =>
    cases first
    exact noBracket List.mem_cons_self

theorem drawFaults_of_not_mem (noBracket : '[' ∉ s) : drawFaults s = [] := by
  induction s with
  | nil => exact drawFaults_nil
  | cons c rest ih =>
    have noBracket' : '[' ∉ rest := fun member => noBracket (List.mem_cons_of_mem c member)
    rw [drawFaults_cons (nextTag?_of_not_mem noBracket) (not_held_of_not_mem noBracket'),
      ih noBracket']

end

section

variable [Platform]

/-- The text is shown wherever it stands, while these tags are open. -/
def Accepts (opened : List OpenTag) (s : List Char) : Prop :=
  ∀ position, ∃ out, shownFrom position opened s = .ok out

theorem accepts_nil (opened : List OpenTag) : Accepts opened [] := by
  intro position
  exact ⟨[], by rw [shownFrom]⟩

variable {opened opened' : List OpenTag} {c : Char} {s rest tag after : List Char}

/-- A tag is shown as it stands behind an odd number of backslashes. Otherwise it is passed over. -/
theorem shownFrom_of_tag (found : nextTag? s = some (tag, after)) (position : Nat) :
    shownFrom position opened s =
      let slashes := (s.takeWhile (· == '\\')).length
      let kept := List.replicate (slashes / 2) '\\'
      if slashes % 2 = 1 then
        (shownFrom (position + slashes + tag.length + 2) opened after).map
          fun shown => kept ++ '[' :: tag ++ ']' :: shown
      else
        stepTag (position + slashes) opened tag >>= fun opened' =>
          (shownFrom (position + slashes + tag.length + 2) opened' after).map (kept ++ ·) := by
  cases s with
  | nil => cases found
  | cons c rest =>
    rw [shownFrom]
    dsimp only
    split
    next tagged found' =>
      cases found.symm.trans found'
      rfl
    next noTag => rw [noTag] at found; cases found

/-- A backslash before a bracket that opens no tag is not shown. -/
theorem shownFrom_of_held (noTag : nextTag? ('\\' :: '[' :: rest) = none) (position : Nat) :
    shownFrom position opened ('\\' :: '[' :: rest) =
      (shownFrom (position + 2) opened rest).map ('[' :: ·) := by
  rw [shownFrom]
  dsimp only
  split
  next found => rw [noTag] at found; cases found
  · rfl

/-- Any other character stands for itself. -/
theorem shownFrom_cons (noTag : nextTag? (c :: rest) = none)
    (notHeld : ¬ (c = '\\' ∧ rest.head? = some '[')) (position : Nat) :
    shownFrom position opened (c :: rest) = (shownFrom (position + 1) opened rest).map (c :: ·) := by
  rw [shownFrom]
  dsimp only
  split
  next found => rw [noTag] at found; cases found
  · rw [if_neg notHeld]
    rfl

theorem Accepts.cons (noTag : nextTag? (c :: rest) = none)
    (notHeld : ¬ (c = '\\' ∧ rest.head? = some '[')) (later : Accepts opened rest) :
    Accepts opened (c :: rest) := by
  intro position
  obtain ⟨out, shows⟩ := later (position + 1)
  exact ⟨c :: out, by rw [shownFrom_cons noTag notHeld, shows, Except.map]⟩

/-- A tag that can be read is passed over, or shown as it stands behind a backslash. -/
theorem Accepts.of_tag (found : nextTag? s = some (tag, after))
    (step : ∀ position, ∃ opened', stepTag position opened tag = .ok opened' ∧
      Accepts opened' after)
    (held : (s.takeWhile (· == '\\')).length % 2 = 1 → Accepts opened after) :
    Accepts opened s := by
  intro position
  rw [shownFrom_of_tag found]
  dsimp only
  split
  next odd =>
    obtain ⟨out, shows⟩ := held odd (position + (s.takeWhile (· == '\\')).length + tag.length + 2)
    exact ⟨_, Except.map_eq_ok_iff.mpr ⟨out, shows, rfl⟩⟩
  · obtain ⟨opened', steps, accepts⟩ := step (position + (s.takeWhile (· == '\\')).length)
    obtain ⟨out, shows⟩ := accepts (position + (s.takeWhile (· == '\\')).length + tag.length + 2)
    exact ⟨_, Except.bind_eq_ok_iff.mpr ⟨opened', steps, Except.map_eq_ok_iff.mpr ⟨out, shows, rfl⟩⟩⟩

/-- A text without brackets is shown. -/
theorem accepts_of_not_mem (noBracket : '[' ∉ s) : Accepts opened s := by
  induction s with
  | nil => exact accepts_nil opened
  | cons c rest ih =>
    have noBracket' : '[' ∉ rest := fun member => noBracket (List.mem_cons_of_mem c member)
    exact .cons (nextTag?_of_not_mem noBracket) (not_held_of_not_mem noBracket') (ih noBracket')

/-- After a text without brackets a tag is passed over, or shown if the text ends in a backslash. -/
theorem Accepts.append_tag {inner : List Char} (noBracket : '[' ∉ s)
    (found : tag? inner = some (tag, after))
    (step : ∀ position, ∃ opened', stepTag position opened tag = .ok opened' ∧
      Accepts opened' after) (held : '\\' ∈ s → Accepts opened after) :
    Accepts opened (s ++ '[' :: inner) := by
  induction s with
  | nil => exact .of_tag (s := '[' :: inner) found step fun odd => by cases odd
  | cons c rest ih =>
    have next := nextTag?_append_bracket noBracket inner
    have noBracket' : '[' ∉ rest := fun member => noBracket (List.mem_cons_of_mem c member)
    split at next
    next slashes =>
      refine .of_tag (next.trans found) step fun _ => held ?_
      rw [List.all_cons, Bool.and_eq_true, beq_iff_eq] at slashes
      exact slashes.1 ▸ List.mem_cons_self
    next other =>
      exact .cons next (not_held_append_bracket noBracket' other inner)
        (ih noBracket' fun member => held (List.mem_cons_of_mem c member))

end

theorem tag?_of_closed {c : Char} {more rest : List Char} (starts : startsTag c = true)
    (inside : ∀ d ∈ more, (d != ']' && d != '[') = true) :
    tag? (c :: (more ++ ']' :: rest)) = some (c :: more, rest) := by
  rw [tag?, if_pos starts, List.dropWhile_append_of_pos inside, List.takeWhile_append_of_pos inside]
  simp

/-- Whether a text is a tag without parameters that opens a style which can be drawn. -/
def opensStyle : List Char → Bool
  | [] => false
  | c :: more =>
    startsTag c && c != '/' && (more.all fun d => d != ']' && d != '[') &&
      (OpenTag.ofTag (c :: more)).toOption.any fun last =>
        last.parameters.isNone && last.drawFault?.isNone

/-- The styles of the tags that stand in the program's own lines. -/
def ownStyles : List String :=
  ["bold", "bold green", "bold red", "cyan", "dim", "green", "red", "yellow"]

theorem opensStyle_own {style : String} (own : style ∈ ownStyles) :
    opensStyle style.toList = true := by
  have opens : ∀ style ∈ ownStyles, opensStyle style.toList = true := by decide +kernel
  exact opens style own

theorem tag?_of_opensStyle {tag : List Char} (opens : opensStyle tag = true) (rest : List Char) :
    tag? (tag ++ ']' :: rest) = some (tag, rest) := by
  cases tag with
  | nil => cases opens
  | cons c more =>
    simp only [opensStyle, Bool.and_eq_true, List.all_eq_true] at opens
    obtain ⟨⟨⟨starts, -⟩, inside⟩, -⟩ := opens
    exact tag?_of_closed starts (by simpa using inside)

theorem exists_ofTag_of_opensStyle {tag : List Char} (opens : opensStyle tag = true) :
    ∃ last, OpenTag.ofTag tag = .ok last ∧ last.parameters = none ∧ last.drawFault? = none ∧
      ∀ closed, tag ≠ '/' :: closed := by
  cases tag with
  | nil => cases opens
  | cons c more =>
    simp only [opensStyle, Bool.and_eq_true, bne_iff_ne, Option.any_eq_true,
      Option.isNone_iff_eq_none] at opens
    obtain ⟨⟨⟨-, notSlash⟩, -⟩, last, opened, free, drawn⟩ := opens
    refine ⟨last, Except.toOption_eq_some_iff.mp opened, free, drawn, ?_⟩
    rintro closed same
    exact notSlash (List.cons.inj same).1

theorem tag?_close (rest : List Char) : tag? ('/' :: ']' :: rest) = some (['/'], rest) := rfl

/-- A tag that opens nothing, or something that can be drawn. -/
def Draws (tag : List Char) : Prop :=
  tag.head? = some '/' ∨ (OpenTag.ofTag tag).toOption.bind OpenTag.drawFault? = none

theorem Draws.of_opensStyle {tag : List Char} (opens : opensStyle tag = true) : Draws tag := by
  obtain ⟨last, opened, -, drawn, -⟩ := exists_ofTag_of_opensStyle opens
  exact .inr (by rw [opened]; exact drawn)

theorem drawFaults_of_draws {s tag after : List Char} (found : nextTag? s = some (tag, after))
    (draws : Draws tag) : drawFaults s = drawFaults after := by
  rw [drawFaults_of_tag found]
  rcases draws with closing | drawn <;> simp [*]

theorem drawFaults_bracket {tag after inner : List Char} (found : tag? inner = some (tag, after))
    (draws : Draws tag) : drawFaults ('[' :: inner) = drawFaults after :=
  drawFaults_of_draws (s := '[' :: inner) found draws

/-- After a text without brackets such a tag is passed over. -/
theorem drawFaults_append_tag {s tag after inner : List Char} (noBracket : '[' ∉ s)
    (found : tag? inner = some (tag, after)) (draws : Draws tag) :
    drawFaults (s ++ '[' :: inner) = drawFaults after := by
  induction s with
  | nil => exact drawFaults_bracket found draws
  | cons c rest ih =>
    have next := nextTag?_append_bracket noBracket inner
    have noBracket' : '[' ∉ rest := fun member => noBracket (List.mem_cons_of_mem c member)
    split at next
    next => exact drawFaults_of_draws (next.trans found) draws
    next other =>
      have notHeld := not_held_append_bracket noBracket' other inner
      exact (drawFaults_cons next notHeld).trans (ih noBracket')

section

variable [Platform] {opened : List OpenTag} {s : List Char}

theorem stepTag_of_opensStyle {tag : List Char} (opens : opensStyle tag = true) :
    ∃ last : OpenTag, last.close = .ok () ∧
      ∀ position opened, stepTag position opened tag = .ok (last :: opened) := by
  obtain ⟨last, made, free, -, notSlash⟩ := exists_ofTag_of_opensStyle opens
  refine ⟨last, ?_, fun position opened => ?_⟩
  · unfold OpenTag.close
    split
    next some' => rw [free] at some'; cases some'
    · rfl
  · unfold stepTag
    split
    next closed => exact absurd rfl (notSlash closed)
    · rw [made]
      rfl

theorem stepTag_close {last : OpenTag} (closes : last.close = .ok ()) (position : Nat) :
    stepTag position (last :: opened) ['/'] = .ok opened := by
  have noName : Text.trim (tagName []) = [] := rfl
  rw [stepTag, if_pos noName, closes]
  rfl

/-- A text that can be shown, and drawn. -/
structure Prints (s : List Char) : Prop where
  accepts : Accepts [] s
  drawn : drawFaults s = []

/-- A text without brackets is shown. -/
theorem prints_of_not_mem (noBracket : '[' ∉ s) : Prints s :=
  ⟨accepts_of_not_mem noBracket, drawFaults_of_not_mem noBracket⟩

/-- A line with one stretch of text between tags, the last of which closes what the first opens, is
shown whatever stands between them and after them, as long as it holds no brackets. -/
theorem prints_styled (before tag middle after : List Char)
    (shape : s = before ++ '[' :: (tag ++ ']' :: (middle ++ '[' :: '/' :: ']' :: after)))
    (opens : opensStyle tag = true) (plainBefore : '[' ∉ before ∧ '\\' ∉ before)
    (plainMiddle : '[' ∉ middle) (plainAfter : '[' ∉ after) : Prints s := by
  subst shape
  obtain ⟨last, closes, steps⟩ := stepTag_of_opensStyle opens
  constructor
  · refine .append_tag plainBefore.1 (tag?_of_opensStyle opens _) ?_
      fun slash => absurd slash plainBefore.2
    refine fun position => ⟨[last], steps position [], ?_⟩
    refine .append_tag plainMiddle (tag?_close after)
      (fun position => ⟨[], stepTag_close closes position, ?_⟩) fun _ => ?_
    · exact accepts_of_not_mem plainAfter
    · exact accepts_of_not_mem plainAfter
  · rw [drawFaults_append_tag plainBefore.1 (tag?_of_opensStyle opens _) (.of_opensStyle opens),
      drawFaults_append_tag plainMiddle (tag?_close after) (.inl rfl),
      drawFaults_of_not_mem plainAfter]

theorem drawnFault?_of_drawn {texts : List (List Char)} (drawn : ∀ s ∈ texts, drawFaults s = [])
    (width : Nat) : drawnFault? width texts = none := by
  rw [drawnFault?, List.flatMap_eq_nil_iff.mpr drawn]
  simp

theorem linesOf_of_shown {markup : String} {out : List Char} {width : Nat}
    (shows : shown markup.toList = .ok out) (drawn : drawnFault? width [markup.toList] = none) :
    linesOf width markup = .ok (wrap .fold width out) := by
  simp only [linesOf, shows, drawn, bind, Except.bind]
  rfl

theorem exists_linesOf_of_prints {markup : String} (prints : Prints markup.toList) (width : Nat) :
    ∃ lines, linesOf width markup = .ok lines := by
  obtain ⟨out, shows⟩ := prints.accepts 0
  exact ⟨_, linesOf_of_shown shows (drawnFault?_of_drawn (by simpa using prints.drawn) width)⟩

theorem exists_page_of_prints {markup : String} (prints : Prints markup.toList) (width : Nat) :
    ∃ text, page width markup = .ok text := by
  obtain ⟨lines, lays⟩ := exists_linesOf_of_prints prints width
  exact ⟨_, by rw [page, lays]; rfl⟩

theorem exists_inline_of_prints {markup : String} (prints : Prints markup.toList) (width : Nat) :
    ∃ text, inline width markup = .ok text := by
  obtain ⟨lines, lays⟩ := exists_linesOf_of_prints prints width
  exact ⟨_, by rw [inline, lays]; rfl⟩

end

/-- A number is written without brackets. -/
theorem not_mem_number (n : Nat) : '[' ∉ (toString n).toList := by
  rw [Nat.toString_eq_repr, Nat.toList_repr]
  intro member
  have digit := Nat.isDigit_of_mem_toDigits (by omega) (by omega) member
  cases digit

theorem not_mem_backslash_number (n : Nat) : '\\' ∉ (toString n).toList := by
  rw [Nat.toString_eq_repr, Nat.toList_repr]
  intro member
  have digit := Nat.isDigit_of_mem_toDigits (by omega) (by omega) member
  cases digit

section

variable [Platform]

/-- A text without brackets is shown. -/
theorem exists_page_of_plain {markup : String} (plain : '[' ∉ markup.toList) (width : Nat) :
    ∃ text, page width markup = .ok text :=
  exists_page_of_prints (prints_of_not_mem plain) width

/-- A line with a stretch of text between tags is shown if nothing else in it is a bracket. -/
theorem exists_page_of_styled {markup : String} (before tag middle after : List Char)
    (shape : markup.toList =
      before ++ '[' :: (tag ++ ']' :: (middle ++ '[' :: '/' :: ']' :: after)))
    (opens : opensStyle tag = true) (plainBefore : '[' ∉ before ∧ '\\' ∉ before)
    (plainMiddle : '[' ∉ middle) (plainAfter : '[' ∉ after) (width : Nat) :
    ∃ text, page width markup = .ok text :=
  exists_page_of_prints
    (prints_styled before tag middle after shape opens plainBefore plainMiddle plainAfter) width

end

end DependencyAudit.Terminal
