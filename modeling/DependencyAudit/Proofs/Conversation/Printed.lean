import DependencyAudit.Proofs.Conversation
import DependencyAudit.Proofs.Names
import DependencyAudit.Proofs.Terminal.Markup

namespace DependencyAudit

open Text (Point points)

namespace Terminal.Veil

variable {list : List Point} {p : Point} {c : Char}

theorem first_avoiding (list : List Point) :
    0xF0000 ≤ (avoiding list).first ∧ (avoiding list).first + size ≤ 0x110000 := by
  unfold avoiding
  dsimp only
  cases found : List.find? (fun first => list.all fun p => p.code < first || first + size ≤ p.code)
      ((List.range 64).map (0xF0000 + size * ·)) with
  | none => decide
  | some first =>
    obtain ⟨n, small, rfl⟩ := List.mem_map.mp (List.mem_of_find?_eq_some found)
    have := List.mem_range.mp small
    simp only [Option.getD_some, size]
    omega

/-- Only a character itself is laid out like one outside of the block. -/
theorem eq_of_cover (low : c.toNat < 0xF0000) (same : (avoiding list).cover p = c) : p = .char c := by
  have code : ∀ offset, offset < size → Char.ofNat ((avoiding list).first + offset) ≠ c := by
    rintro offset small rfl
    have block := first_avoiding list
    rw [Text.toNat_ofNat_of_valid (by unfold Nat.isValidChar; omega)] at low
    omega
  cases p with
  | char d => exact congrArg _ same
  | high bits =>
    refine absurd same (code _ ?_)
    simp only [Point.code, size]
    omega
  | low bits =>
    refine absurd same (code _ ?_)
    simp only [Point.code, size]
    omega

theorem cover_points (v : Veil) (s : String) : (points s).map v.cover = s.toList := by
  rw [points, List.map_map]
  exact List.map_id _

theorem not_mem_cover (low : c.toNat < 0xF0000) (absent : .char c ∉ list) (others : List Point) :
    c ∉ list.map (avoiding others).cover := by
  intro member
  obtain ⟨p, inList, same⟩ := List.mem_map.mp member
  exact absent (eq_of_cover low same ▸ inList)

end Terminal.Veil

namespace Conversation

open Terminal

/-- Points that are printed whatever stands around them: they open no tags, and none of them is half
a surrogate pair where such a one is not printed. -/
structure Harmless (stream : Stream) (list : List Point) : Prop where
  noBracket : .char '[' ∉ list
  whole : stream = .output → ∀ p ∈ list, p.isHalf = false

variable {stream : Stream} {list : List Point}

theorem isHalf_eq_false_of_mem_points {p : Point} {s : String} (member : p ∈ points s) :
    p.isHalf = false := by
  obtain ⟨c, -, rfl⟩ := List.mem_map.mp member
  rfl

theorem mem_points {c : Char} {s : String} : .char c ∈ points s ↔ c ∈ s.toList := by
  rw [points, List.mem_map_of_injective Point.char_injective]

theorem harmless_points {s : String} (noBracket : '[' ∉ s.toList) : Harmless stream (points s) :=
  ⟨fun member => noBracket (mem_points.mp member), fun _ _ => isHalf_eq_false_of_mem_points⟩

namespace Harmless

theorem append {more : List Point} (first : Harmless stream list) (second : Harmless stream more) :
    Harmless stream (list ++ more) :=
  ⟨fun member => (List.mem_append.mp member).elim first.noBracket second.noBracket,
    fun output => List.forall_mem_append.mpr ⟨first.whole output, second.whole output⟩⟩

theorem flatMap {α : Type} {items : List α} {f : α → List Point}
    (each : ∀ item ∈ items, Harmless stream (f item)) : Harmless stream (items.flatMap f) := by
  refine ⟨fun member => ?_, fun output p member => ?_⟩
  · obtain ⟨item, inItems, inItem⟩ := List.mem_flatMap.mp member
    exact (each item inItems).noBracket inItem
  · obtain ⟨item, inItems, inItem⟩ := List.mem_flatMap.mp member
    exact (each item inItems).whole output p inItem

end Harmless

theorem mem_or_of_mem_intercalate {α : Type} {x : α} {separator : List α} {lists : List (List α)}
    (member : x ∈ separator.intercalate lists) : x ∈ separator ∨ x ∈ lists.flatten := by
  induction lists with
  | nil => cases member
  | cons first rest ih =>
    cases rest with
    | nil => exact .inr (by simpa using member)
    | cons second others =>
      rw [List.intercalate_cons_cons] at member
      rcases List.mem_append.mp member with start | later
      · exact (List.mem_append.mp start).symm.imp_right (List.mem_append_left _)
      · exact (ih later).imp_right (List.mem_append_right first)

theorem exists_points_of_isHalf (whole : ∀ p ∈ list, p.isHalf = false) : ∃ s, list = points s := by
  induction list with
  | nil => exact ⟨"", rfl⟩
  | cons p rest ih =>
    obtain ⟨here, later⟩ := List.forall_mem_cons.mp whole
    obtain ⟨s, rfl⟩ := ih later
    cases p with
    | char c => exact ⟨String.ofList (c :: s.toList), by simp [points]⟩
    | high | low => cases here

variable [Platform] {console : Console} {markup : List Point}

/-- A text that cannot be printed is not shown or not drawn once its halves of surrogate pairs stand
for letters, or half a pair is seen of it on standard output. -/
theorem failure_of_paged {failure : Failure} (failed : paged console markup = .error failure) :
    (∃ fault, failure = .markup fault) ∧ ¬ Prints (markup.map (Veil.avoiding markup).cover) ∨
      (∃ fault, failure = .unprintable fault) ∧ console.stream = .output ∧
        ∃ p ∈ markup, p.isHalf := by
  unfold paged at failed
  split at failed
  next s isText =>
    obtain ⟨fault, refused, rfl⟩ := Except.mapError_eq_error_iff.mp failed
    refine .inl ⟨⟨fault, rfl⟩, fun prints => ?_⟩
    rw [Text.ofPoints?_eq_some_iff.mp isText, Veil.cover_points] at prints
    obtain ⟨text, laid⟩ := exists_page_of_prints prints console.width
    cases laid.symm.trans refused
  next noText =>
    rcases Except.bind_eq_error_iff.mp failed with unread | ⟨shown, -, unwritten⟩
    · obtain ⟨fault, refused, rfl⟩ := Except.mapError_eq_error_iff.mp unread
      refine .inl ⟨⟨fault, rfl⟩, fun prints => ?_⟩
      rw [← String.toList_ofList (l := markup.map _)] at prints
      obtain ⟨text, laid⟩ := exists_page_of_prints prints console.width
      rw [pagePoints, laid] at refused
      cases refused
    · split at unwritten
      next fault output _ =>
        cases unwritten
        refine .inr ⟨⟨fault, rfl⟩, output, ?_⟩
        by_contra whole
        push Not at whole
        obtain ⟨s, rfl⟩ := exists_points_of_isHalf fun p member => by simpa using whole p member
        rw [Text.ofPoints?_points] at noText
        cases noText
      next => cases unwritten

/-- A point for which a line may not be printed: it can open a tag, or it is half a surrogate pair
where such a one is not printed. -/
inductive Breaks (stream : Stream) : Point → Failure → Prop
  | bracket (fault : MarkupFault) : Breaks stream (.char '[') (.markup fault)
  | half {p : Point} (fault : Text.EncodeFault) :
      stream = .output → p.isHalf → Breaks stream p (.unprintable fault)

omit [Platform] in
theorem Harmless.not_breaks (harmless : Harmless stream list) {p : Point} (member : p ∈ list)
    {failure : Failure} : ¬ Breaks stream p failure := by
  intro breaks
  cases breaks with
  | bracket => exact harmless.noBracket member
  | half _ output half =>
    rw [harmless.whole output p member] at half
    cases half

/-- A line is printed, unless one of these points is why not. -/
def PrintedUnless (console : Console) (list markup : List Point) : Prop :=
  ∀ failure, paged console markup = .error failure → ∃ p ∈ list, Breaks console.stream p failure

namespace PrintedUnless

variable {more : List Point}

theorem mono (printed : PrintedUnless console list markup) (among : list ⊆ more) :
    PrintedUnless console more markup := fun failure failed =>
  let ⟨p, member, breaks⟩ := printed failure failed
  ⟨p, among member, breaks⟩

/-- What is harmless is not why. -/
theorem drop (printed : PrintedUnless console (list ++ more) markup)
    (harmless : Harmless console.stream more) : PrintedUnless console list markup := by
  intro failure failed
  obtain ⟨p, member, breaks⟩ := printed failure failed
  rcases List.mem_append.mp member with here | there
  · exact ⟨p, here, breaks⟩
  · exact absurd breaks (harmless.not_breaks there)

theorem exists_text (printed : PrintedUnless console list markup)
    (harmless : Harmless console.stream list) : ∃ text, paged console markup = .ok text := by
  cases laid : paged console markup with
  | ok text => exact ⟨text, rfl⟩
  | error failure =>
    obtain ⟨p, member, breaks⟩ := printed failure laid
    exact absurd breaks (harmless.not_breaks member)

theorem of_self (markup : List Point) : PrintedUnless console markup markup := by
  intro failure failed
  rcases failure_of_paged failed with ⟨⟨fault, rfl⟩, hidden⟩ | ⟨⟨fault, rfl⟩, output, p, member, half⟩
  · refine ⟨.char '[', ?_, .bracket fault⟩
    by_contra noBracket
    exact hidden (prints_of_not_mem (Veil.not_mem_cover (by decide) noBracket markup))
  · exact ⟨p, member, .half fault output half⟩

theorem of_plain {text : String} (plain : '[' ∉ text.toList) :
    PrintedUnless console [] (points text) := by
  have printed : PrintedUnless console ([] ++ points text) (points text) := of_self (points text)
  exact printed.drop (harmless_points plain)

/-- Of a line with points between tags, only these and those after them can be why. -/
theorem of_styled (before tag : String) (middle after : List Point)
    (shape : markup =
      points before ++ points "[" ++ points tag ++ points "]" ++ middle ++ points "[/]" ++ after)
    (opens : opensStyle tag.toList = true)
    (plainBefore : '[' ∉ before.toList ∧ '\\' ∉ before.toList) :
    PrintedUnless console (middle ++ after) markup := by
  have covered (v : Veil) : markup.map v.cover = before.toList ++ '[' :: (tag.toList ++ ']' ::
      (middle.map v.cover ++ '[' :: '/' :: ']' :: after.map v.cover)) := by
    rw [shape]
    simp only [List.map_append, Veil.cover_points, List.append_assoc]
    rfl
  intro failure failed
  rcases failure_of_paged failed with ⟨⟨fault, rfl⟩, hidden⟩ | ⟨⟨fault, rfl⟩, output, p, member, half⟩
  · refine ⟨.char '[', ?_, .bracket fault⟩
    by_contra noBracket
    rw [List.mem_append, not_or] at noBracket
    exact hidden (prints_styled _ _ _ _ (covered _) opens plainBefore
      (Veil.not_mem_cover (by decide) noBracket.1 markup)
      (Veil.not_mem_cover (by decide) noBracket.2 markup))
  · have ofText {s : String} : p ∉ points s := fun inText => by
      rw [isHalf_eq_false_of_mem_points inText] at half
      cases half
    simp only [shape, List.mem_append, ofText, false_or, or_false] at member
    exact ⟨p, List.mem_append.mpr member, .half fault output half⟩

/-- Of one of some names between tags, only the names can be why. -/
theorem of_name (before tag : String) {opening : String} {name : Name} {names : List Name}
    (member : name ∈ names)
    (shape : points opening = points before ++ points "[" ++ points tag ++ points "]")
    (opens : opensStyle tag.toList = true)
    (plainBefore : '[' ∉ before.toList ∧ '\\' ∉ before.toList) :
    PrintedUnless console (names.flatMap Name.points) (name.between opening "[/]") := by
  refine (of_styled before tag name.points [] ?_ opens plainBefore).mono ?_
  · rw [Name.between, shape, List.append_nil]
  · rw [List.append_nil]
    exact fun p inName => List.mem_flatMap.mpr ⟨name, member, inName⟩

theorem of_ownWords (before tag middle after : String)
    (shape : markup = points before ++ points "[" ++ points tag ++ points "]" ++ points middle ++
      points "[/]" ++ points after) (opens : opensStyle tag.toList = true)
    (plainBefore : '[' ∉ before.toList ∧ '\\' ∉ before.toList) (plainMiddle : '[' ∉ middle.toList)
    (plainAfter : '[' ∉ after.toList) : PrintedUnless console [] markup := by
  have printed : PrintedUnless console ([] ++ (points middle ++ points after)) markup :=
    of_styled before tag (points middle) (points after) shape opens plainBefore
  exact printed.drop ((harmless_points plainMiddle).append (harmless_points plainAfter))

end PrintedUnless

end Conversation

end DependencyAudit
