import DependencyAudit.Proofs.Terminal.Visible
import DependencyAudit.Proofs.Terminal.Wrap
import DependencyAudit.Proofs.Text.Pieces

namespace DependencyAudit

namespace Terminal

open Text (Single piecesAt joinWith)

variable {width : Nat} {markup text : String} {s tag middle after out : List Char}

/-- A page starts with the first of its lines. -/
theorem exists_rest_of_page {lines others : List (List Char)} {first : List Char}
    (shape : lines = first :: others) :
    ∃ rest, joinWith ['\n'] lines ++ ['\n'] = first ++ '\n' :: rest := by
  subst shape
  cases others with
  | nil => exact ⟨[], rfl⟩
  | cons second others =>
    exact ⟨joinWith ['\n'] (second :: others) ++ ['\n'], by simp [joinWith]⟩

/-- A text tells where its first line ends. -/
theorem line_inj {first first' rest rest' : List Char} (absent : '\n' ∉ first)
    (absent' : '\n' ∉ first') (same : first ++ '\n' :: rest = first' ++ '\n' :: rest') :
    first = first' ∧ rest = rest' := by
  rcases List.append_eq_append_iff.mp same with ⟨more, rfl, split⟩ | ⟨more, rfl, split⟩
  all_goals
    cases more with
    | nil => simpa [eq_comm] using split
    | cons d more =>
      obtain ⟨rfl, -⟩ := List.cons.inj split
      simp at absent absent'

/-- Lines that are written one after the other are read back. -/
theorem piecesAt_lines {lines : List (List Char)} (absent : ∀ line ∈ lines, '\n' ∉ line) :
    piecesAt '\n' (lines.flatMap (· ++ ['\n'])) = lines ++ [[]] := by
  induction lines with
  | nil => rfl
  | cons first rest ih =>
    obtain ⟨here, later⟩ := List.forall_mem_cons.mp absent
    rw [List.flatMap_cons, List.append_assoc, List.singleton_append,
      Text.piecesAt_append_cons here, ih later, List.cons_append]

theorem not_mem_of_single (single : Single s) : '\n' ∉ s := fun member =>
  absurd (single '\n' member) (by decide)

theorem wrap_of_not_mem {overflow : Overflow} (absent : '\n' ∉ s) :
    wrap overflow width s = wrapLine overflow width s := by
  rw [wrap, Text.piecesAt_of_not_mem absent, List.flatMap_singleton]

/-- Lines that fit into the width stay as they are. -/
theorem wrap_of_fits {overflow : Overflow}
    (fits : ∀ line ∈ piecesAt '\n' s, Single line ∧ line.length ≤ width) :
    wrap overflow width s = piecesAt '\n' s := by
  have each : ∀ line ∈ piecesAt '\n' s, wrapLine overflow width line = [line] :=
    fun line member => wrapLine_of_fits (fits line member).1 (fits line member).2
  rw [wrap, List.flatMap_congr each, List.flatMap_singleton']

section

variable [Platform]

theorem linesOf_eq_ok_iff {lines : List (List Char)} : linesOf width markup = .ok lines ↔
    ∃ out, shown markup.toList = .ok out ∧ drawnFault? width [markup.toList] = none ∧
      lines = wrap .fold width out := by
  constructor
  · intro lays
    obtain ⟨out, shows, lays⟩ := Except.bind_eq_ok_iff.mp lays
    refine ⟨out, shows, ?_⟩
    cases drawn : drawnFault? width [markup.toList] with
    | none =>
      rw [drawn] at lays
      exact ⟨rfl, (Except.ok.inj lays).symm⟩
    | some fault => rw [drawn] at lays; cases lays
  · rintro ⟨out, shows, drawn, rfl⟩
    exact linesOf_of_shown shows drawn

/-- A page shows what can be shown and drawn. -/
theorem page_eq_ok_iff : page width markup = .ok text ↔ ∃ out, shown markup.toList = .ok out ∧
    drawnFault? width [markup.toList] = none ∧
      text = String.ofList (joinWith ['\n'] (wrap .fold width out) ++ ['\n']) := by
  constructor
  · intro printed
    obtain ⟨lines, lays, made⟩ := Except.bind_eq_ok_iff.mp printed
    obtain ⟨out, shows, drawn, rfl⟩ := linesOf_eq_ok_iff.mp lays
    exact ⟨out, shows, drawn, (Except.ok.inj made).symm⟩
  · rintro ⟨out, shows, drawn, rfl⟩
    exact Except.bind_eq_ok_iff.mpr ⟨_, linesOf_of_shown shows drawn, rfl⟩

theorem page_of_fits (shows : shown markup.toList = .ok out) (drawn : drawFaults markup.toList = [])
    (fits : ∀ line ∈ piecesAt '\n' out, Single line ∧ line.length ≤ width) :
    page width markup = .ok (String.ofList (out ++ ['\n'])) := by
  refine page_eq_ok_iff.mpr ⟨out, shows, drawnFault?_of_drawn (by simpa using drawn) width, ?_⟩
  rw [wrap_of_fits fits, Text.joinWith_piecesAt]

/-- A line with one stretch of text between tags is shown without the tags. -/
theorem shown_styled (before : List Char) (shape : s =
      before ++ '[' :: (tag ++ ']' :: (middle ++ '[' :: '/' :: ']' :: after)))
    (opens : opensStyle tag = true) (plainBefore : '[' ∉ before ∧ '\\' ∉ before)
    (verbatim : Verbatim middle) (ends : middle.getLast? ≠ some '\\') (plainAfter : '[' ∉ after) :
    shown s = .ok (before ++ (middle ++ after)) := by
  have apart : before.getLast? ≠ some '\\' := fun last =>
    plainBefore.2 (List.mem_of_getLast? last)
  rw [shown, shape, shownFrom_append (.of_not_mem plainBefore.1) (.of_bracket apart _),
    shownFrom_styled opens verbatim ends, shownFrom_of_verbatim (.of_not_mem plainAfter)]
  rfl

end

theorem drawn_styled (before : List Char) (shape : s =
      before ++ '[' :: (tag ++ ']' :: (middle ++ '[' :: '/' :: ']' :: after)))
    (opens : opensStyle tag = true) (plainBefore : '[' ∉ before)
    (verbatim : Verbatim middle) (ends : middle.getLast? ≠ some '\\') (plainAfter : '[' ∉ after) :
    drawFaults s = [] := by
  rw [shape, drawFaults_append_tag plainBefore (tag?_of_opensStyle opens _) (.of_opensStyle opens),
    drawFaults_append (.of_bracket ends _), drawFaults_of_verbatim verbatim,
    drawFaults_bracket (tag?_close after) (.inl rfl), drawFaults_of_not_mem plainAfter,
    List.append_nil]

end Terminal

end DependencyAudit
