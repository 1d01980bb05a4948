import DependencyAudit.Proofs.Removal.Reading
import DependencyAudit.Proofs.Removal.Session
import DependencyAudit.Proofs.Terminal.Page

namespace DependencyAudit.Removal

open Conversation Terminal
open Text (Single piecesAt runs isBlank)

/-- The characters that names of packages are written in. -/
def isNameChar (c : Char) : Bool := c.isAlphanum || "-._~/@".toList.contains c

/-- A session has come to an outcome, or the removal has failed. -/
def Survives : Except Ending Outcome → Prop
  | .ok _ => True
  | .error (.failed (.removal _)) => True
  | .error _ => False

/-- The part of an answer can be shown by itself, and its warning can be drawn at this width. -/
def Showable [Platform] (width count : Nat) (token : String) : Prop :=
  (∃ out, shown token.toList = .ok out) ∧ drawnFault? width [(warning count token).toList] = none

section

variable {width count : Nat} {token text : String}

/-- What is seen of a warning, where `seen` is what is seen of the part that it tells of. -/
def warningText (count : Nat) (seen : List Char) : List Char :=
  "Warning:".toList ++ (" Invalid selection \"".toList ++ (seen ++ warningEnd count))

theorem apart_warningEnd (s : List Char) (count : Nat) : Apart s (warningEnd count) := by
  have first : (warningEnd count).head? = some '"' := rfl
  refine .of_not_mem (fun member => (plain_warningEnd count _ member).2.2.1 rfl) fun d atStart => ?_
  obtain rfl : '"' = d := Option.some.inj (first.symm.trans atStart)
  decide

theorem not_mem_bracket_warningEnd (count : Nat) : '[' ∉ warningEnd count :=
  fun member => (plain_warningEnd count _ member).1 rfl

/-- Of a warning only the part that it tells of can fail to be drawn. -/
theorem drawFaults_warning (count : Nat) (token : String) :
    drawFaults (warning count token).toList = drawFaults token.toList := by
  have plain : '[' ∉ "Warning:".toList := by decide
  have plain' : '[' ∉ " Invalid selection \"".toList := by decide
  have opens : opensStyle "yellow".toList = true := opensStyle_own (by decide)
  rw [toList_warning, drawFaults_styled opens (by decide), drawFaults_of_not_mem plain,
    List.nil_append]
  generalize before : " Invalid selection \"".toList = lead at plain'
  have ends : lead.getLast? ≠ some '\\' := by rw [← before]; decide
  rw [drawFaults_append (.of_plain plain' ends _), drawFaults_append (apart_warningEnd _ count),
    drawFaults_of_not_mem plain', drawFaults_of_not_mem (not_mem_bracket_warningEnd count),
    List.nil_append, List.append_nil]

theorem visible_warning (count : Nat) (token : String) :
    visible (warning count token).toList = warningText count (visible token.toList) := by
  have plain : '[' ∉ " Invalid selection \"".toList := by decide
  have ends : " Invalid selection \"".toList.getLast? ≠ some '\\' := by decide
  have verbatim : Verbatim "Warning:".toList := .of_not_mem (by decide)
  have opens : opensStyle "yellow".toList = true := opensStyle_own (by decide)
  rw [toList_warning, visible_styled opens verbatim (by decide)]
  unfold warningText
  generalize " Invalid selection \"".toList = before at plain ends ⊢
  rw [visible_append (.of_plain plain ends _), visible_append (apart_warningEnd _ count),
    visible_of_verbatim (.of_not_mem plain),
    visible_of_verbatim (.of_not_mem (not_mem_bracket_warningEnd count))]

/-- What follows the part that a warning tells of, from the next word on. -/
def boundText (count : Nat) : List Char :=
  "(must be 1-".toList ++ (toString count).toList ++ ")".toList

theorem warningText_eq (count : Nat) (seen : List Char) : warningText count seen =
    "Warning:".toList ++ ' ' :: ("Invalid".toList ++ ' ' :: ("selection".toList ++ ' ' ::
      ('"' :: seen ++ ['"'] ++ ' ' :: boundText count))) := by
  have lead : " Invalid selection \"".toList =
      ' ' :: ("Invalid".toList ++ ' ' :: ("selection".toList ++ [' ', '"'])) := by decide
  have trail : warningEnd count = '"' :: ' ' :: boundText count := rfl
  unfold warningText
  rw [trail, lead]
  simp only [List.append_assoc, List.cons_append, List.nil_append]

theorem wordsOf_warningText {seen : List Char} (plain : ∀ c ∈ seen, isBlank c = false) :
    wordsOf (warningText count seen) =
      ["Warning: ".toList, "Invalid ".toList, "selection ".toList] ++
        ('"' :: seen ++ ['"'] ++ [' ']) :: wordsOf (boundText count) := by
  have quoted : ∀ c ∈ '"' :: seen ++ ['"'], isBlank c = false := by
    intro c member
    rcases List.mem_append.mp member with inside | atEnd
    · rcases List.mem_cons.mp inside with rfl | inSeen
      · rfl
      · exact plain c inSeen
    · obtain rfl := List.mem_singleton.mp atEnd
      rfl
  have nonempty : '"' :: seen ++ ['"'] ≠ [] := by simp
  rw [warningText_eq, wordsOf_append_blank (c := 'I') (by decide) (by decide) rfl rfl,
    wordsOf_append_blank (c := 's') (by decide) (by decide) rfl rfl,
    wordsOf_append_blank (c := '"') (by decide) (by decide) rfl rfl,
    wordsOf_append_blank (c := '(') nonempty quoted rfl rfl]
  rfl

theorem not_mem_warningText {seen : List Char} (absent : '\n' ∉ seen) :
    '\n' ∉ warningText count seen := by
  have absent' : '\n' ∉ warningEnd count := fun member =>
    (plain_warningEnd count _ member).2.2.2 rfl
  unfold warningText
  simp only [List.mem_append, not_or]
  exact ⟨by decide, by decide, absent, absent'⟩

variable [Platform]

/-- A warning can be shown exactly if the part that it tells of can. -/
theorem exists_page_warning_iff (width count : Nat) (token : String) :
    (∃ text, page width (warning count token) = .ok text) ↔ Showable width count token := by
  have plain : Verbatim "Warning:".toList := .of_not_mem (by decide)
  have plain' : Verbatim " Invalid selection \"".toList := .of_not_mem (by decide)
  have apart : Apart " Invalid selection \"".toList (token.toList ++ warningEnd count) :=
    .of_plain (by decide) (by decide) _
  have opens : opensStyle "yellow".toList = true := opensStyle_own (by decide)
  obtain ⟨position, shows⟩ : ∃ position, shown (warning count token).toList =
      ((shownFrom position [] (token.toList ++ warningEnd count)).map
        (" Invalid selection \"".toList ++ ·)).map ("Warning:".toList ++ ·) := by
    rw [shown, toList_warning, shownFrom_styled opens plain (by decide),
      shownFrom_append plain' apart]
    exact ⟨_, rfl⟩
  have always : ∀ opened, Accepts opened (warningEnd count) := fun opened =>
    accepts_of_not_mem (not_mem_bracket_warningEnd count)
  rw [Showable, shown, ← accepts_iff, ← accepts_append_iff (apart_warningEnd _ count) always,
    accepts_iff position]
  constructor
  · rintro ⟨text, printed⟩
    obtain ⟨out, seen, drawn, -⟩ := page_eq_ok_iff.mp printed
    rw [shows] at seen
    obtain ⟨later, seen, -⟩ := Except.map_eq_ok_iff.mp seen
    obtain ⟨last, seen, -⟩ := Except.map_eq_ok_iff.mp seen
    exact ⟨⟨last, seen⟩, drawn⟩
  · rintro ⟨⟨last, seen⟩, drawn⟩
    rw [seen] at shows
    exact ⟨_, page_eq_ok_iff.mpr ⟨_, shows, drawn, rfl⟩⟩

/-- A part that can be drawn is warned of exactly if it can be shown. -/
theorem showable_iff_of_drawn (drawn : drawFaults token.toList = []) :
    Showable width count token ↔ ∃ out, shown token.toList = .ok out := by
  have drawnWarning : drawnFault? width [(warning count token).toList] = none :=
    drawnFault?_of_drawn (by simpa [drawFaults_warning] using drawn) width
  rw [Showable, and_iff_left drawnWarning]

/-- A page of a warning shows what is seen of its text on as many lines as that takes. -/
theorem exists_lines_of_page (plain : ∀ c ∈ token.toList, isBlank c = false)
    (printed : page width (warning count token) = .ok text) :
    text.toList = Text.joinWith ['\n']
      (wrapLine .fold width (warningText count (visible token.toList))) ++ ['\n'] := by
  obtain ⟨out, shows, -, rfl⟩ := page_eq_ok_iff.mp printed
  have absent : '\n' ∉ visible token.toList := fun member =>
    absurd (plain '\n' (visible_subset _ member)) (by decide)
  rw [String.toList_ofList, eq_visible shows, visible_warning,
    wrap_of_not_mem (not_mem_warningText absent)]

/-- A part without markup that fits into the width with the quote before it is on one line. -/
theorem exists_line_of_verbatim (plain : ∀ c ∈ token.toList, isBlank c = false)
    (verbatim : Verbatim token.toList) (fits : Text.columns ('"' :: token.toList) ≤ width)
    (printed : page width (warning count token) = .ok text) :
    ∃ line ∈ piecesAt '\n' text.toList, token.toList <:+: line := by
  have lines := exists_lines_of_page plain printed
  rw [visible_of_verbatim verbatim] at lines
  have singles : ∀ word ∈ ["Warning: ".toList, "Invalid ".toList, "selection ".toList],
      word ≠ [] ∧ Single word := by
    intro word member
    simp only [List.mem_cons, List.not_mem_nil, or_false] at member
    rcases member with rfl | rfl | rfl <;> exact ⟨by decide, .of_ascii (by decide)⟩
  have plain' : ∀ c ∈ '"' :: token.toList, isBlank c = false :=
    List.forall_mem_cons.mpr ⟨rfl, plain⟩
  have one : Text.columnsOf '"' = 1 := by decide
  obtain ⟨line, member, inside⟩ :=
    exists_line_of_word singles (by decide) plain' one rfl fits (wordsOf (boundText count))
  have wrapped : line ∈ wrapLine .fold width (warningText count token.toList) := by
    unfold wrapLine
    rw [wordsOf_warningText plain]
    exact member
  have absent : '\n' ∉ token.toList := fun member => absurd (plain '\n' member) (by decide)
  refine Text.exists_piece_of_infix absent ?_
  rw [lines]
  exact (List.suffix_cons _ _).isInfix.trans (inside.trans
    ((Text.infix_joinWith wrapped _).trans (List.prefix_append _ _).isInfix))

/-- A part that is on a line as it stands has no markup: a mark that is not seen is missing there. -/
theorem verbatim_of_line (plain : ∀ c ∈ token.toList, isBlank c = false)
    (printed : page width (warning count token) = .ok text) {line : List Char}
    (member : line ∈ piecesAt '\n' text.toList) (inside : token.toList <:+: line) :
    Verbatim token.toList := by
  have lines := exists_lines_of_page plain printed
  have marks : ∀ {s : List Char}, (∀ c ∈ s, isMark c = false) → s.countP isMark = 0 :=
    fun unmarked => List.countP_eq_zero.mpr fun c member => by simp [unmarked c member]
  have lead : "Warning:".toList.countP isMark = 0 := marks (by decide)
  have lead' : " Invalid selection \"".toList.countP isMark = 0 := marks (by decide)
  have trail : (warningEnd count).countP isMark = 0 := marks fun c member => by
    have absent := plain_warningEnd count c member
    simp [isMark, absent.1, absent.2.1]
  have shown : (warningText count (visible token.toList)).countP isMark =
      (visible token.toList).countP isMark := by
    unfold warningText
    simp only [List.countP_append, lead, lead', trail]
    omega
  have printedMarks : text.toList.countP isMark ≤ (visible token.toList).countP isMark := by
    rw [lines, List.countP_append, Text.countP_joinWith (by decide), ← shown]
    exact countP_wrapLine_le rfl width _
  have whole := (inside.trans (Text.infix_of_mem_piecesAt member)).sublist.countP_le (p := isMark)
  have seen := countP_visible token.toList
  exact seen.2 (by omega)

end

/-- The part holds no control character, and no colon, with which the name of a picture may begin. -/
def Ordinary (token : String) : Prop :=
  ∀ c ∈ token.toList, c ≠ ':' ∧ ¬ (c.toNat < 0x20 ∨ 0x7F ≤ c.toNat ∧ c.toNat < 0xA0)

/-- What is told of a part of an answer that picks nothing. -/
structure Told [Platform] (width count : Nat) (token text : String) : Prop where
  page : Terminal.page width (warning count token) = .ok text
  /-- The part is seen without its tags and without the backslashes that hold them; so it is seen as
  it stands if and only if it has no markup. -/
  shown : Ordinary token → Terminal.shown (warning count token).toList =
    .ok (warningText count (visible token.toList)) ∧
      (visible token.toList = token.toList ↔ Verbatim token.toList)
  /-- A part that fits on a line, with the quote before it, is on a line of the warning as it stands
  if and only if it has no markup. -/
  line : Ordinary token → Text.columns ('"' :: token.toList) ≤ width →
    ((∃ line ∈ piecesAt '\n' text.toList, token.toList <:+: line) ↔ Verbatim token.toList)

theorem told_of_page [Platform] {width count : Nat} {token text : String}
    (plain : ∀ c ∈ token.toList, isBlank c = false)
    (printed : page width (warning count token) = .ok text) : Told width count token text := by
  refine ⟨printed, fun _ => ⟨?_, visible_eq_self_iff⟩, fun _ fits => ⟨?_, fun verbatim =>
    exists_line_of_verbatim plain verbatim fits printed⟩⟩
  · obtain ⟨out, shows, -, -⟩ := page_eq_ok_iff.mp printed
    rw [shows, eq_visible shows, visible_warning]
  · rintro ⟨line, member, inside⟩
    exact verbatim_of_line plain printed member inside

section

variable {selection : Selection}

theorem not_isBlank_of_mem_invalid {answer token : String} {count : Nat}
    (read : Selection.parse answer count = .ok selection) (member : token ∈ selection.invalid) :
    ∀ c ∈ token.toList, isBlank c = false := by
  obtain ⟨part, inside, rfl⟩ := Selection.exists_token_of_mem_invalid read member
  rw [Selection.tokens_trim] at inside
  intro c inPart
  rw [String.toList_ofList] at inPart
  have free := (Text.free_of_mem_runs inside).2 c inPart
  by_contra blank
  rw [Selection.separates_of_isBlank (by simpa using blank)] at free
  cases free

variable [Platform] {console : Console} {manager : Manager} {unused : List Name}

/-- The warnings of a session: one for each part of the answer that picks nothing. -/
def warnings (console : Console) (unused : List Name) (selection : Selection) :
    Conversation Unit :=
  selection.invalid.forM fun token => say console (warning unused.length token)

/-- Up to the answer nothing can stop a session. -/
theorem exists_run_dialogue (whole : console.reading = .wholeLines) (nonempty : unused ≠ [])
    (plainNames : ∀ name ∈ unused, Harmless console.stream name.points) (run : Runner) (project : Path)
    (manager : Manager) (lines : List String) :
    ∃ before, (dialogue console run project manager unused).run ⟨lines, []⟩ =
      (ofExcept .tooLong (Selection.parse (lines.head?.getD "") unused.length) >>=
        fun selection => warnings console unused selection >>= fun _ =>
          settle console run project manager unused selection).run ⟨lines.tail, before⟩ := by
  obtain ⟨texts, pages⟩ : ∃ texts, Pages console id (choices unused) texts :=
    exists_pages fun markup member => exists_paged_of_mem_choices plainNames member
  obtain ⟨events, asks, -⟩ := Goes.of_ask whole (exists_inline_choice console.width) lines
    ([] ++ texts.map (.printed console.stream))
  have lists : ((choices unused).forM (tell console)).run ⟨lines, []⟩ = _ := run_forM_tell pages _
  refine ⟨[] ++ texts.map (.printed console.stream) ++ events, ?_⟩
  rw [dialogue_eq nonempty, run_bind, lists]
  dsimp only
  rw [run_bind, asks]
  rfl

/-- After the warnings nothing but the removal can fail. -/
theorem exists_run_settle (whole : console.reading = .wholeLines)
    (plainManager : '[' ∉ manager.name.toList)
    (plainNames : ∀ name ∈ unused, Harmless console.stream name.points)
    (project : Path) (status : Int) (selection : Selection) (desk : Desk) :
    ∃ ending after events,
      (settle console (.recorder status) project manager unused selection).run desk =
        (ending, ⟨after, desk.transcript ++ events⟩) ∧ Survives ending := by
  have goes : GoesUnless False (settle console (.recorder status) project manager unused selection)
      desk.answers _ _ :=
    goesUnless_settle whole (fun _ => plainManager) (fun _ => plainNames) desk.answers
  rcases goes with ⟨left, goes⟩ | ⟨stuck, -⟩
  · obtain ⟨events, ran, -⟩ := goes desk.transcript
    refine ⟨_, left, events, ran, ?_⟩
    unfold endOf
    split_ifs <;> trivial
  · exact stuck.elim

end

/-- How a session goes whose answer says this. -/
structure Course [Platform] (width : Nat) (stream : Stream) (unused : List Name)
    (parsed : Except Text.TooLong Selection) (ran : Except Ending Outcome × Desk) : Prop where
  survives : Survives ran.1 ↔ unused = [] ∨
    ∃ selection, parsed = .ok selection ∧ ∀ token ∈ selection.invalid, Showable width unused.length token
  /-- A number that is too long ends the session. -/
  tooLong : unused ≠ [] → ∀ number, parsed = .error number →
    ran.1 = .error (.failed (.tooLong number))
  /-- A part that is to be warned of and cannot be shown ends the session. -/
  markup : unused ≠ [] → ∀ selection, parsed = .ok selection →
    (∃ token ∈ selection.invalid, ¬ Showable width unused.length token) →
      ∃ fault, ran.1 = .error (.failed (.markup fault))
  /-- Otherwise every part that picks nothing is warned of, one after the other. -/
  warned : unused ≠ [] → ∀ selection, parsed = .ok selection →
    (∀ token ∈ selection.invalid, Showable width unused.length token) → ∃ before texts after,
      ran.2.transcript = before ++ texts.map (.printed stream) ++ after ∧
        List.Forall₂ (Told width unused.length) selection.invalid texts

namespace Course

variable [Platform] {width : Nat} {stream : Stream} {unused : List Name} {selection : Selection}
  {parsed : Except Text.TooLong Selection} {ran : Except Ending Outcome × Desk} {desk : Desk}

theorem of_nothing (survives : Survives ran.1) : Course width stream [] parsed ran :=
  ⟨iff_of_true survives (.inl rfl), absurd rfl, absurd rfl, absurd rfl⟩

theorem of_tooLong (nonempty : unused ≠ []) (number : Text.TooLong) :
    Course width stream unused (.error number) (.error (.failed (.tooLong number)), desk) := by
  refine ⟨⟨False.elim, ?_⟩, fun _ other same => ?_, nofun, nofun⟩
  · rintro (empty | ⟨selection, same, -⟩)
    · exact absurd empty nonempty
    · cases same
  · cases same
    rfl

theorem of_markup (nonempty : unused ≠ []) {token : String} (member : token ∈ selection.invalid)
    (hidden : ¬ Showable width unused.length token) (fault : MarkupFault) :
    Course width stream unused (.ok selection) (.error (.failed (.markup fault)), desk) := by
  refine ⟨⟨False.elim, ?_⟩, nofun, fun _ _ _ _ => ⟨fault, rfl⟩, ?_⟩
  · rintro (empty | ⟨_, same, showable⟩)
    · exact absurd empty nonempty
    · cases same
      exact hidden (showable token member)
  · rintro - _ same showable
    cases same
    exact absurd (showable token member) hidden

theorem of_told {before : List Event} {texts : List String} {after : List Event}
    (showable : ∀ token ∈ selection.invalid, Showable width unused.length token)
    (survives : Survives ran.1)
    (printed : ran.2.transcript = before ++ texts.map (.printed stream) ++ after)
    (told : List.Forall₂ (Told width unused.length) selection.invalid texts) :
    Course width stream unused (.ok selection) ran := by
  refine ⟨iff_of_true survives (.inr ⟨selection, rfl, showable⟩), nofun, ?_, ?_⟩
  · rintro - _ same ⟨token, member, hidden⟩
    cases same
    exact absurd (showable token member) hidden
  · rintro - _ same -
    cases same
    exact ⟨before, texts, after, printed, told⟩

end Course

section

variable [Platform]

/-- The first line of the input decides how a session goes. -/
theorem course_dialogue (console : Console) (project : Path) (manager : Manager)
    (unused : List Name) (lines : List String) (status : Int) (whole : console.reading = .wholeLines)
    (plainManager : '[' ∉ manager.name.toList)
    (plainNames : ∀ name ∈ unused, Harmless console.stream name.points) :
    Course console.width console.stream unused
      (Selection.parse (lines.head?.getD "") unused.length)
      ((dialogue console (.recorder status) project manager unused).run ⟨lines, []⟩) := by
  by_cases empty : unused = []
  · subst empty
    have goes : Goes (dialogue console (.recorder status) project manager []) lines
        (.ok ⟨[], false, none⟩) lines [] :=
      (Goes.of_say (exists_page_nothing console.width) lines).bind (.of_pure _ lines)
    obtain ⟨events, ran, -⟩ := goes []
    rw [ran]
    exact .of_nothing trivial
  obtain ⟨before, ran⟩ :=
    exists_run_dialogue whole empty plainNames (.recorder status) project manager lines
  rw [ran]
  cases parsed : Selection.parse (lines.head?.getD "") unused.length with
  | error number =>
    rw [ofExcept_error_bind]
    exact .of_tooLong empty number
  | ok selection =>
    rw [ofExcept_ok_bind, run_bind]
    have shows : ∀ token, (∃ text, page console.width (warning unused.length token) = .ok text) ↔
        Showable console.width unused.length token :=
      exists_page_warning_iff console.width unused.length
    have tells : warnings console unused selection = selection.invalid.forM fun token =>
      tell console (Text.points (warning unused.length token)) := forM_say_eq _ _ _
    rw [tells]
    rcases pages_or_fault console (fun token => Text.points (warning unused.length token))
      selection.invalid ⟨lines.tail, before⟩
      with ⟨texts, pages⟩ | ⟨token, member, failure, after, refused, stops⟩
    · obtain ⟨ending, after, events, settled, survives⟩ := exists_run_settle whole plainManager
        plainNames project status selection
        ⟨lines.tail, before ++ texts.map (.printed console.stream)⟩
      rw [run_forM_tell pages]
      dsimp only
      rw [settled]
      have plain : ∀ token ∈ selection.invalid, ∀ c ∈ token.toList, isBlank c = false :=
        fun token member => not_isBlank_of_mem_invalid parsed member
      have told : List.Forall₂ (Told console.width unused.length) selection.invalid texts :=
        ((List.forall₂_and_left _ _).mpr ⟨plain, pages⟩).imp fun _ _ told =>
          told_of_page told.1 (Except.mapError_eq_ok_iff.mp ((paged_points _ _).symm.trans told.2))
      have showable : ∀ token ∈ selection.invalid, Showable console.width unused.length token :=
        fun token member => (shows token).mp (exists_paged_points.mp (pages.exists_text member))
      exact .of_told showable survives rfl told
    · rw [paged_points] at refused
      obtain ⟨fault, refused, rfl⟩ := Except.mapError_eq_error_iff.mp refused
      have hidden : ¬ Showable console.width unused.length token := fun showable => by
        obtain ⟨text, laid⟩ := (shows token).mpr showable
        rw [laid] at refused
        cases refused
      rw [stops]
      exact .of_markup empty member hidden fault

end

theorem plain_of_known {manager : Manager} (known : manager ∈ Manager.known) :
    '[' ∉ manager.name.toList := by
  revert manager
  decide

/-- The name is written in these characters. -/
def Named (name : Name) : Prop := ∀ p ∈ name.points, p.char?.any isNameChar = true

theorem harmless_of_named {name : Name} (named : Named name) (stream : Stream) :
    Harmless stream name.points := by
  refine ⟨fun inName => absurd (named _ inName) (by decide), fun _ p member => ?_⟩
  have isChar := named p member
  cases p with
  | char => rfl
  | high | low => cases isChar

instance (name : Name) : Decidable (Named name) :=
  inferInstanceAs (Decidable (∀ p ∈ name.points, p.char?.any isNameChar = true))

/-- A session of a known manager survives its input exactly if there is nothing to pick, or the first
line is read and all parts of it that pick nothing can be shown. Then each of these is warned of, as
it stands if it has no markup; otherwise the session ends with what could not be read or shown. -/
theorem session_survives_iff [Platform] (width : Nat) (stream : Stream) (project : Path)
    (manager : Manager) (unused : List Name) (input : String) (status : Int)
    (known : manager ∈ Manager.known) (named : ∀ name ∈ unused, Named name) :
    Course width stream unused
      (Selection.parse ((linesOf input).head?.getD "") unused.length)
      ((dialogue ⟨width, stream, .wholeLines⟩ (.recorder status) project manager unused).run
        ⟨linesOf input, []⟩) :=
  course_dialogue ⟨width, stream, .wholeLines⟩ project manager unused (linesOf input) status rfl
    (plain_of_known known) fun name member => harmless_of_named (named name member) stream

section

attribute [local instance] Platform.standard

/-- An answer with two parts that pick nothing, one of them in brackets that are no tag. -/
theorem session_survives_of_brackets :
    Manager.yarn ∈ Manager.known ∧ (∀ name ∈ [Name.ofString "@scope/left.pad"], Named name) ∧
    Survives ((dialogue ⟨80, .output, .wholeLines⟩ (.recorder 0) ⟨.root, ["project"]⟩ .yarn
      [Name.ofString "@scope/left.pad"]).run ⟨linesOf "7, [8]\n", []⟩).1 := by
  have course := session_survives_iff 80 .output ⟨.root, ["project"]⟩ .yarn
    [Name.ofString "@scope/left.pad"] "7, [8]\n" 0 (by decide) (by decide)
  have parsed : Selection.parse ((linesOf "7, [8]\n").head?.getD "") 1 =
      .ok ⟨[], ["7", "[8]"]⟩ := rfl
  refine ⟨by decide, by decide, course.survives.mpr (.inr ⟨_, parsed, ?_⟩)⟩
  have verbatim : ∀ token ∈ ["7", "[8]"], Verbatim token.toList := by
    refine List.forall_mem_cons.mpr ⟨.of_not_mem (by decide), List.forall_mem_singleton.mpr ?_⟩
    exact .cons rfl (by decide) (.of_not_mem (by decide))
  exact fun token member => (showable_iff_of_drawn (drawFaults_of_verbatim (verbatim token member))).mpr
    ⟨_, shownFrom_of_verbatim (verbatim token member) 0⟩

end

/-- A part that begins with a tag that closes is not shown, as no tag is open there. -/
theorem not_showable_of_close [Platform] {width count : Nat} (closed rest : List Char)
    {token : String} (shape : token.toList = '[' :: '/' :: (closed ++ ']' :: rest))
    (inside : ∀ d ∈ closed, (d != ']' && d != '[') = true) : ¬ Showable width count token := by
  rintro ⟨⟨out, shows⟩, -⟩
  rw [shown, shape, shownFrom_bracket (tag?_of_closed (by decide) inside)] at shows
  obtain ⟨opened, steps, -⟩ := Except.bind_eq_ok_iff.mp shows
  obtain ⟨fault, fails⟩ := exists_fault_of_close 0 closed
  rw [fails] at steps
  cases steps

section

attribute [local instance] Platform.standard

/-- An answer in brackets ends a session with one name in it. -/
theorem not_survives_of_close :
    Manager.npm ∈ Manager.known ∧ (∀ name ∈ [Name.ofString "a"], Named name) ∧
    ¬ Survives ((dialogue ⟨80, .output, .wholeLines⟩ (.recorder 0) ⟨.root, ["project"]⟩ .npm
      [Name.ofString "a"]).run ⟨linesOf "[/x]\n", []⟩).1 := by
  have named : ∀ name ∈ [Name.ofString "a"], Named name := by decide
  have course := course_dialogue ⟨80, .output, .wholeLines⟩ ⟨.root, ["project"]⟩ .npm
    [Name.ofString "a"] (linesOf "[/x]\n") 0 rfl (by decide)
    fun name member => harmless_of_named (named name member) _
  have parsed : Selection.parse ((linesOf "[/x]\n").head?.getD "") 1 = .ok ⟨[], ["[/x]"]⟩ := rfl
  refine ⟨by decide, named, fun survives => ?_⟩
  rcases course.survives.mp survives with empty | ⟨selection, same, showable⟩
  · cases empty
  · cases same.symm.trans parsed
    exact not_showable_of_close ['x'] [] rfl (by decide)
      (showable "[/x]" List.mem_cons_self)

end

end DependencyAudit.Removal
