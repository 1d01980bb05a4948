import DependencyAudit.Proofs.Conversation.Exact
import DependencyAudit.Proofs.Names
import DependencyAudit.Proofs.Terminal.Page
import DependencyAudit.Report.Summary

namespace DependencyAudit.Report

open Terminal Conversation
open Text (Single columnsOf piecesAt joinWith)

/-- The line that says how many names are unused. -/
def headingOf (result : Result) : String := s!"Found {result.unused.length} unused dependencies:"

/-- The line for an unused name. -/
def nameLine (name : String) : String := s!"  - {name}"

/-- The line that says how many of the declared names are unused. -/
def totalLine (result : Result) : String := s!"Total: {result.unused.length}/{result.total}"

/-- The lines that tell of the unused names of a result, which are these. -/
def reportLines (result : Result) (names : List String) : List String :=
  headingOf result :: "" :: (names.map nameLine ++ ["", totalLine result])

/-- Lines, each with the line feed that ends it. -/
def textOf (lines : List String) : String := String.join (lines.map (· ++ "\n"))

/-- The name that a line lists, if it lists one. -/
def listedName? (line : List Char) : Option String :=
  if "  - ".toList.isPrefixOf line then some (String.ofList (line.drop 4)) else none

/-- The names that the lines of a text list. -/
def namesIn (text : String) : List String := (piecesAt '\n' text.toList).filterMap listedName?

/-- A name in visible characters of ASCII, without a colon. -/
def Graphic (name : String) : Prop :=
  name ≠ "" ∧ ∀ c ∈ name.toList, 0x21 ≤ c.toNat ∧ c.toNat ≤ 0x7E ∧ c ≠ ':'

/-- A name that has no markup of its own, nor holds the tag after it by a backslash at its end. -/
def Unmarked (name : String) : Prop :=
  Verbatim name.toList ∧ name.toList.getLast? ≠ some '\\'

/-- The conversation comes to its end, and what it prints on the console, and does at all, is this
text. -/
def PrintsText (c : Conversation Unit) (console : Console) (text : String) : Prop :=
  ∀ desk, ∃ texts, c.run desk =
    (.ok (), ⟨desk.answers, desk.transcript ++ texts.map (.printed console.stream)⟩) ∧
    String.join texts = text

/-- The markup of the line for a name. -/
def item (name : String) : String := s!"  - [red]{name}[/]"

/-- The markup of the line that says how many names are unused, with an empty line after it. -/
def headingItem (result : Result) : String :=
  s!"Found [bold red]{result.unused.length}[/] unused dependencies:\n"

/-- The markup of the line that says how many of the declared names are unused, with an empty line
before it. -/
def totalItem (result : Result) : String :=
  s!"\nTotal: {result.unused.length}/{result.total}"

section

variable {result : Result} {names : List String} {name text : String} {s : List Char} {width : Nat}

theorem listing_eq (texts : result.unused = names.map Name.ofString) (nonempty : names ≠ []) :
    listing result =
      (headingItem result :: (names.map item ++ [totalItem result])).map Text.points := by
  have unused : result.unused ≠ [] := by rw [texts]; simpa using nonempty
  have items : result.unused.map (Name.between "  - [red]" "[/]") =
      (names.map item).map Text.points := by
    rw [texts, List.map_map, List.map_map]
    exact List.map_congr_left fun name _ => Name.between_ofString _ _ _
  unfold listing
  rw [if_neg unused, items, List.map_cons, List.map_append, List.map_singleton]
  rfl

theorem toList_item (name : String) : (item name).toList =
    "  - ".toList ++ '[' :: ("red".toList ++ ']' :: (name.toList ++ ['[', '/', ']'])) := by
  simp [item, toString]

theorem toList_nameLine (name : String) : (nameLine name).toList = "  - ".toList ++ name.toList := by
  simp [nameLine, toString]

theorem shown_item [Platform] (unmarked : Unmarked name) :
    shown (item name).toList = .ok (nameLine name).toList ∧ drawFaults (item name).toList = [] := by
  refine ⟨?_, drawn_styled "  - ".toList (toList_item name) (opensStyle_own (by decide)) (by decide)
    unmarked.1 unmarked.2 List.not_mem_nil⟩
  rw [shown_styled "  - ".toList (toList_item name) (opensStyle_own (by decide)) (by decide)
    unmarked.1 unmarked.2 List.not_mem_nil, List.append_nil, toList_nameLine]

/-- Whatever the name, the line has the dash before it. -/
theorem visible_item (name : String) : visible (item name).toList =
    "  - ".toList ++ visible (name.toList ++ ['[', '/', ']']) := by
  rw [toList_item, visible_append (.of_bracket (by decide) _),
    visible_of_verbatim (.of_not_mem (by decide)),
    visible_bracket (tag?_of_opensStyle (opensStyle_own (by decide)) _)]

theorem ofList_append_lineFeed (s : String) : String.ofList (s.toList ++ ['\n']) = s ++ "\n" := by
  rw [← String.toList_inj]
  simp

/-- Characters that are visible and of ASCII take one column each and are no blanks. -/
theorem plain_of_graphic (graphic : ∀ c ∈ s, 0x21 ≤ c.toNat ∧ c.toNat ≤ 0x7E) :
    Single s ∧ ∀ c ∈ s, Text.isBlank c = false := by
  refine ⟨.of_ascii fun c member => ?_, fun c member => ?_⟩
  · have range := graphic c member
    omega
  · have range := graphic c member
    simp [Text.isBlank]
    omega

theorem single_nameLine (graphic : Graphic name) : Single (nameLine name).toList := by
  rw [toList_nameLine]
  exact .append (.of_ascii (by decide))
    (plain_of_graphic fun c member => ⟨(graphic.2 c member).1, (graphic.2 c member).2.1⟩).1

theorem page_item [Platform] (graphic : Graphic name) (unmarked : Unmarked name)
    (fits : name.length + 4 ≤ width) : page width (item name) = .ok (nameLine name ++ "\n") := by
  have single := single_nameLine graphic
  have length : (nameLine name).toList.length = name.length + 4 := by
    rw [toList_nameLine, List.length_append, String.length_toList, Nat.add_comm]
    rfl
  obtain ⟨shows, drawn⟩ := shown_item unmarked
  rw [page_of_fits shows drawn, ofList_append_lineFeed]
  rw [Text.piecesAt_of_not_mem (not_mem_of_single single)]
  simpa [single, length] using fits

/-- What is seen of a name that is too long for its line goes to the next one. -/
theorem exists_wrapLine_of_long (graphic : ∀ c ∈ s, 0x21 ≤ c.toNat ∧ c.toNat ≤ 0x7E)
    (wide : 4 ≤ width) (long : width < 4 + s.length) :
    ∃ others, wrapLine .fold width ("  - ".toList ++ s) = "  - ".toList :: others := by
  obtain ⟨single, plain⟩ := plain_of_graphic graphic
  have nonempty : s ≠ [] := by
    rintro rfl
    exact absurd long (by simpa using wide)
  have first : Single "  - ".toList := .of_ascii (by decide)
  have words : wordsOf ("  - ".toList ++ s) = ["  - ".toList, s] := by
    have dash : "-".toList ≠ [] := by decide
    have both := wordsOf_append "  ".toList " ".toList s (by decide) dash (by decide) (by decide)
      nofun fun c atStart => plain c (List.mem_of_mem_head? atStart)
    exact both.trans (by rw [wordsOf_word nonempty plain]; rfl)
  have trimmed : Text.trimEnd s = s :=
    Text.trimEnd_eq_self fun c atEnd => plain c (List.mem_of_mem_getLast? atEnd)
  have solid : Text.totalSize (Text.clusters s) ≠ 0 := by
    rw [single.clusters_eq, single.totalSize_map]
    exact mt List.length_eq_zero_iff.mp nonempty
  have tooWide : ¬ 0 + Text.columns "  - ".toList + Text.columns (Text.trimEnd s) ≤ width := by
    rw [trimmed, single.columns_eq, first.columns_eq]
    exact Nat.not_le_of_lt (by simpa using long)
  have here : 0 + Text.columns (Text.trimEnd "  - ".toList) ≤ width := by
    have := columns_trimEnd_le first
    have : "  - ".toList.length = 4 := by decide
    omega
  obtain ⟨others, same⟩ := exists_fill_of_tooWide .fold []
    (by decide : [] ++ "  - ".toList ≠ []) solid tooWide
  refine ⟨others.map (cropLine .fold width), ?_⟩
  unfold wrapLine
  rw [words]
  dsimp only
  rw [fill_cons_of_fits here, same, List.map_cons, List.nil_append,
    cropLine_of_fits first (by simpa using wide)]

/-- A page that starts with the line for a name is that line, and the name has no markup. -/
theorem unmarked_of_page [Platform] (graphic : Graphic name) (wide : 4 ≤ width)
    (printed : page width (item name) = .ok text) {rest rest' : List Char}
    (same : text.toList ++ rest = (nameLine name).toList ++ '\n' :: rest') :
    Unmarked name ∧ rest = rest' := by
  obtain ⟨out, shows, -, rfl⟩ := page_eq_ok_iff.mp printed
  have seen := (eq_visible shows).trans (visible_item name)
  have marks : ∀ c ∈ ['[', '/', ']'], 0x21 ≤ c.toNat ∧ c.toNat ≤ 0x7E := by decide
  have graphic' : ∀ c ∈ visible (name.toList ++ ['[', '/', ']']),
      0x21 ≤ c.toNat ∧ c.toNat ≤ 0x7E := fun c member => by
    rcases List.mem_append.mp (visible_subset _ member) with inName | inMarks
    · exact ⟨(graphic.2 c inName).1, (graphic.2 c inName).2.1⟩
    · exact marks c inMarks
  have dash : Single "  - ".toList := .of_ascii (by decide)
  have single : Single ("  - ".toList ++ visible (name.toList ++ ['[', '/', ']'])) :=
    dash.append (plain_of_graphic graphic').1
  have absent := not_mem_of_single (single_nameLine graphic)
  rw [seen, String.toList_ofList, wrap_of_not_mem (not_mem_of_single single)] at same
  by_cases fits : ("  - ".toList ++ visible (name.toList ++ ['[', '/', ']'])).length ≤ width
  · rw [wrapLine_of_fits single fits, joinWith, List.append_assoc, List.singleton_append] at same
    obtain ⟨line, tail⟩ := line_inj (not_mem_of_single single) absent same
    rw [toList_nameLine] at line
    exact ⟨visible_append_close_eq_iff.mp (List.append_cancel_left line), tail⟩
  · -- Then the first line has the dash alone, but the name is not empty.
    obtain ⟨others, shape⟩ := exists_wrapLine_of_long graphic' wide
      (by rw [List.length_append] at fits; exact Nat.lt_of_not_le fits)
    obtain ⟨more, starts⟩ := exists_rest_of_page shape
    rw [starts, List.append_assoc, List.cons_append] at same
    obtain ⟨line, -⟩ := line_inj (not_mem_of_single dash) absent same
    rw [toList_nameLine, List.self_eq_append_right, String.toList_eq_nil_iff] at line
    exact absurd line graphic.1

theorem toList_headingItem (result : Result) : (headingItem result).toList =
    "Found ".toList ++ '[' :: ("bold red".toList ++ ']' ::
      ((toString result.unused.length).toList ++ '[' :: '/' :: ']' ::
        " unused dependencies:\n".toList)) := by
  have lead : "Found [bold red]".toList = "Found ".toList ++ '[' :: ("bold red".toList ++ [']']) := by
    decide
  have trail : "[/] unused dependencies:\n".toList =
      '[' :: '/' :: ']' :: " unused dependencies:\n".toList := by decide
  change ("Found [bold red]" ++ toString result.unused.length ++
    "[/] unused dependencies:\n").toList = _
  rw [String.toList_append, String.toList_append, lead, trail]
  simp only [List.append_assoc, List.cons_append, List.nil_append]

theorem toList_headingOf (result : Result) : (headingOf result).toList =
    "Found ".toList ++ ((toString result.unused.length).toList ++
      " unused dependencies:".toList) := by
  simp [headingOf, toString]

theorem shown_headingItem [Platform] (result : Result) :
    shown (headingItem result).toList = .ok ((headingOf result).toList ++ ['\n']) ∧
      drawFaults (headingItem result).toList = [] := by
  have plain := not_mem_number result.unused.length
  have ends : (toString result.unused.length).toList.getLast? ≠ some '\\' := fun last =>
    not_mem_backslash_number _ (List.mem_of_getLast? last)
  refine ⟨?_, drawn_styled "Found ".toList (toList_headingItem result) (opensStyle_own (by decide))
    (by decide) (.of_not_mem plain) ends (by decide)⟩
  rw [shown_styled "Found ".toList (toList_headingItem result) (opensStyle_own (by decide))
    (by decide) (.of_not_mem plain) ends (by decide), toList_headingOf, List.append_assoc,
    List.append_assoc]
  rfl

theorem single_headingOf (result : Result) : Single (headingOf result).toList := by
  rw [toList_headingOf]
  exact .append (.of_ascii (by decide)) (.append (.of_number _) (.of_ascii (by decide)))

theorem page_headingItem [Platform] (fits : (headingOf result).length ≤ width) :
    page width (headingItem result) = .ok (headingOf result ++ "\n" ++ "\n") := by
  have absent := not_mem_of_single (single_headingOf result)
  obtain ⟨shows, drawn⟩ := shown_headingItem result
  rw [page_of_fits shows drawn, ← ofList_append_lineFeed, ← ofList_append_lineFeed,
    String.toList_ofList]
  rw [Text.piecesAt_append_cons absent, Text.piecesAt_of_not_mem (by simp)]
  refine List.forall_mem_cons.mpr ⟨⟨single_headingOf result, ?_⟩, ?_⟩
  · rwa [String.length_toList]
  · simp [Single]

theorem fits_of_page [Platform] (printed : page width (headingItem result) = .ok text)
    {rest rest' : List Char}
    (same : text.toList ++ rest = (headingOf result).toList ++ '\n' :: rest') :
    (headingOf result).length ≤ width := by
  obtain ⟨out, shows, -, rfl⟩ := page_eq_ok_iff.mp printed
  have single := single_headingOf result
  have absent := not_mem_of_single single
  cases shows.symm.trans (shown_headingItem result).1
  obtain ⟨first, others, shape⟩ := List.exists_cons_of_ne_nil
    (wrapLine_ne_nil .fold width (headingOf result).toList)
  have lines : wrap .fold width ((headingOf result).toList ++ ['\n']) =
      first :: (others ++ wrapLine .fold width []) := by
    rw [wrap, Text.piecesAt_append_cons absent, Text.piecesAt_of_not_mem (by simp),
      List.flatMap_cons, List.flatMap_singleton, shape, List.cons_append]
  obtain ⟨more, starts⟩ := exists_rest_of_page lines
  rw [String.toList_ofList, starts, List.append_assoc, List.cons_append] at same
  have member : first ∈ wrapLine .fold width (headingOf result).toList := by
    rw [shape]
    exact List.mem_cons_self
  obtain ⟨inside, short⟩ := of_mem_wrapLine single member
  obtain ⟨rfl, -⟩ := line_inj (fun inFirst => absent (inside inFirst)) absent same
  rwa [String.length_toList] at short

theorem toList_totalLine (result : Result) : (totalLine result).toList =
    "Total: ".toList ++ ((toString result.unused.length).toList ++ ("/".toList ++
      (toString result.total).toList)) := by
  simp [totalLine, toString]

theorem single_totalLine (result : Result) : Single (totalLine result).toList := by
  rw [toList_totalLine]
  exact .append (.of_ascii (by decide)) (.append (.of_number _)
    (.append (.of_ascii (by decide)) (.of_number _)))

theorem page_totalItem [Platform] (fits : (totalLine result).length ≤ width) :
    page width (totalItem result) = .ok ("\n" ++ totalLine result ++ "\n") := by
  have shape : (totalItem result).toList = [] ++ '\n' :: (totalLine result).toList := by
    simp [totalItem, totalLine, toString]
  have plain : '[' ∉ (totalItem result).toList := by
    have numbers := And.intro (not_mem_number result.unused.length) (not_mem_number result.total)
    simpa [totalItem, toString] using numbers
  have absent := not_mem_of_single (single_totalLine result)
  rw [page_of_fits (shownFrom_of_verbatim (.of_not_mem plain) 0) (drawFaults_of_not_mem plain),
    ofList_append_lineFeed]
  · exact congrArg (Except.ok <| · ++ "\n") (String.toList_inj.mp (by simpa using shape))
  · rw [shape, Text.piecesAt_append_cons (by simp), Text.piecesAt_of_not_mem absent]
    refine List.forall_mem_cons.mpr ⟨by simp [Single], List.forall_mem_singleton.mpr
      ⟨single_totalLine result, ?_⟩⟩
    rwa [String.length_toList]

/-- The last line is shorter than the first one, where the total is not too long. -/
theorem length_totalLine_le (few : result.total < 1000000000)
    (fits : (headingOf result).length ≤ width) : (totalLine result).length ≤ width := by
  have digits : (toString result.total).toList.length ≤ 9 := by
    rw [Nat.toString_eq_repr, Nat.toList_repr]
    exact (Nat.length_toDigits_le_iff (by omega) (by omega)).mpr (by omega)
  rw [← String.length_toList] at fits ⊢
  rw [toList_headingOf] at fits
  rw [toList_totalLine]
  simp only [List.length_append] at fits ⊢
  have found : "Found ".toList.length = 6 := by decide
  have rest : " unused dependencies:".toList.length = 21 := by decide
  have total : "Total: ".toList.length = 7 := by decide
  have slash : "/".toList.length = 1 := by decide
  omega

theorem toList_textOf (lines : List String) :
    (textOf lines).toList = lines.flatMap (·.toList ++ ['\n']) := by
  simp [textOf, List.flatMap_map]

theorem textOf_cons (line : String) (lines : List String) :
    textOf (line :: lines) = line ++ "\n" ++ textOf lines := by
  simp [textOf]

section

variable [Platform] {console : Console}

theorem paged_eq_ok {markup : String} (laid : page console.width markup = .ok text) :
    paged console (Text.points markup) = .ok text := by
  rw [paged_points, laid]
  rfl

theorem pages_map_points {markups texts : List String} :
    Pages console id (markups.map Text.points) texts ↔ Pages console Text.points markups texts :=
  List.forall₂_map_left_iff

/-- The pages of names without markup are the lines for them. -/
theorem pages_items (graphic : ∀ name ∈ names, Graphic name) (unmarked : ∀ name ∈ names, Unmarked name)
    (fits : ∀ name ∈ names, name.length + 4 ≤ console.width) :
    Pages console Text.points (names.map item) ((names.map nameLine).map (· ++ "\n")) := by
  induction names with
  | nil => exact .nil
  | cons first rest ih =>
    rw [List.forall_mem_cons] at graphic unmarked fits
    exact .cons (paged_eq_ok (page_item graphic.1 unmarked.1 fits.1))
      (ih graphic.2 unmarked.2 fits.2)

/-- Only names without markup have pages that start with the lines for them. -/
theorem unmarked_of_pages {texts markups : List String}
    (graphic : ∀ name ∈ names, Graphic name) (wide : 4 ≤ console.width)
    (pages : Pages console Text.points (names.map item ++ markups) texts) (rest : List Char)
    (same : (String.join texts).toList = (textOf (names.map nameLine)).toList ++ rest) :
    ∀ name ∈ names, Unmarked name := by
  induction names generalizing texts with
  | nil => exact nofun
  | cons first others ih =>
    rw [List.forall_mem_cons] at graphic ⊢
    cases pages with
    | cons printed pages =>
      rw [String.join_cons, List.map_cons, textOf_cons] at same
      simp only [String.toList_append, List.append_assoc] at same
      rw [paged_points, Except.mapError_eq_ok_iff] at printed
      obtain ⟨unmarked, later⟩ := unmarked_of_page graphic.1 wide printed same
      exact ⟨unmarked, ih graphic.2 pages later⟩

/-- If there is room for the first line and no name has markup, the listing prints its lines. -/
theorem printsText_of_unmarked (texts : result.unused = names.map Name.ofString)
    (nonempty : names ≠ []) (graphic : ∀ name ∈ names, Graphic name)
    (few : result.total < 1000000000) (fits : ∀ name ∈ names, name.length + 4 ≤ console.width)
    (room : (headingOf result).length ≤ console.width) (unmarked : ∀ name ∈ names, Unmarked name) :
    PrintsText ((listing result).forM (tell console)) console
      (textOf (reportLines result names)) := by
  intro desk
  have total := length_totalLine_le few room
  have pages : Pages console id (listing result) ((headingOf result ++ "\n" ++ "\n") ::
      ((names.map nameLine).map (· ++ "\n") ++ ["\n" ++ totalLine result ++ "\n"])) := by
    rw [listing_eq texts nonempty, pages_map_points]
    exact .cons (paged_eq_ok (page_headingItem room)) (List.rel_append
      (pages_items graphic unmarked fits) (.cons (paged_eq_ok (page_totalItem total)) .nil))
  refine ⟨_, run_forM_tell pages desk, String.toList_inj.mp ?_⟩
  simp [reportLines, textOf]

/-- A listing that prints its lines consists of pages that are these lines. -/
theorem exists_pages_of_printsText {items : List (List Text.Point)}
    (prints : PrintsText (items.forM (tell console)) console text) :
    ∃ texts, Pages console id items texts ∧ String.join texts = text := by
  obtain ⟨texts, ran, joined⟩ := prints ⟨[], []⟩
  obtain ⟨texts', pages⟩ : ∃ texts, Pages console id items texts := by
    refine (pages_or_fault console id items ⟨[], []⟩).resolve_right ?_
    rintro ⟨-, -, failure, after, -, stops⟩
    cases congrArg Prod.fst (ran.symm.trans stops)
  have same : texts = texts' := by
    have both := congrArg (·.2.transcript) (ran.symm.trans (run_forM_tell pages ⟨[], []⟩))
    exact (List.map_inj_right fun _ _ same => (Event.printed.inj same).2).mp both
  exact ⟨texts', pages, same ▸ joined⟩

/-- What is printed tells the names as they are exactly if none of them has markup and there is room
for the first line. -/
theorem printsText_iff (texts : result.unused = names.map Name.ofString) (nonempty : names ≠ [])
    (graphic : ∀ name ∈ names, Graphic name) (few : result.total < 1000000000)
    (wide : 4 ≤ console.width) (fits : ∀ name ∈ names, name.length + 4 ≤ console.width) :
    PrintsText ((listing result).forM (tell console)) console (textOf (reportLines result names)) ↔
      (headingOf result).length ≤ console.width ∧ ∀ name ∈ names, Unmarked name := by
  refine ⟨fun prints => ?_, fun ⟨room, unmarked⟩ =>
    printsText_of_unmarked texts nonempty graphic few fits room unmarked⟩
  obtain ⟨printed, pages, joined⟩ := exists_pages_of_printsText prints
  rw [listing_eq texts nonempty, pages_map_points] at pages
  cases pages with
  | cons first pages =>
    have whole := congrArg String.toList joined
    rw [String.join_cons, reportLines, textOf_cons, textOf_cons] at whole
    simp only [String.toList_append, List.append_assoc] at whole
    rw [paged_points, Except.mapError_eq_ok_iff] at first
    have room := fits_of_page first whole
    cases first.symm.trans (page_headingItem room)
    refine ⟨room, unmarked_of_pages graphic wide pages (textOf ["", totalLine result]).toList ?_⟩
    simpa [textOf] using whole

end

/-- From the lines of a report the names are read back. -/
theorem namesIn_reportLines (graphic : ∀ name ∈ names, Graphic name) :
    namesIn (textOf (reportLines result names)) = names := by
  have absent : ∀ line ∈ (reportLines result names).map String.toList, '\n' ∉ line := by
    simp only [reportLines, List.map_cons, List.map_append, List.map_map, List.map_nil,
      List.forall_mem_cons, List.forall_mem_append, List.forall_mem_map]
    refine ⟨not_mem_of_single (single_headingOf result), by decide, fun name member => ?_,
      by decide, not_mem_of_single (single_totalLine result), nofun⟩
    exact not_mem_of_single (single_nameLine (graphic name member))
  have heading : listedName? (headingOf result).toList = none := by
    rw [toList_headingOf]
    rfl
  have total : listedName? (totalLine result).toList = none := by
    rw [toList_totalLine]
    rfl
  have empty : listedName? [] = none := rfl
  have each : ∀ name, listedName? (nameLine name).toList = some name := by
    intro name
    rw [toList_nameLine]
    exact congrArg some String.ofList_toList
  have lines : (textOf (reportLines result names)).toList =
      ((reportLines result names).map String.toList).flatMap (· ++ ['\n']) := by
    rw [toList_textOf, List.flatMap_map]
  rw [namesIn, lines, piecesAt_lines absent, List.filterMap_append, List.filterMap_map, reportLines]
  simp [heading, total, empty, each]

/-- On forty columns there is room for the first line. -/
theorem length_headingOf_le (few : result.unused.length < 10000000000000) (wide : 40 ≤ width) :
    (headingOf result).length ≤ width := by
  have digits : (toString result.unused.length).toList.length ≤ 13 := by
    rw [Nat.toString_eq_repr, Nat.toList_repr]
    exact (Nat.length_toDigits_le_iff (by omega) (by omega)).mpr (by omega)
  rw [← String.length_toList, toList_headingOf]
  simp only [List.length_append]
  have found : "Found ".toList.length = 6 := by decide
  have rest : " unused dependencies:".toList.length = 21 := by decide
  omega

end

/-- The listing prints its lines exactly if there is room for the first one and no name has markup of
its own; on forty columns there is room for it. From these lines all names are read back. -/
theorem listing_verbatim_iff [Platform] (result : Result) (names : List String) (console : Console)
    (texts : result.unused = names.map Name.ofString) (nonempty : names ≠ [])
    (graphic : ∀ name ∈ names, Graphic name) (few : result.total < 1000000000)
    (fits : ∀ name ∈ names, name.length + 4 ≤ console.width) :
    (PrintsText ((listing result).forM (tell console)) console (textOf (reportLines result names)) ↔
      (headingOf result).length ≤ console.width ∧ ∀ name ∈ names, Unmarked name) ∧
    (result.unused.length < 10000000000000 → 40 ≤ console.width →
      (headingOf result).length ≤ console.width) ∧
    namesIn (textOf (reportLines result names)) = names := by
  refine ⟨printsText_iff texts nonempty graphic few ?_ fits, length_headingOf_le,
    namesIn_reportLines graphic⟩
  obtain ⟨name, member⟩ := List.exists_mem_of_ne_nil _ nonempty
  exact (Nat.le_add_left 4 name.length).trans (fits name member)

section

attribute [local instance] Platform.standard

/-- A result with a bracket in a name that opens no tag. -/
def indexedResult : Result where
  used := [Name.ofString "react"]
  unused := ["@types/node", "a[0]"].map Name.ofString
  total := 3

theorem listing_verbatim_of_indexed :
    let console : Console := ⟨40, .output, .wholeLines⟩
    let names := ["@types/node", "a[0]"]
    (indexedResult.unused = names.map Name.ofString ∧ names ≠ [] ∧
      (∀ name ∈ names, Graphic name) ∧ indexedResult.total < 1000000000 ∧
      ∀ name ∈ names, name.length + 4 ≤ console.width) ∧
    PrintsText ((listing indexedResult).forM (tell console)) console
      "Found 2 unused dependencies:\n\n  - @types/node\n  - a[0]\n\nTotal: 2/3\n" := by
  intro console names
  have nonempty : names ≠ [] := by decide
  have graphic : ∀ name ∈ names, Graphic name := by
    unfold Graphic
    decide
  have few : indexedResult.total < 1000000000 := by decide
  have fits : ∀ name ∈ names, name.length + 4 ≤ console.width := by decide
  have unmarked : ∀ name ∈ names, Unmarked name := by
    refine List.forall_mem_cons.mpr ⟨⟨.of_not_mem (by decide), by decide⟩,
      List.forall_mem_singleton.mpr ⟨?_, by decide⟩⟩
    exact .cons rfl (by decide) (.cons rfl (by decide) (.of_not_mem (by decide)))
  exact ⟨⟨rfl, nonempty, graphic, few, fits⟩, (listing_verbatim_iff indexedResult names console rfl
    nonempty graphic few fits).1.mpr ⟨by decide, unmarked⟩⟩

/-- A name that holds a tag, if a strange one. -/
def taggedResult : Result where
  used := []
  unused := ["a[b]"].map Name.ofString
  total := 1

/-- Of a name in which letters stand in brackets the brackets and the letters are not shown. -/
theorem not_listing_verbatim_of_tag :
    let console : Console := ⟨120, .output, .wholeLines⟩
    let names := ["a[b]"]
    (taggedResult.unused = names.map Name.ofString ∧ names ≠ [] ∧
      (∀ name ∈ names, Graphic name) ∧ taggedResult.total < 1000000000 ∧ 40 ≤ console.width ∧
      ∀ name ∈ names, name.length + 4 ≤ console.width) ∧
    ¬ PrintsText ((listing taggedResult).forM (tell console)) console
      "Found 1 unused dependencies:\n\n  - a[b]\n\nTotal: 1/1\n" := by
  intro console names
  have nonempty : names ≠ [] := by decide
  have graphic : ∀ name ∈ names, Graphic name := by
    unfold Graphic
    decide
  have few : taggedResult.total < 1000000000 := by decide
  have fits : ∀ name ∈ names, name.length + 4 ≤ console.width := by decide
  refine ⟨⟨rfl, nonempty, graphic, few, by decide, fits⟩, fun prints => ?_⟩
  have unmarked := ((printsText_iff rfl nonempty graphic few (by decide) fits).mp prints).2 "a[b]"
    List.mem_cons_self
  have noTag := (unmarked.1 ['a'] ['b', ']'] rfl).1
  cases noTag

end

end DependencyAudit.Report
