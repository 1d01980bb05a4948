import DependencyAudit.CommandLine.Run
import DependencyAudit.Proofs.FileSystem.Writing
import DependencyAudit.Proofs.Json.Reader
import DependencyAudit.Proofs.Terminal.Page
import DependencyAudit.Proofs.Text.Runs
import DependencyAudit.Proofs.Text.Utf8

namespace DependencyAudit

namespace Text

/-- The character is printable ASCII. -/
def IsPlain (c : Char) : Prop := 0x20 ≤ c.toNat ∧ c.toNat ≤ 0x7E

instance : DecidablePred IsPlain := fun _ => inferInstanceAs (Decidable (_ ∧ _))

/-- An encoding of characters that writes ASCII as it is. -/
def ExtendsAscii (encodeChar : Char → List UInt8) : Prop :=
  ∀ c, c.toNat < 0x80 → encodeChar c = [UInt8.ofNat c.toNat]

variable {s : List Char}

theorem not_mem_of_isPlain (plain : ∀ c ∈ s, IsPlain c) : '\n' ∉ s :=
  fun member => absurd (plain _ member) (by decide)

theorem isPlain_of_isDigit {c : Char} (digit : c.isDigit = true) : IsPlain c := by
  simp only [Char.isDigit, Bool.and_eq_true, decide_eq_true_eq, UInt32.le_iff_toNat_le] at digit
  have least : 48 ≤ c.toNat := digit.1
  have most : c.toNat ≤ 57 := digit.2
  exact ⟨by omega, by omega⟩

theorem isPlain_of_mem_hex {width n : Nat} {c : Char} (member : c ∈ hex width n) : IsPlain c := by
  induction width generalizing n with
  | zero => cases member
  | succ width ih =>
    rcases List.mem_append.mp member with before | last
    · exact ih before
    · obtain rfl := List.mem_singleton.mp last
      have small := Nat.mod_lt n (by omega : 0 < 16)
      generalize n % 16 = digit at small
      interval_cases digit
      all_goals decide

/-- A text of lines has a line feed for each. -/
theorem count_lines {lines : List (List Char)} (absent : ∀ line ∈ lines, '\n' ∉ line) :
    (lines.flatMap (· ++ ['\n'])).count '\n' = lines.length := by
  induction lines with
  | nil => rfl
  | cons first rest ih =>
    obtain ⟨here, later⟩ := List.forall_mem_cons.mp absent
    rw [List.flatMap_cons, List.count_append, List.count_append, ih later,
      List.count_eq_zero_of_not_mem here, List.length_cons, List.count_singleton_self]
    omega

theorem extendsAscii_utf8EncodeChar : ExtendsAscii String.utf8EncodeChar := by
  intro c small
  have oneByte : c.val.toNat ≤ 0x7F := Nat.le_of_lt_succ small
  unfold String.utf8EncodeChar
  rw [if_pos oneByte]
  rfl

end Text

namespace Json

open Text (IsPlain)

theorem isPlain_of_mem_unitEscape {n : Nat} {c : Char} (member : c ∈ unitEscape n) : IsPlain c := by
  rcases List.mem_cons.mp member with rfl | member
  · decide
  rcases List.mem_cons.mp member with rfl | member
  · decide
  · exact Text.isPlain_of_mem_hex member

theorem isPlain_of_mem_literalChar {c d : Char} (member : d ∈ literalChar c) : IsPlain d := by
  -- Of the short escapes, all but the first are closed texts.
  have closed : ∀ {s : List Char}, d ∈ s → (∀ e ∈ s, IsPlain e) → IsPlain d :=
    fun inside plain => plain d inside
  unfold literalChar at member
  split_ifs at member with special _ _ _ _ _ shown small
  · rcases special with rfl | rfl
    all_goals exact closed member (by decide)
  iterate 5 exact closed member (by decide)
  · obtain rfl := List.mem_singleton.mp member
    exact shown
  · exact isPlain_of_mem_unitEscape member
  · rcases List.mem_append.mp member with high | low
    · exact isPlain_of_mem_unitEscape high
    · exact isPlain_of_mem_unitEscape low

theorem isPlain_of_mem_literalPoint {p : Text.Point} {d : Char} (member : d ∈ literalPoint p) :
    IsPlain d := by
  cases p with
  | char c => exact isPlain_of_mem_literalChar member
  | high | low => exact isPlain_of_mem_unitEscape member

theorem isPlain_of_mem_literal {points : List Text.Point} {c : Char} (member : c ∈ literal points) :
    IsPlain c := by
  simp only [literal, List.cons_append, List.mem_cons, List.mem_append, List.mem_flatMap,
    List.not_mem_nil, or_false] at member
  rcases member with rfl | ⟨p, -, inside⟩ | rfl
  · decide
  · exact isPlain_of_mem_literalPoint inside
  · decide

end Json

namespace Report

open CommandLine FileSystem
open Text (IsPlain)

/-- The lines of the items of a list. A comma follows each item but the last. -/
def itemLines : List Name → List (List Char)
  | [] => []
  | [last] => ["    ".toList ++ Json.literal last.points]
  | item :: next :: others =>
    ("    ".toList ++ Json.literal item.points ++ [',']) :: itemLines (next :: others)

/-- The lines of a list of names under a key. One without names stands on the line of the key. -/
def memberLines (key : String) (names : List Name) : List (List Char) :=
  let start := "  \"".toList ++ key.toList ++ "\": [".toList
  if names = [] then [start ++ "],".toList] else start :: itemLines names ++ ["  ],".toList]

/-- The lines of the document of a result. -/
def documentLines (result : Result) : List (List Char) :=
  ['\x7b'] :: memberLines "unused" result.unused ++ memberLines "used" result.used ++
    ["  \"total\": ".toList ++ Nat.toDigits 10 result.total, ['\x7d']]

/-- How many line feeds a list of names takes. -/
def breaks (names : List Name) : Nat := if names = [] then 0 else names.length + 1

variable {names : List Name} {result : Result}

theorem length_itemLines (names : List Name) : (itemLines names).length = names.length := by
  fun_induction itemLines names with
  | case1 => rfl
  | case2 => rfl
  | case3 item next others ih => exact congrArg (· + 1) ih

theorem length_memberLines (key : String) (names : List Name) :
    (memberLines key names).length = breaks names + 1 := by
  unfold memberLines breaks
  split
  · rfl
  · simp [length_itemLines]

theorem length_documentLines (result : Result) :
    (documentLines result).length = breaks result.unused + breaks result.used + 5 := by
  simp only [documentLines, List.length_append, List.length_cons, List.length_nil,
    length_memberLines]
  omega

theorem isPlain_of_mem_itemLines {line : List Char} (member : line ∈ itemLines names) :
    ∀ c ∈ line, IsPlain c := by
  have indent : ∀ c ∈ "    ".toList, IsPlain c := by decide
  fun_induction itemLines names with
  | case1 => cases member
  | case2 last =>
    obtain rfl := List.mem_singleton.mp member
    exact List.forall_mem_append.mpr ⟨indent, fun _ => Json.isPlain_of_mem_literal⟩
  | case3 item next others ih =>
    rcases List.mem_cons.mp member with rfl | later
    · exact List.forall_mem_append.mpr ⟨List.forall_mem_append.mpr
        ⟨indent, fun _ => Json.isPlain_of_mem_literal⟩, by decide⟩
    · exact ih later

theorem isPlain_of_mem_memberLines {key : String} (plainKey : ∀ c ∈ key.toList, IsPlain c)
    {line : List Char} (member : line ∈ memberLines key names) : ∀ c ∈ line, IsPlain c := by
  have start : ∀ c ∈ "  \"".toList ++ key.toList ++ "\": [".toList, IsPlain c :=
    List.forall_mem_append.mpr ⟨List.forall_mem_append.mpr ⟨by decide, plainKey⟩, by decide⟩
  unfold memberLines at member
  dsimp only at member
  split at member
  · obtain rfl := List.mem_singleton.mp member
    exact List.forall_mem_append.mpr ⟨start, by decide⟩
  · rcases List.mem_append.mp member with before | last
    · rcases List.mem_cons.mp before with rfl | item
      · exact start
      · exact isPlain_of_mem_itemLines item
    · obtain rfl := List.mem_singleton.mp last
      decide

theorem isPlain_of_mem_documentLines {line : List Char} (member : line ∈ documentLines result) :
    ∀ c ∈ line, IsPlain c := by
  simp only [documentLines, List.cons_append, List.mem_cons, List.mem_append, List.not_mem_nil,
    or_false] at member
  rcases member with rfl | (unused | used) | rfl | rfl
  · decide
  · exact isPlain_of_mem_memberLines (by decide) unused
  · exact isPlain_of_mem_memberLines (by decide) used
  · exact List.forall_mem_append.mpr
      ⟨by decide, fun _ digit => Text.isPlain_of_isDigit (Json.isDigit_of_mem_toDigits digit)⟩
  · decide

theorem not_mem_of_mem_documentLines (line : List Char) (member : line ∈ documentLines result) :
    '\n' ∉ line := Text.not_mem_of_isPlain (isPlain_of_mem_documentLines member)

theorem indent_joinWith_eq (nonempty : names ≠ []) :
    "    ".toList ++ (Text.joinWith ",\n    ".toList
        (names.map fun name => Json.literal name.points) ++ ['\n']) =
      (itemLines names).flatMap (· ++ ['\n']) := by
  have between : ",\n    ".toList = [',', '\n'] ++ "    ".toList := rfl
  fun_induction itemLines names with
  | case1 => exact absurd rfl nonempty
  | case2 last => simp [Text.joinWith]
  | case3 item next others ih =>
    rw [List.flatMap_cons, ← ih (List.cons_ne_nil _ _)]
    simp only [List.map_cons, Text.joinWith, between, List.append_assoc, List.cons_append,
      List.nil_append]

/-- A member of a document is its lines. -/
theorem namesText_eq (key : String) (names : List Name) :
    "  \"".toList ++ key.toList ++ "\": ".toList ++ namesText names ++ [',', '\n'] =
      (memberLines key names).flatMap (· ++ ['\n']) := by
  have colon : "\": [".toList = "\": ".toList ++ ['['] := rfl
  unfold namesText memberLines
  split
  next => simp [colon]
  next nonempty =>
    have opened : "[\n    ".toList = ['[', '\n'] ++ "    ".toList := rfl
    have closed : "\n  ]".toList = '\n' :: "  ]".toList := rfl
    have last : "  ],".toList = "  ]".toList ++ [','] := rfl
    rw [List.cons_append, List.flatMap_cons, List.flatMap_append, ← indent_joinWith_eq nonempty]
    simp only [colon, opened, closed, last, List.append_assoc, List.cons_append, List.nil_append,
      List.flatMap_cons, List.flatMap_nil, List.append_nil]

/-- With a line end after it, a document is its lines. -/
theorem documentChars_append_eq (result : Result) :
    documentChars result ++ ['\n'] = (documentLines result).flatMap (· ++ ['\n']) := by
  have unused : "\x7b\n  \"unused\": ".toList =
      ['\x7b', '\n'] ++ ("  \"".toList ++ "unused".toList ++ "\": ".toList) := rfl
  have used : ",\n  \"used\": ".toList =
      [',', '\n'] ++ ("  \"".toList ++ "used".toList ++ "\": ".toList) := rfl
  have total : ",\n  \"total\": ".toList = [',', '\n'] ++ "  \"total\": ".toList := rfl
  have last : "\n\x7d".toList = ['\n', '\x7d'] := rfl
  simp only [documentLines, List.cons_append, List.flatMap_cons, List.flatMap_append,
    ← namesText_eq, List.flatMap_nil]
  unfold documentChars
  simp only [unused, used, total, last, List.append_assoc, List.cons_append, List.nil_append]

theorem piecesAt_documentChars (result : Result) :
    Text.piecesAt '\n' (documentChars result) = documentLines result := by
  have cut : Text.piecesAt '\n' (documentChars result ++ ['\n']) =
      Text.piecesAt '\n' (documentChars result) ++ [[]] :=
    @Text.pieces_append_cons (· == '\n') '\n' (beq_self_eq_true '\n') _ _
  rw [documentChars_append_eq, Terminal.piecesAt_lines not_mem_of_mem_documentLines] at cut
  exact (List.append_cancel_right cut).symm

theorem count_documentChars (result : Result) :
    (documentChars result).count '\n' = 4 + breaks result.unused + breaks result.used := by
  have whole := Text.count_lines (@not_mem_of_mem_documentLines result)
  rw [← documentChars_append_eq, List.count_append, List.count_singleton_self,
    length_documentLines] at whole
  omega

theorem isPlain_of_mem_documentChars {c : Char} (member : c ∈ documentChars result) :
    c = '\n' ∨ IsPlain c := by
  have whole : c ∈ documentChars result ++ ['\n'] := List.mem_append_left _ member
  rw [documentChars_append_eq, List.mem_flatMap] at whole
  obtain ⟨line, among, inside⟩ := whole
  rcases List.mem_append.mp inside with here | feed
  · exact .inr (isPlain_of_mem_documentLines among c here)
  · exact .inl (List.mem_singleton.mp feed)

theorem getLast?_documentChars (result : Result) : (documentChars result).getLast? = some '\x7d' := by
  have last : "\n\x7d".toList = ['\n'] ++ ['\x7d'] := rfl
  unfold documentChars
  simp only [last, ← List.append_assoc, List.getLast?_concat]

/-- An encoding with ASCII in it writes a document byte by byte. -/
theorem encoded_documentChars {encodeChar : Char → List UInt8}
    (ascii : Text.ExtendsAscii encodeChar) (result : Result) :
    (documentChars result).flatMap encodeChar =
      (documentChars result).map fun c => UInt8.ofNat c.toNat := by
  rw [List.map_eq_flatMap]
  refine List.flatMap_congr fun c member => ascii c ?_
  rcases isPlain_of_mem_documentChars member with rfl | ⟨-, most⟩
  · decide
  · omega

theorem joinWith_cons_eq (separator first : List Char) (others : List (List Char)) :
    Text.joinWith separator (first :: others) = first ++ others.flatMap (separator ++ ·) := by
  induction others generalizing first with
  | nil => simp [Text.joinWith]
  | cons second more ih =>
    simp only [Text.joinWith, ih, List.flatMap_cons, List.append_assoc]

theorem flatten_namesStrokes (names : List Name) :
    (namesStrokes names).flatten = namesText names := by
  cases names with
  | nil => rfl
  | cons first others =>
    have closed : "\n  ]".toList = "\n  ".toList ++ "]".toList := rfl
    rw [namesText, if_neg (List.cons_ne_nil _ _), List.map_cons, joinWith_cons_eq, closed]
    simp [namesStrokes, List.flatMap_def, Function.comp_def]

theorem flatten_strokes (result : Result) : (strokes result).flatten = documentChars result := by
  have unused : "\x7b\n  \"unused\": ".toList =
      ['\x7b'] ++ ("\n  ".toList ++ (Json.literal (Text.points "unused") ++ ": ".toList)) := rfl
  have used : ",\n  \"used\": ".toList =
      ",\n  ".toList ++ (Json.literal (Text.points "used") ++ ": ".toList) := rfl
  have total : ",\n  \"total\": ".toList =
      ",\n  ".toList ++ (Json.literal (Text.points "total") ++ ": ".toList) := rfl
  have last : "\n\x7d".toList = "\n".toList ++ ['\x7d'] := rfl
  unfold strokes documentChars
  simp only [List.flatten_append, flatten_namesStrokes, List.flatten_cons, List.flatten_nil,
    unused, used, total, last, List.append_assoc, List.append_nil]

theorem ofList_strokes (result : Result) :
    String.ofList (strokes result).flatten = document result := by rw [flatten_strokes, document]

/-- However a result is given out, its document is: to a stream in parts, to a file, or to the
output. A file that cannot be written is the only one that is not saved. -/
structure GivenOut [Platform] (result : Result) : Prop where
  streamed : String.ofList (strokes result).flatten = document result
  saved : ∀ (o : Options) (file : String) (disk : Disk) (desk : Desk), o.output = some file →
    (∃ refusal, disk.write (.ofString file) (document result) = .error refusal ∧
      (save disk o result).run desk = (.error (.failed (.access refusal)), desk)) ∨
    ∃ written, (save disk o result).run desk = (.ok written, { desk with
        transcript := desk.transcript ++ [.wrote (.ofString file) (document result)] }) ∧
      written.content (.ofString file) = .ok (.text (document result)) ∧
      written.read (.ofString file) = .ok (document result)
  printed : ∀ (o : Options) (statistics : Statistics) (desk : Desk), o.json = true →
    (present o result statistics).run desk = (.ok (), { desk with
      transcript := desk.transcript ++ [.printed .output (document result ++ "\n")] })

/-- A text in which the names of a result stand on lines of their own, safe from every encoding. -/
structure InLines (result : Result) (text : List Char) : Prop where
  plain : ∀ c ∈ text, c = '\n' ∨ IsPlain c
  unended : text.getLast? ≠ some '\n'
  lines : Text.piecesAt '\n' text = documentLines result
  count : text.count '\n' = 4 + breaks result.unused + breaks result.used
  anyEncoding : ∀ encodeChar, Text.ExtendsAscii encodeChar →
    text.flatMap encodeChar = text.map fun c => UInt8.ofNat c.toNat
  utf8 : Text.encode text = text.map fun c => UInt8.ofNat c.toNat

theorem unified_document (result : Result) :
    (Content.text (document result)).toText = document result := by
  have noReturn : '\r' ∉ documentChars result := by
    intro member
    rcases isPlain_of_mem_documentChars member with feed | plain
    · cases feed
    · exact absurd plain (by decide)
  rw [Content.toText, document, String.toList_ofList, Text.unifyLineEnds_eq_self noReturn]

theorem run_save {o : Options} {file : String} (named : o.output = some file) (disk : Disk)
    (desk : Desk) : (save disk o result).run desk =
      match disk.write (.ofString file) (document result) with
      | .error refusal => (.error (.failed (.access refusal)), desk)
      | .ok written => (.ok written, { desk with
          transcript := desk.transcript ++ [.wrote (.ofString file) (document result)] }) := by
  unfold save
  rw [named, ofList_strokes]
  dsimp only
  cases disk.write (.ofString file) (document result) with
  | error refusal => rfl
  | ok written => rfl

theorem givenOut [Platform] (result : Result) : GivenOut result where
  streamed := ofList_strokes result
  saved o file disk desk named := by
    rw [run_save named]
    cases wrote : disk.write (.ofString file) (document result) with
    | error refusal => exact .inl ⟨refusal, rfl, rfl⟩
    | ok written =>
      have content := Disk.content_of_write wrote
      refine .inr ⟨written, rfl, content, ?_⟩
      rw [Disk.read, content, Except.map, unified_document]
  printed o statistics desk json := by
    unfold present
    rw [if_pos json]
    rfl

theorem inLines_documentChars (result : Result) : InLines result (documentChars result) where
  plain _ := isPlain_of_mem_documentChars
  unended := by rw [getLast?_documentChars]; decide
  lines := piecesAt_documentChars result
  count := count_documentChars result
  anyEncoding _ ascii := encoded_documentChars ascii result
  utf8 := encoded_documentChars Text.extendsAscii_utf8EncodeChar result

/-- What is saved of a result and what is printed is one document: printable ASCII on lines that no
name can break, with a line for each name. -/
theorem document_inLines [Platform] (result : Result) :
    GivenOut result ∧ InLines result (document result).toList :=
  ⟨givenOut result, by
    rw [document, String.toList_ofList]
    exact inLines_documentChars result⟩

/-- Line ends, quotes and characters beyond ASCII in names stay on the line of their name. -/
example : documentLines ⟨["\u2028"], ["a\nb", "\"😀"], 3⟩ =
    ["\x7b", "  \"unused\": [", "    \"a\\nb\",", "    \"\\\"\\ud83d\\ude00\"", "  ],",
      "  \"used\": [", "    \"\\u2028\"", "  ],", "  \"total\": 3", "\x7d"].map String.toList := by
  decide

end Report

end DependencyAudit
