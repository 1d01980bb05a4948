import DependencyAudit.Proofs.Json.Reader
import DependencyAudit.Report.Document
import Mathlib.Data.List.Basic

namespace DependencyAudit.Report

open Json

/-- The object that the document of a result writes. -/
def documentValue (result : Result) : Value :=
  .object [("unused", .array (result.unused.map .text)), ("used", .array (result.used.map .text)),
    ("total", .number (.whole result.total))]

theorem documentValue_injective {result other : Result}
    (same : documentValue result = documentValue other) : result = other := by
  have texts : Function.Injective (List.map Value.text) :=
    List.map_injective_iff.mpr fun _ _ => Value.text.inj
  simp only [documentValue, Value.object.injEq, List.cons.injEq, Prod.mk.injEq, Value.array.injEq,
    Value.number.injEq, Number.whole.injEq, Int.natCast_inj, true_and, and_true] at same
  obtain ⟨unused, used, total⟩ := same
  cases result
  cases other
  rw [Result.mk.injEq]
  exact ⟨texts used, texts unused, total⟩

variable {rest : List Char}

/-- An array is read by its items; one of no names closes on its first line. -/
theorem readValue_namesText (depth : Nat) (names : List Name) :
    readValue (depth + 1) (namesText names ++ rest) =
      .ok (.array (names.map Value.text), rest) := by
  cases names with
  | nil => rfl
  | cons first others =>
    have nonempty : first :: others ≠ [] := List.cons_ne_nil _ _
    have enough := length_le_joinWith_literals ",\n    ".toList (first :: others)
    obtain ⟨tail, shape⟩ := exists_joinWith_literals_eq ",\n    ".toList first others
    have read := fun fuel =>
      @readItems_literals rest depth (first :: others) nonempty fuel
    have blanks : ∀ s, skipSpace ("\n    ".toList ++ '"' :: s) = '"' :: s := fun _ => rfl
    have opened : namesText (first :: others) ++ rest = '[' :: ("\n    ".toList ++
        (Text.joinWith ",\n    ".toList ((first :: others).map fun name => literal name.points) ++
          ("\n  ]".toList ++ rest))) := by
      rw [namesText, if_neg nonempty]
      simp only [List.append_assoc]
      rfl
    rw [shape] at enough read opened
    rw [List.cons_append] at read opened
    rw [opened]
    refine readValue_items (blanks _) (by decide) (read _ ?_)
    simp only [List.length_cons, List.length_append] at enough ⊢
    omega

theorem skipSpace_blank (s : List Char) : skipSpace (' ' :: s) = skipSpace s := rfl

theorem skipSpace_namesText (names : List Name) :
    skipSpace (namesText names ++ rest) = namesText names ++ rest := by
  cases names with
  | nil => rfl
  | cons first others =>
    rw [namesText, if_neg (List.cons_ne_nil _ _)]
    rfl

/-- The members of a document one by one, as the reader meets them. -/
theorem documentChars_eq (result : Result) :
    documentChars result = '\x7b' :: ("\n  ".toList ++
      (literal (Text.points "unused") ++ ':' :: ' ' :: (namesText result.unused ++ (",\n  ".toList ++
        (literal (Text.points "used") ++ ':' :: ' ' :: (namesText result.used ++ (",\n  ".toList ++
          (literal (Text.points "total") ++ ':' :: ' ' ::
            (Nat.toDigits 10 result.total ++ ['\n', '\x7d']))))))))) := by
  have unused : "\x7b\n  \"unused\": ".toList =
      '\x7b' :: ("\n  ".toList ++ (literal (Text.points "unused") ++ [':', ' '])) := rfl
  have used : ",\n  \"used\": ".toList =
      ",\n  ".toList ++ (literal (Text.points "used") ++ [':', ' ']) := rfl
  have total : ",\n  \"total\": ".toList =
      ",\n  ".toList ++ (literal (Text.points "total") ++ [':', ' ']) := rfl
  have last : "\n\x7d".toList = ['\n', '\x7d'] := rfl
  unfold documentChars
  simp only [unused, used, total, last, List.append_assoc, List.cons_append, List.nil_append]

variable {members : List (Name × Value)}

/-- A list of names as a member, with the key of the next one after it. -/
theorem readMembers_names {depth fuel : Nat} (key : Name) (names : List Name) {next : Name}
    {later : List Char} (others : readMembers (readValue (depth + 1)) fuel
      (literal next.points ++ later) = .ok (members, rest)) :
    readMembers (readValue (depth + 1)) (fuel + 1) (literal key.points ++ ':' :: ' ' ::
      (namesText names ++ (",\n  ".toList ++ (literal next.points ++ later)))) =
      .ok ((key, .array (names.map .text)) :: members, rest) := by
  have comma : ∀ s, skipSpace (",\n  ".toList ++ s) = ',' :: ("\n  ".toList ++ s) := fun _ => rfl
  have start : skipSpace ("\n  ".toList ++ (literal next.points ++ later)) =
      literal next.points ++ later := rfl
  have array : readValue (depth + 1) (skipSpace (' ' :: (namesText names ++
      (",\n  ".toList ++ (literal next.points ++ later))))) = .ok (.array (names.map .text),
        ",\n  ".toList ++ (literal next.points ++ later)) := by
    rw [skipSpace_blank, skipSpace_namesText]
    exact readValue_namesText depth names
  exact readMembers_next key array (comma _) (start.symm ▸ others)

theorem readMembers_total (depth fuel : Nat) (key : Name) {n : Nat}
    (short : (Nat.toDigits 10 n).length ≤ Text.digitLimit) :
    readMembers (readValue depth) (fuel + 1) (literal key.points ++ ':' :: ' ' ::
      (Nat.toDigits 10 n ++ ['\n', '\x7d'])) = .ok ([(key, .number (.whole n))], []) := by
  have number : readValue depth (skipSpace (' ' :: (Nat.toDigits 10 n ++ ['\n', '\x7d']))) =
      .ok (.number (.whole n), ['\n', '\x7d']) := by
    rw [skipSpace_blank, skipSpace_toDigits]
    exact readValue_toDigits depth short
  exact readMembers_last key fuel number rfl

theorem readValue_documentChars (depth : Nat) {result : Result}
    (short : (Nat.toDigits 10 result.total).length ≤ Text.digitLimit) :
    readValue (depth + 2) (documentChars result) = .ok (documentValue result, []) := by
  have read (fuel : Nat) := readMembers_names "unused" result.unused
    (readMembers_names "used" result.used (readMembers_total (depth + 1) fuel "total" short))
  simp only [Name.points_ofString] at read
  rw [documentChars_eq]
  generalize namesText result.unused ++ _ = later at read ⊢
  obtain ⟨text, shape⟩ : ∃ text, literal (Text.points "unused") ++ ':' :: ' ' :: later = '"' :: text :=
    ⟨_, rfl⟩
  have start : skipSpace ("\n  ".toList ++ '"' :: text) = '"' :: text := rfl
  -- The reader takes at most as many members as characters are left, here three.
  have enough : 2 ≤ text.length := by
    have length := congrArg List.length shape
    simp only [List.length_append, List.length_cons] at length
    have quoted : (literal (Text.points "unused")).length = 8 := rfl
    omega
  obtain ⟨fuel, size⟩ := Nat.exists_eq_add_of_le' enough
  rw [shape] at read ⊢
  exact readValue_members start (by decide) (size ▸ read fuel)

theorem parse_document (depth : Nat) {result : Result}
    (short : (Nat.toDigits 10 result.total).length ≤ Text.digitLimit) :
    parse (depth + 2) (document result) = .ok (documentValue result) := by
  have opened := documentChars_eq result
  have start : skipSpace (documentChars result) = documentChars result := by
    rw [opened]
    rfl
  have noMark : ∀ later, documentChars result ≠ '\uFEFF' :: later := by
    rw [opened]
    simp
  rw [parse, document, String.toList_ofList, readText]
  · rw [start, readValue_documentChars depth short]
    rfl
  · exact noMark

/-- The document of a result reads as an object with both lists of names and the number, wherever
values are read that are nested two deep, and no other result has the same document. -/
theorem document_faithful {result : Result}
    (short : (Nat.toDigits 10 result.total).length ≤ Text.digitLimit) :
    (∀ depth, parse (depth + 2) (document result) = .ok (documentValue result)) ∧
      ∀ other : Result, (Nat.toDigits 10 other.total).length ≤ Text.digitLimit →
        document other = document result → other = result := by
  refine ⟨fun depth => parse_document depth short, ?_⟩
  intro other otherShort same
  have values := parse_document 0 otherShort
  rw [same, parse_document 0 short] at values
  exact (documentValue_injective (Except.ok.inj values)).symm

/-- Names with characters of every way to write them: a quote, a backslash, short escapes, other
control characters, characters beyond ASCII on both sides of U+FFFF, and half a surrogate pair. -/
def hardNames : Result where
  used := []
  unused := ["a\"b\\c", "\n\t\x00\x7f", "é\u2028\uffff😀", .ofPoints [.ofUnit 0xDC00, .ofUnit 0xD800]]
  total := 4

theorem document_faithful_of_hardNames :
    (Nat.toDigits 10 hardNames.total).length ≤ Text.digitLimit ∧
      (∀ depth, parse (depth + 2) (document hardNames) = .ok (.object [
        ("unused", .array [.text "a\"b\\c", .text "\n\t\x00\x7f", .text "é\u2028\uffff😀",
          .text (.ofPoints [.low 0, .high 0])]),
        ("used", .array []), ("total", .number (.whole 4))])) ∧
      ∀ other : Result, (Nat.toDigits 10 other.total).length ≤ Text.digitLimit →
        document other = document hardNames → other = hardNames := by
  have short : (Nat.toDigits 10 hardNames.total).length ≤ Text.digitLimit := by decide
  exact ⟨short, document_faithful short⟩

end DependencyAudit.Report
