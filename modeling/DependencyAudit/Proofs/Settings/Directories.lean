import DependencyAudit.Proofs.Text.Blank
import DependencyAudit.Proofs.Text.Pieces
import DependencyAudit.Settings

namespace DependencyAudit.Settings

/-- The list consists of these parts: commas stand between them, and in none of them. -/
structure Parts (list : String) (parts : List String) : Prop where
  nonempty : parts ≠ []
  free : ∀ part ∈ parts, ',' ∉ part.toList
  joined : String.intercalate "," parts = list

/-- The part is empty, or there are only blanks in it. -/
def IsBlank (part : String) : Prop := ∀ c ∈ part.toList, Text.isBlank c = true

/-- The directories that parts ask for, in the order of the parts: a blank part asks for none, and any
other one for what is left of it without the blanks at its ends. -/
inductive AsksFor : List String → List String → Prop
  | nil : AsksFor [] []
  | blank {part parts directories} (blank : IsBlank part) (later : AsksFor parts directories) :
      AsksFor (part :: parts) directories
  | next {part directory parts directories} (nonempty : directory ≠ "")
      (pads : Text.Pads part.toList directory.toList) (later : AsksFor parts directories) :
      AsksFor (part :: parts) (directory :: directories)

/-- A directory that can be a part of a list as it is. -/
structure IsListed (directory : String) : Prop where
  nonempty : directory ≠ ""
  free : ',' ∉ directory.toList
  tight : Text.Tight directory.toList

variable {list : String} {parts directories : List String} {value : Option String}

theorem Parts.pieces_eq (consists : Parts list parts) :
    Text.piecesAt ',' list.toList = parts.map String.toList := by
  rw [← consists.joined]
  exact Text.piecesAt_intercalate rfl consists.nonempty consists.free

theorem parts_pieces (list : String) :
    Parts list ((Text.piecesAt ',' list.toList).map String.ofList) where
  nonempty := by simp [Text.piecesAt, Text.pieces_ne_nil]
  free := by
    intro part member
    obtain ⟨piece, among, rfl⟩ := List.mem_map.mp member
    rw [String.toList_ofList]
    exact Text.not_mem_of_mem_piecesAt among
  joined := by
    rw [← String.toList_inj, String.toList_intercalate, List.map_map]
    have same : String.toList ∘ String.ofList = id := funext fun _ => String.toList_ofList
    rw [same, List.map_id, ← Text.joinWith_eq_intercalate]
    exact Text.joinWith_piecesAt ',' list.toList

/-- A list has its parts in one way. -/
theorem parts_iff : Parts list parts ↔ parts = (Text.piecesAt ',' list.toList).map String.ofList := by
  constructor
  · intro consists
    rw [consists.pieces_eq, List.map_map]
    have same : String.ofList ∘ String.toList = id := funext fun _ => String.ofList_toList
    rw [same, List.map_id]
  · rintro rfl
    exact parts_pieces list

theorem AsksFor.eq_filter (asks : AsksFor parts directories) :
    (((parts.map String.toList).map Text.trim).filter (· ≠ [])).map String.ofList =
      directories := by
  induction asks with
  | nil => rfl
  | blank blank later ih => simpa [Text.trim_eq_nil_iff.mpr blank] using ih
  | next nonempty pads later ih => simpa [← pads.eq_trim, nonempty] using ih

theorem exists_asksFor (parts : List String) : ∃ directories, AsksFor parts directories := by
  induction parts with
  | nil => exact ⟨[], .nil⟩
  | cons part parts ih =>
    obtain ⟨directories, later⟩ := ih
    by_cases blank : IsBlank part
    · exact ⟨directories, .blank blank later⟩
    · refine ⟨String.ofList (Text.trim part.toList) :: directories, .next ?_ ?_ later⟩
      · rw [Ne, String.ofList_eq_empty_iff, Text.trim_eq_nil_iff]
        exact blank
      · rw [String.toList_ofList]
        exact Text.pads_trim part.toList

/-- The directories of a list are those that its parts ask for. -/
theorem Parts.asksFor_iff (consists : Parts list parts) :
    AsksFor parts directories ↔ listed list = directories := by
  have filtered : ∀ {named}, AsksFor parts named → listed list = named := by
    intro named asks
    rw [listed, consists.pieces_eq]
    exact asks.eq_filter
  constructor
  · exact filtered
  · rintro rfl
    obtain ⟨named, asks⟩ := exists_asksFor parts
    rwa [filtered asks]

theorem asksFor_nil_iff : AsksFor parts [] ↔ ∀ part ∈ parts, IsBlank part := by
  constructor
  · intro asks
    generalize empty : ([] : List String) = directories at asks
    induction asks with
    | nil => simp
    | blank blank later ih => exact List.forall_mem_cons.mpr ⟨blank, ih empty⟩
    | next => cases empty
  · intro blank
    induction parts with
    | nil => exact .nil
    | cons part parts ih =>
      obtain ⟨here, later⟩ := List.forall_mem_cons.mp blank
      exact .blank here (ih later)

theorem AsksFor.isListed (asks : AsksFor parts directories)
    (free : ∀ part ∈ parts, ',' ∉ part.toList) : ∀ directory ∈ directories, IsListed directory := by
  induction asks with
  | nil => simp
  | blank _ later ih => exact ih (List.forall_mem_cons.mp free).2
  | next nonempty pads later ih =>
    obtain ⟨here, others⟩ := List.forall_mem_cons.mp free
    have listed : IsListed _ := ⟨nonempty, fun comma => here (pads.subset comma), pads.tight⟩
    exact List.forall_mem_cons.mpr ⟨listed, ih others⟩

/-- Directories that can be listed are asked for by themselves. -/
theorem asksFor_self (listed : ∀ directory ∈ directories, IsListed directory) :
    AsksFor directories directories := by
  induction directories with
  | nil => exact .nil
  | cons directory directories ih =>
    obtain ⟨here, later⟩ := List.forall_mem_cons.mp listed
    exact .next here.nonempty here.tight.pads (ih later)

theorem splitDirectories_eq_none_iff :
    splitDirectories value = none ↔ listed (value.getD "") = [] := by
  by_cases empty : listed (value.getD "") = [] <;> simp [splitDirectories, empty]

theorem splitDirectories_eq_some_iff : splitDirectories value = some directories ↔
    directories ≠ [] ∧ listed (value.getD "") = directories := by
  rw [splitDirectories]
  by_cases empty : listed (value.getD "") = []
  · rw [if_pos empty, empty]
    refine ⟨nofun, ?_⟩
    rintro ⟨nonempty, same⟩
    exact absurd same.symm nonempty
  · rw [if_neg empty, Option.some.injEq]
    exact ⟨fun same => ⟨same ▸ empty, same⟩, And.right⟩

theorem isListed_of_splitDirectories (asked : splitDirectories value = some directories) :
    ∀ directory ∈ directories, IsListed directory := by
  obtain ⟨-, same⟩ := splitDirectories_eq_some_iff.mp asked
  have consists := parts_pieces (value.getD "")
  exact (consists.asksFor_iff.mpr same).isListed consists.free

/-- Directories that are joined by commas are taken apart again. -/
theorem splitDirectories_intercalate (nonempty : directories ≠ [])
    (listed : ∀ directory ∈ directories, IsListed directory) :
    splitDirectories (some (String.intercalate "," directories)) = some directories := by
  have consists : Parts (String.intercalate "," directories) directories :=
    ⟨nonempty, fun directory member => (listed directory member).free, rfl⟩
  exact splitDirectories_eq_some_iff.mpr ⟨nonempty, consists.asksFor_iff.mp (asksFor_self listed)⟩

/-- Splitting a value gives the directories that the parts of its list ask for, or nothing where they
ask for none. It undoes joining directories, and its result is the same for what comes of joining it. -/
theorem splitDirectories_exact :
    splitDirectories none = none ∧
      (∀ list, ∃ parts, (∀ others, Parts list others ↔ others = parts) ∧
        (splitDirectories (some list) = none ↔ ∀ part ∈ parts, IsBlank part) ∧
        ∀ directories, splitDirectories (some list) = some directories ↔
          directories ≠ [] ∧ AsksFor parts directories) ∧
      (∀ value directories, splitDirectories value = some directories →
        directories ≠ [] ∧ ∀ directory ∈ directories, IsListed directory) ∧
      (∀ directories, directories ≠ [] → (∀ directory ∈ directories, IsListed directory) →
        splitDirectories (some (String.intercalate "," directories)) = some directories) ∧
      ∀ value, splitDirectories ((splitDirectories value).map (String.intercalate ",")) =
        splitDirectories value := by
  refine ⟨rfl, fun list => ?_, ?_, fun _ => splitDirectories_intercalate, fun value => ?_⟩
  · have consists := parts_pieces list
    refine ⟨_, fun _ => parts_iff, ?_, fun directories => ?_⟩
    · rw [splitDirectories_eq_none_iff, Option.getD_some, ← asksFor_nil_iff, consists.asksFor_iff]
    · rw [splitDirectories_eq_some_iff, Option.getD_some, consists.asksFor_iff]
  · intro value directories asked
    exact ⟨(splitDirectories_eq_some_iff.mp asked).1, isListed_of_splitDirectories asked⟩
  · cases asked : splitDirectories value with
    | none => rfl
    | some directories =>
      exact splitDirectories_intercalate (splitDirectories_eq_some_iff.mp asked).1
        (isListed_of_splitDirectories asked)

/-- A list with blanks, empty parts and a directory that is named twice. -/
theorem splitDirectories_exact_of_uneven :
    splitDirectories (some " pages ,,components,\t,pages") =
        some ["pages", "components", "pages"] ∧
      (["pages", "components", "pages"] ≠ [] ∧
        ∀ directory ∈ ["pages", "components", "pages"], IsListed directory) ∧
      splitDirectories (some (String.intercalate "," ["pages", "components", "pages"])) =
        some ["pages", "components", "pages"] := by
  have asked : splitDirectories (some " pages ,,components,\t,pages") =
      some ["pages", "components", "pages"] := by decide +kernel
  obtain ⟨-, -, isListed, joined, -⟩ := splitDirectories_exact
  have listed := isListed _ _ asked
  exact ⟨asked, listed, joined _ listed.1 listed.2⟩

end DependencyAudit.Settings
