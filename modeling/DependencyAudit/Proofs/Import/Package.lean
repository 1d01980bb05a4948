import DependencyAudit.Import
import DependencyAudit.Proofs.Text.Pieces
import Mathlib.Data.List.Basic

namespace DependencyAudit.Import

/-- The shape of a package name. -/
structure IsPackageName (name : List Char) : Prop where
  nonempty : name ≠ []
  notRelative : name.head? ≠ some '.'
  notAbsolute : name.head? ≠ some '/'
  /-- Only a scope has a slash after it, and not more than one. -/
  ofSlash : '/' ∈ name → name.head? = some '@' ∧ name.count '/' = 1

/-- The part is all of the target, or the target goes on after it with a slash. -/
def Leads (part target : List Char) : Prop :=
  ∃ rest, target = part ++ rest ∧ ∀ c ∈ rest.head?, c = '/'

/-- The target is a path, relative to the file that it stands in or absolute. -/
def IsPath (target : List Char) : Prop := target.head? = some '.' ∨ target.head? = some '/'

/-- What names a target leads it. A slash stands in it only behind a scope, where it stands once if it
stands in the target at all. -/
structure Names (name target : List Char) : Prop where
  leads : Leads name target
  ofPlain : target.head? ≠ some '@' → '/' ∉ name
  ofScope : target.head? = some '@' → name.count '/' ≤ 1 ∧ ('/' ∈ target → '/' ∈ name)

variable {target middle part other name : List Char}

theorem Leads.refl (target : List Char) : Leads target target :=
  ⟨[], (List.append_nil _).symm, by simp⟩

theorem Leads.of_slash (part rest : List Char) : Leads part (part ++ '/' :: rest) :=
  ⟨'/' :: rest, rfl, by simp⟩

theorem Leads.trans (first : Leads part middle) (second : Leads middle target) :
    Leads part target := by
  obtain ⟨rest, rfl, goesOn⟩ := first
  obtain ⟨more, rfl, goesOn'⟩ := second
  refine ⟨rest ++ more, List.append_assoc _ _ _, ?_⟩
  cases rest with
  | nil => exact goesOn'
  | cons c rest => exact goesOn

theorem Leads.head?_eq (leads : Leads part target) (nonempty : part ≠ []) :
    part.head? = target.head? := by
  obtain ⟨rest, rfl, -⟩ := leads
  exact (List.head?_append_of_ne_nil _ nonempty).symm

theorem Leads.subset (leads : Leads part target) : part ⊆ target := by
  obtain ⟨rest, rfl, -⟩ := leads
  exact List.subset_append_left part rest

/-- What a target goes on with brings a slash more with it. -/
theorem eq_nil_of_count_eq {between rest : List Char}
    (goesOn : ∀ c ∈ (between ++ rest).head?, c = '/')
    (same : part.count '/' = (part ++ between).count '/') : between = [] := by
  cases between with
  | nil => rfl
  | cons c more =>
    obtain rfl : c = '/' := goesOn c rfl
    rw [List.count_append, List.count_cons_self] at same
    omega

/-- Parts that lead a target with as many slashes are the same. -/
theorem Leads.eq_of_count_eq (one : Leads part target) (two : Leads other target)
    (same : part.count '/' = other.count '/') : part = other := by
  obtain ⟨rest, whole, goesOn⟩ := one
  obtain ⟨rest', whole', goesOn'⟩ := two
  rcases List.append_eq_append_iff.mp (whole.symm.trans whole') with
    ⟨between, rfl, rfl⟩ | ⟨between, rfl, rfl⟩
  · rw [eq_nil_of_count_eq goesOn same, List.append_nil]
  · rw [eq_nil_of_count_eq goesOn' same.symm, List.append_nil]

/-- A text holds no slash, or it is cut at the first one. -/
theorem exists_cut (s : List Char) :
    '/' ∉ s ∨ ∃ before after, s = before ++ '/' :: after ∧ '/' ∉ before := by
  by_cases slash : '/' ∈ s
  · exact .inr (List.eq_append_cons_of_mem slash)
  · exact .inl slash

theorem Leads.behind (leads : Leads part target) (before : List Char) :
    Leads (before ++ ['/'] ++ part) (before ++ '/' :: target) := by
  obtain ⟨rest, rfl, goesOn⟩ := leads
  exact ⟨rest, by simp, goesOn⟩

/-- The first segments of a target lead it. They hold the slashes between them, if it has so many. -/
theorem leads_joinWith_take (target : List Char) (slashes : Nat) :
    Leads (Text.joinWith ['/'] ((Text.piecesAt '/' target).take (slashes + 1))) target ∧
      (Text.joinWith ['/'] ((Text.piecesAt '/' target).take (slashes + 1))).count '/' =
        min slashes (target.count '/') := by
  rcases exists_cut target with free | ⟨before, after, rfl, free⟩
  · rw [Text.piecesAt_of_not_mem free, List.take_succ_cons, List.take_nil, Text.joinWith]
    exact ⟨.refl target, by simp [List.count_eq_zero.mpr free]⟩
  have noSlash : before.count '/' = 0 := List.count_eq_zero.mpr free
  rw [Text.piecesAt_append_cons free, List.take_succ_cons]
  cases slashes with
  | zero => exact ⟨.of_slash before after, by simpa [Text.joinWith] using noSlash⟩
  | succ slashes =>
    obtain ⟨leads, count⟩ := leads_joinWith_take after slashes
    have nonempty : (Text.piecesAt '/' after).take (slashes + 1) ≠ [] := by
      simp [Text.piecesAt, Text.pieces_ne_nil]
    rw [Text.joinWith_cons _ _ nonempty]
    refine ⟨leads.behind before, ?_⟩
    simp only [List.count_append, List.count_cons_self, List.count_nil, count, noSlash]
    omega

theorem Names.count_eq (names : Names name target) :
    name.count '/' = if target.head? = some '@' ∧ '/' ∈ target then 1 else 0 := by
  split
  next scope =>
    obtain ⟨most, inside⟩ := names.ofScope scope.1
    exact Nat.le_antisymm most (List.count_pos_iff.mpr (inside scope.2))
  next plain =>
    refine List.count_eq_zero.mpr fun slash => ?_
    by_cases scope : target.head? = some '@'
    · exact plain ⟨scope, names.leads.subset slash⟩
    · exact names.ofPlain scope slash

/-- A target has one name. -/
theorem Names.unique (one : Names name target) (two : Names other target) : name = other :=
  one.leads.eq_of_count_eq two.leads (one.count_eq.trans two.count_eq.symm)

theorem Names.self (names : Names name target) (nonempty : name ≠ []) : Names name name := by
  have starts := names.leads.head?_eq nonempty
  constructor
  case leads => exact .refl name
  case ofPlain => exact fun plain => names.ofPlain (starts ▸ plain)
  case ofScope => exact fun scope => ⟨(names.ofScope (starts ▸ scope)).1, id⟩

/-- What is added to a target behind a slash does not change what names it, if the slash is not the
one after a scope. -/
theorem Names.append_slash (names : Names name target) (nonempty : target ≠ [])
    (whole : target.head? = .some '@' → '/' ∈ target) (below : List Char) :
    Names name (target ++ '/' :: below) := by
  have starts : (target ++ '/' :: below).head? = target.head? :=
    List.head?_append_of_ne_nil target nonempty
  constructor
  case leads => exact names.leads.trans (.of_slash target below)
  case ofPlain => exact fun plain => names.ofPlain (starts ▸ plain)
  case ofScope =>
    intro scope
    rw [starts] at scope
    exact ⟨(names.ofScope scope).1, fun _ => (names.ofScope scope).2 (whole scope)⟩

/-- A path belongs to no package. -/
theorem packagePart_of_path (isPath : IsPath target) : packagePart target = [] := by
  rcases isPath with relative | absolute
  · obtain ⟨more, rfl⟩ := List.head?_eq_some_iff.mp relative
    rfl
  · obtain ⟨more, rfl⟩ := List.head?_eq_some_iff.mp absolute
    rfl

/-- What is no path is named by the part of it that names its package. -/
theorem names_packagePart (outside : ¬ IsPath target) : Names (packagePart target) target := by
  unfold packagePart
  split
  next => exact absurd (.inl rfl) outside
  next => exact absurd (.inr rfl) outside
  next more =>
    obtain ⟨leads, count⟩ := leads_joinWith_take ('@' :: more) 1
    refine ⟨leads, fun plain => absurd rfl plain, fun _ => ⟨?_, fun slash => ?_⟩⟩
    · exact Nat.le_trans (Nat.le_of_eq count) (Nat.min_le_left _ _)
    · have positive := Nat.lt_min.mpr ⟨Nat.one_pos, List.count_pos_iff.mpr slash⟩
      exact List.count_pos_iff.mp (Nat.lt_of_lt_of_eq positive count.symm)
  next plain =>
    obtain ⟨leads, count⟩ := leads_joinWith_take target 0
    obtain ⟨first, others, shape⟩ :=
      List.exists_cons_of_ne_nil (Text.pieces_ne_nil (· == '/') target)
    rw [Text.piecesAt, shape] at leads count ⊢
    refine ⟨leads, fun _ => ?_, fun scope => ?_⟩
    · exact List.count_eq_zero.mp (count.trans (Nat.zero_min _))
    · obtain ⟨more, same⟩ := List.head?_eq_some_iff.mp scope
      exact absurd same (plain more)

theorem packagePart_eq_of_names (outside : ¬ IsPath target) (names : Names name target) :
    packagePart target = name :=
  (names_packagePart outside).unique names

theorem packagePart_eq_nil_iff : packagePart target = [] ↔ target = [] ∨ IsPath target := by
  constructor
  · intro empty
    by_cases isPath : IsPath target
    · exact .inr isPath
    obtain ⟨rest, whole, goesOn⟩ := empty ▸ (names_packagePart isPath).leads
    rw [List.nil_append] at whole
    cases target with
    | nil => exact .inl rfl
    | cons c more => exact .inr (.inr (congrArg some (goesOn c (whole ▸ rfl))))
  · rintro (rfl | isPath)
    · rfl
    · exact packagePart_of_path isPath

/-- The part of a target that names its package leads it. -/
theorem leads_packagePart (named : packagePart target ≠ []) : Leads (packagePart target) target :=
  (names_packagePart fun isPath => named (packagePart_of_path isPath)).leads

theorem IsPath.congr (isPath : IsPath target) (starts : target.head? = other.head?) :
    IsPath other := by
  unfold IsPath at isPath ⊢
  rwa [← starts]

/-- What names a package has the shape of a package name. -/
theorem isPackageName_packagePart (named : packagePart target ≠ []) :
    IsPackageName (packagePart target) := by
  have outside : ¬ IsPath target := fun isPath => named (packagePart_of_path isPath)
  have names := names_packagePart outside
  have starts := names.leads.head?_eq named
  constructor
  case nonempty => exact named
  case notRelative => exact fun relative => outside (IsPath.congr (.inl relative) starts)
  case notAbsolute => exact fun absolute => outside (IsPath.congr (.inr absolute) starts)
  case ofSlash =>
    intro slash
    have count := names.count_eq
    have positive := List.count_pos_iff.mpr slash
    split at count
    next scope => exact ⟨starts.trans scope.1, count⟩
    next => omega

/-- A name is the name of the package that it names. -/
theorem packagePart_packagePart (target : List Char) :
    packagePart (packagePart target) = packagePart target := by
  by_cases empty : packagePart target = []
  · rw [empty]
    rfl
  have outside : ¬ IsPath target := fun isPath => empty (packagePart_of_path isPath)
  have names := names_packagePart outside
  have starts := names.leads.head?_eq empty
  exact packagePart_eq_of_names (fun isPath => outside (isPath.congr starts)) (names.self empty)

theorem packagePart_append_slash (nonempty : target ≠ [])
    (whole : target.head? = .some '@' → '/' ∈ target) (below : List Char) :
    packagePart (target ++ '/' :: below) = packagePart target := by
  have starts : (target ++ '/' :: below).head? = target.head? :=
    List.head?_append_of_ne_nil target nonempty
  by_cases isPath : IsPath target
  · rw [packagePart_of_path isPath, packagePart_of_path (isPath.congr starts.symm)]
  · have names := (names_packagePart isPath).append_slash nonempty whole below
    exact packagePart_eq_of_names (fun longer => isPath (longer.congr starts)) names

/-- The package of a target is a projection that ignores what is below the package. Paths apart, it is
what names the target; it is its own package, and that of all targets below the target, unless the
target is a scope alone. -/
theorem packageName_projects (target : String) :
    (packageName target = "" ↔ target = "" ∨ IsPath target.toList) ∧
      (packageName target ≠ "" → Names (packageName target).toList target.toList) ∧
      packageName (packageName target) = packageName target ∧
      ∀ below, target ≠ "" → target.toList.head? ≠ some '@' ∨ '/' ∈ target.toList →
        packageName (target ++ "/" ++ below) = packageName target := by
  have empty : packageName target = "" ↔ packagePart target.toList = [] := by
    rw [packageName, String.ofList_eq_empty_iff]
  refine ⟨?_, ?_, ?_, ?_⟩
  · rw [empty, packagePart_eq_nil_iff, String.toList_eq_nil_iff]
  · intro named
    rw [packageName, String.toList_ofList]
    exact names_packagePart fun isPath => named (empty.mpr (packagePart_of_path isPath))
  · simp only [packageName, String.toList_ofList, packagePart_packagePart]
  · intro below nonempty room
    have whole : target.toList.head? = .some '@' → '/' ∈ target.toList :=
      fun scope => room.resolve_left (not_not_intro scope)
    have joined : (target ++ "/" ++ below).toList = target.toList ++ '/' :: below.toList := by
      simp
    rw [packageName, packageName, joined,
      packagePart_append_slash (by simpa using nonempty) whole below.toList]

/-- A module of a scoped package, and what is behind a doubled slash. -/
theorem packageName_projects_of_scope :
    (packageName "@scope/name/part" ≠ "" ∧
      Names (packageName "@scope/name/part").toList "@scope/name/part".toList) ∧
    "@scope/name" ≠ "" ∧ '/' ∈ "@scope/name".toList ∧
      packageName ("@scope/name" ++ "/" ++ "/part") = packageName "@scope/name" := by
  have named : packageName "@scope/name/part" ≠ "" := by decide +kernel
  have nonempty : "@scope/name" ≠ "" := by decide
  have slash : '/' ∈ "@scope/name".toList := by decide +kernel
  exact ⟨⟨named, (packageName_projects _).2.1 named⟩, nonempty, slash,
    (packageName_projects _).2.2.2 "/part" nonempty (.inr slash)⟩

/-- A slash after a scope alone is the one that names the package. -/
example : packageName "@scope" = "@scope" ∧
    packageName ("@scope" ++ "/" ++ "name") = "@scope/name" := by
  decide +kernel

end DependencyAudit.Import
