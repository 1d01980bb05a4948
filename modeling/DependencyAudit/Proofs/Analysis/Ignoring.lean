import DependencyAudit.Proofs.Analysis.Order

namespace DependencyAudit

open FileSystem

/-- The smaller result is the other one without these names, of which it had counted the given
ones. -/
structure Result.Without (names : List Name) (counted : Set Name)
    (result smaller : Result) : Prop where
  used_eq : smaller.used = result.used.filter (· ∉ names)
  unused_eq : smaller.unused = result.unused.filter (· ∉ names)
  total_eq : smaller.total + ({name | name ∈ names} ∩ counted).encard = result.total

/-- What the outcome for a list of ignored names becomes when more names are ignored. -/
structure IgnoresMore [Platform] (view : View) (project : Path) (ignore more : List Name)
    (before after : Except Failure (Result × Statistics)) : Prop where
  error_iff : ∀ failure, after = .error failure ↔ before = .error failure
  /-- There is a result as before, from the same files and references, and without these names. -/
  without : ∀ result statistics, before = .ok (result, statistics) →
    ∃ smaller, after = .ok (smaller, statistics) ∧
      result.Without more {name | Declares view project name ∧ name ∉ ignore} smaller ∧
      ∀ name ∈ ignore ++ more, name ∉ smaller.used ∧ name ∉ smaller.unused

namespace Reconciles

variable {view : View} {declared : Name → Prop} {found : Scan.Found} {result smaller : Result}
  {statistics counted : Statistics} {names : List Name}

/-- The same files reconciled with fewer names give the same lists without these names. -/
theorem without (reconciles : Reconciles view declared found result statistics)
    (reconciles' :
      Reconciles view (fun name => declared name ∧ name ∉ names) found smaller counted) :
    result.Without names {name | declared name} smaller where
  used_eq := by
    refine reconciles'.used_ascending.eq_of_mem_iff (reconciles.used_ascending.filter _) ?_
    intro name
    rw [reconciles'.mem_used, List.mem_filter, reconciles.mem_used, decide_eq_true_eq, and_right_comm]
  unused_eq := by
    refine reconciles'.unused_ascending.eq_of_mem_iff (reconciles.unused_ascending.filter _) ?_
    intro name
    rw [reconciles'.mem_unused, List.mem_filter, reconciles.mem_unused, decide_eq_true_eq,
      and_right_comm]
  total_eq := by
    have kept : {name | declared name ∧ name ∉ names} = {name | declared name} \ {name | name ∈ names} :=
      rfl
    rw [← reconciles'.total_eq, ← reconciles.total_eq, kept, Set.inter_comm,
      Set.encard_sdiff_add_encard_inter]

end Reconciles

namespace Analyzer

variable [Platform] {view : View} {project : Path} {ignore more : List Name}
  {directories : List String} {excluder : Exclusion.Excluder} {a : Analyzer}

/-- The same analyzer with more names to ignore. -/
def ignoring (a : Analyzer) (names : List Name) : Analyzer :=
  { a with declared := a.declared.filter (· ∉ names) }

theorem load_append : load view project (ignore ++ more) directories excluder =
    (load view project ignore directories excluder).map (·.ignoring more) := by
  unfold load
  cases Manifest.load view project with
  | error failure => rfl
  | ok manifest =>
    have filtered : manifest.filtered (ignore ++ more) =
        (manifest.filtered ignore).filter (· ∉ more) := by
      simp only [Manifest.filtered, List.filter_filter, List.mem_append, not_or, Bool.decide_and,
        Bool.and_comm]
    change Except.ok _ = Except.ok _
    rw [filtered]
    rfl

omit [Platform] in
theorem analyze_ignoring_eq_error_iff {failure : Failure} :
    (a.ignoring more).analyze view = .error failure ↔ a.analyze view = .error failure := by
  have scanned : (a.ignoring more).scan view = a.scan view := rfl
  rw [analyze_eq_error_iff, analyze_eq_error_iff, scanned]

omit [Platform] in
/-- What is counted on the way to a result does not depend on the names. -/
theorem exists_analyze_ignoring {result : Result} {statistics : Statistics}
    (ended : a.analyze view = .ok (result, statistics)) (more : List Name) :
    ∃ smaller, (a.ignoring more).analyze view = .ok (smaller, statistics) := by
  obtain ⟨references, read, through, same⟩ := analyze_eq_ok_iff.mp ended
  obtain ⟨-, rfl⟩ := Prod.mk.inj same
  exact ⟨_, analyze_eq_ok_iff.mpr ⟨references, read, through, rfl⟩⟩

theorem without_of_ignoring (loaded : load view project ignore directories excluder = .ok a)
    {result smaller : Result} {statistics : Statistics}
    (ended : a.analyze view = .ok (result, statistics))
    (ended' : (a.ignoring more).analyze view = .ok (smaller, statistics)) :
    result.Without more {name | Declares view project name ∧ name ∉ ignore} smaller ∧
      ∀ name ∈ ignore ++ more, name ∉ smaller.used ∧ name ∉ smaller.unused := by
  have names : (· ∈ a.declared) = fun name => Declares view project name ∧ name ∉ ignore := by
    funext name
    exact propext (mem_declared_of_load loaded)
  have fewer : (· ∈ (a.ignoring more).declared) =
      fun name => (Declares view project name ∧ name ∉ ignore) ∧ name ∉ more := by
    funext name
    rw [← congrFun names name]
    exact propext (by rw [ignoring, List.mem_filter, decide_eq_true_eq])
  have first := reconciles_of_analyze ended
  have second := reconciles_of_analyze ended'
  rw [names] at first
  rw [fewer] at second
  refine ⟨first.without second, ?_⟩
  intro name ignored
  have undeclared : ¬ ((Declares view project name ∧ name ∉ ignore) ∧ name ∉ more) := by
    rintro ⟨⟨-, notBefore⟩, notNow⟩
    exact (List.mem_append.mp ignored).elim notBefore notNow
  exact ⟨fun used => undeclared ((second.mem_used name).mp used).1,
    fun unused => undeclared ((second.mem_unused name).mp unused).1⟩

/-- An analyzer is made for a project and analyses it. -/
def outcome (view : View) (project : Path) (directories : List String)
    (excluder : Exclusion.Excluder) (ignore : List Name) : Except Failure (Result × Statistics) := do
  let a ← load view project ignore directories excluder
  a.analyze view

/-- To ignore a name changes nothing of what is found out about others. -/
theorem outcome_ignoresMore (view : View) (project : Path) (directories : List String)
    (excluder : Exclusion.Excluder) (ignore more : List Name) :
    IgnoresMore view project ignore more (outcome view project directories excluder ignore)
      (outcome view project directories excluder (ignore ++ more)) := by
  unfold outcome
  rw [load_append]
  cases loaded : load view project ignore directories excluder with
  | error failure => exact ⟨fun _ => Iff.rfl, fun _ _ ended => nomatch ended⟩
  | ok a =>
    constructor
    case error_iff => exact fun failure => analyze_ignoring_eq_error_iff
    case without =>
      intro result statistics ended
      obtain ⟨smaller, ended'⟩ := exists_analyze_ignoring ended more
      obtain ⟨without, absent⟩ := without_of_ignoring loaded ended ended'
      exact ⟨smaller, ended', without, absent⟩

end Analyzer

end DependencyAudit
