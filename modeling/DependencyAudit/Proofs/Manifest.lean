import DependencyAudit.Analysis
import DependencyAudit.Proofs.Except
import DependencyAudit.Proofs.Names

namespace DependencyAudit

namespace Manifest

/-- The keys of the dependency groups. -/
def groupKeys : List String := ["dependencies", "devDependencies"]

/-- A dependency group among these members has the name as a key. -/
def Groups (members : Json.Members) (name : Name) : Prop :=
  ∃ key ∈ groupKeys, ∃ group : Json.Members,
    members.get? (.ofString key) = some (.object group) ∧ name ∈ group.keys

theorem mem_keys_of_group {path : Path} {members found : Json.Members} {key : String} {name : Name}
    (read : group path members key = .ok found) :
    name ∈ found.keys ↔
      ∃ group : Json.Members,
        members.get? (.ofString key) = some (.object group) ∧ name ∈ group.keys := by
  unfold group at read
  split at read
  next absent =>
    cases read
    simp [absent, Json.Members.keys]
  next null =>
    cases read
    simp [null, Json.Members.keys]
  next present =>
    cases read
    simp [present]
  next => cases read

end Manifest

section

variable [Platform]

/-- The manifest of the project is the text of an object that has the name in a dependency group. -/
def Declares (view : FileSystem.View) (project : Path) (name : Name) : Prop :=
  ∃ text members, view.read (Manifest.pathIn project) = .ok text ∧
    Json.parse Platform.nestingDepth text = .ok (.object members) ∧ Manifest.Groups members name

namespace Manifest

variable {view : FileSystem.View} {project : Path} {manifest : Manifest}

/-- The manifest that a text writes declares what the groups in it have as keys. -/
theorem mem_declared_of_ofText {path : Path} {text : String} {name : Name}
    (read : ofText path text = .ok manifest) :
    name ∈ manifest.declared ↔
      ∃ members, Json.parse Platform.nestingDepth text = .ok (.object members) ∧
        Groups members name := by
  obtain ⟨value, parsed, rest⟩ := Except.bind_eq_ok_iff.mp read
  rw [Except.mapError_eq_ok_iff] at parsed
  split at rest
  next members =>
    obtain ⟨dependencies, first, rest⟩ := Except.bind_eq_ok_iff.mp rest
    obtain ⟨devDependencies, second, rest⟩ := Except.bind_eq_ok_iff.mp rest
    cases rest
    simp only [declared, Names.mem_ascending, List.mem_append, mem_keys_of_group first,
      mem_keys_of_group second, parsed, Groups, groupKeys, List.mem_cons, List.not_mem_nil,
      or_false, Except.ok.injEq, Json.Value.object.injEq, exists_eq_left', exists_eq_or_imp,
      exists_eq_left]
  next => cases rest

theorem mem_declared_of_load {name : Name} (loaded : load view project = .ok manifest) :
    name ∈ manifest.declared ↔ Declares view project name := by
  obtain ⟨there, _, rest⟩ := Except.bind_eq_ok_iff.mp loaded
  split at rest
  · obtain ⟨text, read, written⟩ := Except.bind_eq_ok_iff.mp rest
    rw [Except.mapError_eq_ok_iff] at read
    rw [mem_declared_of_ofText written]
    simp only [Declares, read, Except.ok.injEq, exists_and_left, exists_eq_left']
  · cases rest

end Manifest

namespace Analyzer

variable {view : FileSystem.View} {project : Path} {ignore : List Name}
  {directories : List String} {excluder : Exclusion.Excluder} {a : Analyzer}

theorem exists_manifest_of_load (loaded : load view project ignore directories excluder = .ok a) :
    ∃ manifest, Manifest.load view project = .ok manifest ∧
      a = ⟨project, directories, excluder, manifest.filtered ignore⟩ := by
  obtain ⟨manifest, read, rest⟩ := Except.bind_eq_ok_iff.mp loaded
  cases rest
  exact ⟨manifest, read, rfl⟩

/-- What is declared is all that an analyzer takes from the manifest. -/
theorem load_eq_ok_of_filtered {names : List Name}
    (declares : (Manifest.load view project).map (·.filtered ignore) = .ok names) :
    load view project ignore directories excluder =
      .ok ⟨project, directories, excluder, names⟩ := by
  obtain ⟨manifest, read, rfl⟩ := Except.map_eq_ok_iff.mp declares
  rw [load, read]
  rfl

theorem mem_declared_of_load (loaded : load view project ignore directories excluder = .ok a)
    {name : Name} : name ∈ a.declared ↔ Declares view project name ∧ name ∉ ignore := by
  obtain ⟨manifest, read, rfl⟩ := exists_manifest_of_load loaded
  simp only [Manifest.filtered, List.mem_filter, Manifest.mem_declared_of_load read,
    decide_eq_true_eq]

end Analyzer

end

end DependencyAudit
