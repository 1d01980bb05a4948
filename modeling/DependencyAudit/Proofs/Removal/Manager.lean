import DependencyAudit.Proofs.Except
import DependencyAudit.Removal.Manager
import Mathlib.Tactic.Common

namespace DependencyAudit.Removal.Manager

theorem uninstallWords_eq (manager : Manager) :
    manager.uninstallWords = ["remove"] ∨ manager.uninstallWords = ["uninstall", "--save"] := by
  cases manager with
  | npm | other _ => exact .inr rfl
  | yarn | pnpm => exact .inl rfl

/-- A command line tells which packages it removes, whatever the manager. -/
theorem packages_eq_of_removalCommand {manager other : Manager} {packages others : List Name}
    (same : manager.removalCommand packages = other.removalCommand others) : packages = others := by
  have words := (List.cons.inj same).2
  rcases uninstallWords_eq manager with one | two <;> rcases uninstallWords_eq other with one' | two'
  · rw [one, one'] at words
    exact (List.cons.inj words).2
  · rw [one, two'] at words
    exact absurd (List.cons.inj words).1 (by decide)
  · rw [two, one'] at words
    exact absurd (List.cons.inj words).1 (by decide)
  · rw [two, two'] at words
    exact (List.cons.inj (List.cons.inj words).2).2

section

variable {view : FileSystem.View} {project : Path} {managers : List Manager} {manager : Manager}

theorem mem_of_firstWithLock (found : firstWithLock view project managers = .ok (some manager)) :
    manager ∈ managers := by
  induction managers with
  | nil => cases found
  | cons first rest ih =>
    unfold firstWithLock at found
    split at found
    next => exact List.mem_cons_of_mem first (ih found)
    next path _ =>
      obtain ⟨there, -, found⟩ := Except.bind_eq_ok_iff.mp found
      split at found
      next =>
        cases found
        exact List.mem_cons_self
      next => exact List.mem_cons_of_mem first (ih found)

/-- The search ends early only where it is not known whether a lock file is there. -/
theorem exists_refusal_of_firstWithLock {refusal : FileSystem.Refusal}
    (refused : firstWithLock view project managers = .error refusal) :
    ∃ manager ∈ managers, ∃ path, lockPath? project manager = some path ∧
      view.exists? path = .error refusal := by
  induction managers with
  | nil => cases refused
  | cons first rest ih =>
    unfold firstWithLock at refused
    have later : firstWithLock view project rest = .error refusal →
        ∃ manager ∈ first :: rest, ∃ path, lockPath? project manager = some path ∧
          view.exists? path = .error refusal := by
      intro refused
      obtain ⟨manager, member, refuses⟩ := ih refused
      exact ⟨manager, List.mem_cons_of_mem first member, refuses⟩
    split at refused
    next => exact later refused
    next path atPath =>
      rcases Except.bind_eq_error_iff.mp refused with here | ⟨there, -, refused⟩
      · exact ⟨first, List.mem_cons_self, path, atPath, here⟩
      · split at refused
        next => cases refused
        next => exact later refused

theorem mem_known_of_detect (found : detect view project = .ok manager) : manager ∈ known := by
  obtain ⟨first, search, same⟩ := Except.bind_eq_ok_iff.mp found
  cases same
  cases first with
  | none => decide
  | some manager =>
    have member := mem_of_firstWithLock search
    have among : ∀ other ∈ detected, other ∈ known := by decide
    exact among manager member

theorem exists_refusal_of_detect {refusal : FileSystem.Refusal}
    (refused : detect view project = .error refusal) :
    ∃ manager ∈ detected, ∃ path, lockPath? project manager = some path ∧
      view.exists? path = .error refusal := by
  rcases Except.bind_eq_error_iff.mp refused with refused | ⟨_, -, made⟩
  · exact exists_refusal_of_firstWithLock refused
  · cases made

theorem mem_known_of_ofName? {name : String} (found : ofName? name = some manager) :
    manager ∈ known := List.mem_of_find?_eq_some found

theorem ofName?_name (member : manager ∈ known) : ofName? manager.name = some manager := by
  have found : ∀ other ∈ known, ofName? other.name = some other := by decide
  exact found manager member

theorem not_mem_name_of_mem_known (member : manager ∈ known) : '[' ∉ manager.name.toList := by
  have plain : ∀ other ∈ known, '[' ∉ other.name.toList := by decide
  exact plain manager member

end

end DependencyAudit.Removal.Manager
