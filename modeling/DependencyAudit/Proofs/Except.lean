import Mathlib.Tactic.Common

namespace Except

variable {ε δ α β : Type}

theorem bind_eq_ok_iff {x : Except ε α} {f : α → Except ε β} {b : β} :
    x >>= f = .ok b ↔ ∃ a, x = .ok a ∧ f a = .ok b := by
  cases x with
  | error e => simp [bind, Except.bind]
  | ok a => simp [bind, Except.bind]

theorem bind_eq_error_iff {x : Except ε α} {f : α → Except ε β} {e : ε} :
    x >>= f = .error e ↔ x = .error e ∨ ∃ a, x = .ok a ∧ f a = .error e := by
  cases x with
  | error e => simp [bind, Except.bind]
  | ok a => simp [bind, Except.bind]

/-- What would do for a value is not the case where there is an error. -/
theorem of_eq_error {p : Prop} {x : Except ε α} {e : ε} (otherwise : ¬ p → ∃ a, x = .ok a)
    (failed : x = .error e) : p := by
  by_contra absent
  obtain ⟨a, fine⟩ := otherwise absent
  cases failed.symm.trans fine

theorem mapError_eq_ok_iff {x : Except ε α} {f : ε → δ} {a : α} :
    x.mapError f = .ok a ↔ x = .ok a := by
  cases x with
  | error e => simp [Except.mapError]
  | ok a => simp [Except.mapError]

theorem mapError_eq_error_iff {x : Except ε α} {f : ε → δ} {d : δ} :
    x.mapError f = .error d ↔ ∃ e, x = .error e ∧ d = f e := by
  cases x with
  | error e => simp [Except.mapError, eq_comm]
  | ok a => simp [Except.mapError]

theorem map_eq_ok_iff {x : Except ε α} {f : α → β} {b : β} :
    x.map f = .ok b ↔ ∃ a, x = .ok a ∧ f a = b := by
  cases x with
  | error e => simp [Except.map]
  | ok a => simp [Except.map]

theorem map_eq_error_iff {x : Except ε α} {f : α → β} {e : ε} :
    x.map f = .error e ↔ x = .error e := by
  cases x with
  | error e => simp [Except.map]
  | ok a => simp [Except.map]

@[simp] theorem toOption_map (x : Except ε α) (f : α → β) :
    (x.map f).toOption = x.toOption.map f := by
  cases x <;> rfl

@[simp] theorem toOption_bind (x : Except ε α) (f : α → Except ε β) :
    (x >>= f).toOption = x.toOption.bind fun a => (f a).toOption := by
  cases x <;> rfl

theorem toOption_eq_some_iff {x : Except ε α} {a : α} : x.toOption = some a ↔ x = .ok a := by
  cases x <;> simp [Except.toOption]

theorem isSome_toOption_iff {x : Except ε α} : x.toOption.isSome ↔ ∃ a, x = .ok a := by
  cases x with
  | error e => simp [Except.toOption]
  | ok a => simp [Except.toOption]

/-- What comes of items one by one comes of one of them. -/
theorem exists_of_mem_mapM {f : α → Except ε β} {items : List α} {found : List β}
    (all : items.mapM f = .ok found) {b : β} (member : b ∈ found) : ∃ a ∈ items, f a = .ok b := by
  induction items generalizing found with
  | nil =>
    cases all
    cases member
  | cons item rest ih =>
    rw [List.mapM_cons] at all
    obtain ⟨first, here, all⟩ := bind_eq_ok_iff.mp all
    obtain ⟨others, later, all⟩ := bind_eq_ok_iff.mp all
    cases all
    rcases List.mem_cons.mp member with rfl | inOthers
    · exact ⟨item, List.mem_cons_self, here⟩
    · obtain ⟨a, inRest, made⟩ := ih later inOthers
      exact ⟨a, List.mem_cons_of_mem item inRest, made⟩

/-- Where not all items come to something, one of them fails. -/
theorem exists_error_of_mapM {f : α → Except ε β} {items : List α} {e : ε}
    (failed : items.mapM f = .error e) : ∃ a ∈ items, f a = .error e := by
  induction items with
  | nil => cases failed
  | cons item rest ih =>
    rw [List.mapM_cons] at failed
    rcases bind_eq_error_iff.mp failed with here | ⟨_, -, failed⟩
    · exact ⟨item, List.mem_cons_self, here⟩
    rcases bind_eq_error_iff.mp failed with later | ⟨_, -, made⟩
    · obtain ⟨a, inRest, fails⟩ := ih later
      exact ⟨a, List.mem_cons_of_mem item inRest, fails⟩
    · cases made

/-- What is worked out from a value shows that there is one. -/
theorem exists_ok_of_map_toOption {x : Except ε α} {f : α → β} {b : β}
    (found : x.toOption.map f = some b) : ∃ a, x = .ok a ∧ f a = b := by
  cases x with
  | error e => cases found
  | ok a => exact ⟨a, rfl, Option.some.inj found⟩

end Except
