import DependencyAudit.Exclusion.Glob
import DependencyAudit.Proofs.Regex

namespace DependencyAudit.Exclusion

/-- An item that stands for characters of a name: no brackets, which may stand for a slash. -/
def GlobItem.IsPlain : GlobItem → Prop
  | literal c => c ≠ '/'
  | star | question => True
  | brackets _ _ => False

theorem isPlain_of_globItems? {s : List Char} {items : List GlobItem}
    (read : globItems? s = some items) (noSlash : '/' ∉ s) (noBracket : '[' ∉ s) :
    ∀ item ∈ items, item.IsPlain := by
  have cons : ∀ {first : GlobItem} {rest : List GlobItem}, first.IsPlain →
      (∀ item ∈ rest, item.IsPlain) → ∀ item ∈ first :: rest, item.IsPlain :=
    fun here later => List.forall_mem_cons.mpr ⟨here, later⟩
  fun_induction globItems? s generalizing items with
  | case1 =>
    cases read
    simp
  | case2 => cases read
  | case3 c rest ih =>
    obtain ⟨others, later, rfl⟩ := Option.map_eq_some_iff.mp read
    simp only [List.mem_cons, not_or] at noSlash noBracket
    exact cons (Ne.symm noSlash.2.1) (ih later noSlash.2.2 noBracket.2.2)
  | case4 rest ih =>
    obtain ⟨others, later, rfl⟩ := Option.map_eq_some_iff.mp read
    simp only [List.mem_cons, not_or] at noSlash noBracket
    exact cons trivial (ih later noSlash.2 noBracket.2)
  | case5 rest ih =>
    obtain ⟨others, later, rfl⟩ := Option.map_eq_some_iff.mp read
    simp only [List.mem_cons, not_or] at noSlash noBracket
    exact cons trivial (ih later noSlash.2 noBracket.2)
  | case6 => simp at noBracket
  | case7 => simp at noBracket
  | case8 c rest _ _ _ _ _ ih =>
    obtain ⟨others, later, rfl⟩ := Option.map_eq_some_iff.mp read
    simp only [List.mem_cons, not_or] at noSlash noBracket
    exact cons (Ne.symm noSlash.1) (ih later noSlash.2 noBracket.2)

theorem globRegex?_cons {item : GlobItem} {rest : List GlobItem} {r : Regex}
    (built : globRegex? (item :: rest) = some r) :
    ∃ first others, item.regex? = some first ∧ globRegex? rest = some others ∧
      r = first ++ others := by
  obtain ⟨first, here, built⟩ := Option.bind_eq_some_iff.mp built
  obtain ⟨others, later, built⟩ := Option.bind_eq_some_iff.mp built
  exact ⟨first, others, here, later, (Option.some.inj built).symm⟩

theorem isLocal_globRegex? {items : List GlobItem} {r : Regex}
    (built : globRegex? items = some r) : r.IsLocal := by
  induction items generalizing r with
  | nil =>
    cases built
    trivial
  | cons item rest ih =>
    obtain ⟨first, others, here, later, rfl⟩ := globRegex?_cons built
    refine ⟨?_, ih later⟩
    cases item with
    | brackets negated inner =>
      obtain ⟨_, _, rfl⟩ := Option.map_eq_some_iff.mp here
      trivial
    | _ =>
      cases here
      trivial

/-- A glob without brackets matches within one name. -/
theorem takesOnly_globRegex? {items : List GlobItem} {r : Regex}
    (built : globRegex? items = some r) (plain : ∀ item ∈ items, item.IsPlain) :
    r.TakesOnly (· ≠ '/') := by
  induction items generalizing r with
  | nil =>
    cases built
    trivial
  | cons item rest ih =>
    obtain ⟨first, others, here, later, rfl⟩ := globRegex?_cons built
    obtain ⟨isPlain, plainRest⟩ := List.forall_mem_cons.mp plain
    refine ⟨?_, ih later plainRest⟩
    cases item with
    | literal c =>
      cases here
      intro other same
      rw [beq_iff_eq.mp same]
      exact isPlain
    | star =>
      cases here
      intro other inName
      exact bne_iff_ne.mp inName
    | question =>
      cases here
      intro other inName
      exact bne_iff_ne.mp inName
    | brackets negated inner => exact isPlain.elim

/-- A glob that matches the empty name is made of stars, so it matches every name. -/
theorem takes_name_of_takes_nothing {items : List GlobItem} {r : Regex}
    (built : globRegex? items = some r) (plain : ∀ item ∈ items, item.IsPlain) (nonempty : items ≠ [])
    (nothing : [] ∈ r.rests []) {name rest : List Char} (noSlash : '/' ∉ name) :
    rest ∈ r.rests (name ++ rest) := by
  cases items with
  | nil => exact absurd rfl nonempty
  | cons item others =>
    obtain ⟨first, later, here, builtLater, rfl⟩ := globRegex?_cons built
    obtain ⟨middle, start, ends⟩ := Regex.mem_rests_append.mp nothing
    cases item with
    | literal c =>
      cases here
      obtain ⟨_, empty, _⟩ := Regex.mem_rests_one.mp start
      cases empty
    | question =>
      cases here
      obtain ⟨_, empty, _⟩ := Regex.mem_rests_one.mp start
      cases empty
    | brackets negated inner => exact (plain _ List.mem_cons_self).elim
    | star =>
      cases here
      have middleEmpty : middle = [] := List.suffix_nil.mp (Regex.suffix_of_mem_rests start)
      rw [middleEmpty] at ends
      -- The star takes the name, and what follows the star takes nothing here as it did there.
      have goesOn : [] ++ rest ∈ later.rests ([] ++ rest) :=
        (Regex.mem_rests_append_right (isLocal_globRegex? builtLater)).mpr ends
      refine Regex.mem_rests_append.mpr ⟨rest, Regex.mem_rests_many.mpr ⟨name, rfl, ?_⟩, goesOn⟩
      intro c member
      exact bne_iff_ne.mpr fun same => noSlash (same ▸ member)

end DependencyAudit.Exclusion
