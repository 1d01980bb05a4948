namespace DependencyAudit

/-- What a stretch of text may look like. Only single characters are repeated. -/
inductive Regex where
  /-- Nothing at all. -/
  | empty
  /-- One character of the class. -/
  | one (admits : Char → Bool)
  /-- As many characters of the class as possible, or fewer, or none. -/
  | many (admits : Char → Bool)
  /-- The pattern, or nothing. -/
  | optional (r : Regex)
  /-- Nothing, where the rest of the text is as asked; it is not consumed. -/
  | ahead (asks : List Char → Bool)
  /-- One pattern and then the other. -/
  | append (r s : Regex)

namespace Regex

instance : Append Regex := ⟨append⟩

/-- At least one character of the class, as many as possible first. -/
def atLeastOne (admits : Char → Bool) : Regex := one admits ++ many admits

/-- Exactly this character. -/
def char (c : Char) : Regex := one (· == c)

/-- Exactly these characters. -/
def word (s : String) : Regex := s.toList.foldr (fun c r => char c ++ r) empty

/-- What can be left after a run of characters of the class, the longest run first. -/
def restsOfMany (admits : Char → Bool) : List Char → List (List Char)
  | [] => [[]]
  | c :: rest => if admits c then restsOfMany admits rest ++ [c :: rest] else [c :: rest]

/-- What a match from the start can leave over, in order of preference. -/
def rests : Regex → List Char → List (List Char)
  | empty, s => [s]
  | one _, [] => []
  | one admits, c :: rest => if admits c then [rest] else []
  | many admits, s => restsOfMany admits s
  | optional r, s => rests r s ++ [s]
  | ahead asks, s => if asks s then [s] else []
  | append r t, s => (rests r s).flatMap (rests t)

/-- Tries the continuation after the longest run of the class, then after shorter ones. -/
def firstOfMany {α : Type} (admits : Char → Bool) (continuation : List Char → Option α) :
    List Char → Option α
  | [] => continuation []
  | c :: rest =>
    if admits c then firstOfMany admits continuation rest <|> continuation (c :: rest)
    else continuation (c :: rest)

/-- The first answer of the continuation over the rests of a match, in order of preference. -/
def first {α : Type} : Regex → (List Char → Option α) → List Char → Option α
  | empty, continuation, s => continuation s
  | one _, _, [] => none
  | one admits, continuation, c :: rest => if admits c then continuation rest else none
  | many admits, continuation, s => firstOfMany admits continuation s
  | optional r, continuation, s => first r continuation s <|> continuation s
  | ahead asks, continuation, s => if asks s then continuation s else none
  | append r t, continuation, s => first r (first t continuation) s

/-- Whether some match starts where the text starts. -/
def matchesStart (r : Regex) (s : List Char) : Bool := (r.first some s).isSome

theorem rests_append (r t : Regex) (s : List Char) :
    (r ++ t).rests s = (r.rests s).flatMap t.rests := rfl

theorem first_append {α : Type} (r t : Regex) (continuation : List Char → Option α)
    (s : List Char) : (r ++ t).first continuation s = r.first (t.first continuation) s := rfl

theorem findSome?_flatMap {α β γ : Type} (expand : α → List β) (answer : β → Option γ)
    (items : List α) :
    (items.flatMap expand).findSome? answer =
      items.findSome? fun item => (expand item).findSome? answer := by
  induction items with
  | nil => rfl
  | cons item rest ih =>
    simp only [List.flatMap_cons, List.findSome?_append, ih, List.findSome?_cons]
    cases (expand item).findSome? answer <;> rfl

theorem firstOfMany_eq {α : Type} (admits : Char → Bool) (continuation : List Char → Option α)
    (s : List Char) :
    firstOfMany admits continuation s = (restsOfMany admits s).findSome? continuation := by
  induction s with
  | nil => simp [firstOfMany, restsOfMany]
  | cons c rest ih =>
    by_cases inClass : admits c = true
    · simp [firstOfMany, restsOfMany, inClass, ih]
    · simp [firstOfMany, restsOfMany, inClass]

/-- Running a pattern finds the first rest that the continuation accepts. -/
theorem first_eq {α : Type} (r : Regex) (continuation : List Char → Option α) (s : List Char) :
    first r continuation s = (rests r s).findSome? continuation := by
  induction r generalizing continuation s with
  | empty => simp [first, rests]
  | one admits =>
    cases s with
    | nil => simp [first, rests]
    | cons c rest => by_cases inClass : admits c = true <;> simp [first, rests, inClass]
  | many admits => simpa [first, rests] using firstOfMany_eq admits continuation s
  | optional r ih => simp [first, rests, ih]
  | ahead asks => by_cases holds : asks s = true <;> simp [first, rests, holds]
  | append r t ihr iht =>
    simp only [first, rests, ihr, findSome?_flatMap]
    congr 1
    funext rest
    exact iht continuation rest

theorem suffix_of_mem_restsOfMany {admits : Char → Bool} {s rest : List Char}
    (found : rest ∈ restsOfMany admits s) : rest <:+ s := by
  induction s with
  | nil => simp_all [restsOfMany]
  | cons c tail ih =>
    by_cases inClass : admits c = true
    · simp only [restsOfMany, inClass, if_true, List.mem_append, List.mem_singleton] at found
      rcases found with inner | rfl
      · exact (ih inner).trans (List.suffix_cons c tail)
      · exact List.suffix_refl _
    · simp_all [restsOfMany]

/-- A match only takes characters from the front. -/
theorem suffix_of_mem_rests {r : Regex} {s rest : List Char} (found : rest ∈ rests r s) :
    rest <:+ s := by
  induction r generalizing s rest with
  | empty => simp_all [rests]
  | one admits =>
    cases s with
    | nil => simp [rests] at found
    | cons c tail =>
      by_cases inClass : admits c = true <;> simp [rests, inClass] at found
      exact found ▸ List.suffix_cons c tail
  | many admits => exact suffix_of_mem_restsOfMany found
  | optional r ih =>
    simp only [rests, List.mem_append, List.mem_singleton] at found
    rcases found with inner | rfl
    · exact ih inner
    · exact List.suffix_refl _
  | ahead asks =>
    by_cases holds : asks s = true <;> simp [rests, holds] at found
    exact found ▸ List.suffix_refl _
  | append r t ihr iht =>
    simp only [rests, List.mem_flatMap] at found
    obtain ⟨middle, inner, outer⟩ := found
    exact (iht outer).trans (ihr inner)

/-- What the continuation was given when it answered. -/
theorem exists_rest_of_first {α : Type} {r : Regex} {continuation : List Char → Option α}
    {s : List Char} {answer : α} (found : first r continuation s = some answer) :
    ∃ rest ∈ rests r s, continuation rest = some answer := by
  rw [first_eq] at found
  exact List.exists_of_findSome?_eq_some found

end Regex

end DependencyAudit
