import DependencyAudit.Proofs.Removal.Selection
import DependencyAudit.Proofs.Text.Digit
import DependencyAudit.Proofs.Text.Runs
import Mathlib.Data.List.Sort

namespace DependencyAudit.Removal

open Text

/-- The part writes a number in decimal digits, of any script and with any zeros before it. -/
def Writes (token : List Char) (number : Nat) : Prop :=
  token.all isDigit ∧ decimalValue token = number

/-- The part is the number of a listed package. -/
def IsListed (count : Nat) (token : List Char) : Prop :=
  token.all isDigit ∧ 1 ≤ decimalValue token ∧ decimalValue token ≤ count

instance (count : Nat) : DecidablePred (IsListed count) := fun token => by
  unfold IsListed
  infer_instance

namespace Selection

variable {answer : String} {count : Nat} {token : List Char} {parts : List (List Char)}
  {s : Selection}

theorem isListed_iff : IsListed count token ↔ ∃ i < count, Writes token (i + 1) := by
  constructor
  · rintro ⟨digits, positive, bound⟩
    exact ⟨decimalValue token - 1, by omega, digits, by omega⟩
  · rintro ⟨i, inside, digits, value⟩
    exact ⟨digits, by omega, by omega⟩

theorem writes_toDigits (n : Nat) : Writes (Nat.toDigits 10 n) n :=
  ⟨List.all_eq_true.mpr fun _ => isDigit_of_mem_toDigits, decimalValue_toDigits n⟩

theorem index?_of_short (short : ¬ IsLong token) :
    index? count token =
      .ok (if IsListed count token then some (decimalValue token - 1) else none) := by
  unfold index?
  by_cases digits : token.all isDigit
  · rw [if_pos digits, if_neg fun long => short ⟨digits, long⟩]
    simp only [IsListed, digits, true_and]
  · rw [if_neg digits, if_neg fun listed => digits listed.1]

theorem index?_of_long (long : IsLong token) :
    index? count token = .error ⟨token.length⟩ := by
  rw [index?, if_pos long.1, if_pos long.2]

/-- Parts without long numbers are read: the numbers of listed packages pick their places, the other
parts are kept in their order. -/
theorem exists_ofTokens (count : Nat) (short : ∀ token ∈ parts, ¬ IsLong token) :
    ∃ s, ofTokens count parts = .ok s ∧
      (∀ i, i ∈ s.indices ↔ ∃ token ∈ parts, IsListed count token ∧ Writes token (i + 1)) ∧
      s.invalid = (parts.filter (¬ IsListed count ·)).map String.ofList := by
  induction parts with
  | nil => exact ⟨nothing, rfl, by simp [nothing], rfl⟩
  | cons token rest ih =>
    obtain ⟨here, later⟩ := List.forall_mem_cons.mp short
    obtain ⟨others, read, picks, rejects⟩ := ih later
    rw [ofTokens, index?_of_short here, read]
    by_cases listed : IsListed count token
    · refine ⟨⟨insertIndex (decimalValue token - 1) others.indices, others.invalid⟩, ?_, ?_, ?_⟩
      · rw [if_pos listed]
        rfl
      · intro i
        obtain ⟨digits, positive, -⟩ := id listed
        have own : i = decimalValue token - 1 ↔ Writes token (i + 1) :=
          ⟨fun same => ⟨digits, by omega⟩, fun writes => by have := writes.2; omega⟩
        rw [mem_insertIndex, own, picks]
        simp [listed]
      · simp [listed, rejects]
    · refine ⟨⟨others.indices, String.ofList token :: others.invalid⟩, ?_, ?_, ?_⟩
      · rw [if_neg listed]
        rfl
      · intro i
        rw [picks]
        simp [listed]
      · simp [listed, rejects]

/-- The first long number keeps the parts from being read. -/
theorem ofTokens_of_long {before after : List (List Char)}
    (short : ∀ part ∈ before, ¬ IsLong part) (long : IsLong token) :
    ofTokens count (before ++ token :: after) = .error ⟨token.length⟩ := by
  induction before with
  | nil =>
    rw [List.nil_append, ofTokens, index?_of_long long]
    rfl
  | cons part rest ih =>
    obtain ⟨here, later⟩ := List.forall_mem_cons.mp short
    rw [List.cons_append, ofTokens, index?_of_short here, ih later]
    rfl

theorem separates_of_isBlank {c : Char} (blank : isBlank c = true) : separates c = true := by
  rw [separates, blank, Bool.true_or]

/-- The parts of an answer are the runs of its text as it stands. -/
theorem tokens_trim (answer : List Char) : tokens (trim answer) = runs separates answer :=
  runs_trim (fun _ => separates_of_isBlank) answer

/-- What is not small has its small letter 32 places further on. -/
theorem toNat_toLower {c : Char} (other : c.toLower ≠ c) : c.toLower.toNat = c.toNat + 32 := by
  unfold Char.toLower at other ⊢
  split at other
  next capital =>
    rw [dif_pos capital]
    have low : c.val.toNat ≤ 90 := UInt32.le_iff_toNat_le.mp capital.2
    have sum : (c.val + 32).toNat = (c.val.toNat + 32) % 2 ^ 32 := UInt32.toNat_add c.val 32
    change (c.val + 32).toNat = c.val.toNat + 32
    omega
  next => exact absurd rfl other

theorem eq_of_toLower {c small capital : Char} (differ : capital.toNat + 32 = small.toNat)
    (lower : c.toLower = small) : c = small ∨ c = capital := by
  by_cases same : c.toLower = c
  · exact .inl (same.symm.trans lower)
  · have above := toNat_toLower same
    rw [lower] at above
    exact .inr (Char.toNat_inj.mp (by omega))

/-- The word for all is written in one of eight ways. -/
theorem picksAll_cases (all : PicksAll answer) :
    ∃ a b c, trim answer.toList = [a, b, c] ∧ (a = 'a' ∨ a = 'A') ∧ (b = 'l' ∨ b = 'L') ∧
      (c = 'l' ∨ c = 'L') := by
  obtain ⟨a, more, shape, first, all⟩ := List.map_eq_cons_iff.mp all
  obtain ⟨b, more, rfl, second, all⟩ := List.map_eq_cons_iff.mp all
  obtain ⟨c, more, rfl, third, all⟩ := List.map_eq_cons_iff.mp all
  obtain rfl := List.map_eq_nil_iff.mp all
  exact ⟨a, b, c, shape, eq_of_toLower rfl first, eq_of_toLower rfl second,
    eq_of_toLower rfl third⟩

/-- The word for all is the only part of its answer, and no number. -/
theorem runs_of_picksAll (all : PicksAll answer) :
    ∃ word, runs separates answer.toList = [word] ∧ ¬ word.all isDigit := by
  refine ⟨trim answer.toList, ?_⟩
  rw [← tokens_trim]
  change runs separates (trim answer.toList) = _ ∧ _
  have free : trim answer.toList ≠ [] ∧ (∀ c ∈ trim answer.toList, separates c = false) ∧
      ¬ (trim answer.toList).all isDigit := by
    obtain ⟨a, b, c, shape, rfl | rfl, rfl | rfl, rfl | rfl⟩ := picksAll_cases all <;>
      rw [shape] <;> decide
  exact ⟨runs_of_free free.1 free.2.1, free.2.2⟩

theorem parse_of_picksAll (all : PicksAll answer) :
    parse answer count = .ok ⟨List.range count, []⟩ := if_pos all

theorem parse_of_not_picksAll (other : ¬ PicksAll answer) :
    parse answer count = ofTokens count (runs separates answer.toList) := by
  rw [← tokens_trim]
  exact if_neg other

/-- The first long number among its parts keeps an answer from being read. -/
theorem parse_of_long {before after : List (List Char)}
    (shape : runs separates answer.toList = before ++ token :: after)
    (short : ∀ part ∈ before, ¬ IsLong part) (long : IsLong token) :
    parse answer count = .error ⟨token.length⟩ := by
  have other : ¬ PicksAll answer := by
    intro all
    obtain ⟨word, alone, noNumber⟩ := runs_of_picksAll all
    have member : token ∈ [word] := by rw [← alone, shape]; simp
    exact noNumber (List.mem_singleton.mp member ▸ long.1)
  rw [parse_of_not_picksAll other, shape, ofTokens_of_long short long]

theorem not_isLong_of_ofTokens (read : ofTokens count parts = .ok s) :
    ∀ token ∈ parts, ¬ IsLong token := by
  induction parts generalizing s with
  | nil => simp
  | cons token rest ih =>
    obtain ⟨index, others, here, later, -⟩ := ofTokens_cons read
    refine List.forall_mem_cons.mpr ⟨fun long => ?_, ih later⟩
    rw [index?_of_long long] at here
    cases here

/-- An answer that is read has no long numbers among its parts. -/
theorem not_isLong_of_parse (read : parse answer count = .ok s) :
    ∀ token ∈ runs separates answer.toList, ¬ IsLong token := by
  by_cases all : PicksAll answer
  · obtain ⟨word, alone, noNumber⟩ := runs_of_picksAll all
    rw [alone]
    exact List.forall_mem_singleton.mpr fun long => noNumber long.1
  · exact not_isLong_of_ofTokens ((parse_of_not_picksAll all).symm.trans read)

/-- The selection is what an answer of these parts says. -/
structure Reads (answer : String) (parts : List (List Char)) (count : Nat) (s : Selection) :
    Prop where
  all : PicksAll answer → s = ⟨List.range count, []⟩
  picks : ¬ PicksAll answer →
    ∀ i, i ∈ s.indices ↔ i < count ∧ ∃ token ∈ parts, Writes token (i + 1)
  rejects : ¬ PicksAll answer → s.invalid = (parts.filter (¬ IsListed count ·)).map String.ofList
  ascending : s.indices.Pairwise (· < ·)

/-- An answer without long numbers is read. -/
theorem exists_reads (count : Nat)
    (short : ∀ token ∈ runs separates answer.toList, ¬ IsLong token) :
    ∃ s, parse answer count = .ok s ∧ Reads answer (runs separates answer.toList) count s := by
  by_cases all : PicksAll answer
  · exact ⟨_, parse_of_picksAll all, fun _ => rfl, absurd all, absurd all, List.pairwise_lt_range⟩
  · obtain ⟨s, read, picks, rejects⟩ := exists_ofTokens count short
    have parsed := (parse_of_not_picksAll all).trans read
    refine ⟨s, parsed, fun all' => absurd all' all, fun _ i => ?_, fun _ => rejects,
      pairwise_indices parsed⟩
    rw [picks]
    constructor
    · rintro ⟨token, member, ⟨-, -, bound⟩, writes⟩
      exact ⟨by have := writes.2; omega, token, member, writes⟩
    · rintro ⟨inside, token, member, writes⟩
      exact ⟨token, member, isListed_iff.mpr ⟨i, inside, writes⟩, writes⟩

namespace Reads

variable (reads : Reads answer parts count s)
include reads

theorem inside {i : Nat} (member : i ∈ s.indices) : i < count := by
  by_cases all : PicksAll answer
  · rw [reads.all all] at member
    exact List.mem_range.mp member
  · exact ((reads.picks all i).mp member).1

/-- No part is lost. -/
theorem accounts (other : ¬ PicksAll answer) (member : token ∈ parts) :
    (∃ i ∈ s.indices, Writes token (i + 1)) ∨ String.ofList token ∈ s.invalid := by
  by_cases listed : IsListed count token
  · obtain ⟨i, inside, writes⟩ := isListed_iff.mp listed
    exact .inl ⟨i, (reads.picks other i).mpr ⟨inside, token, member, writes⟩, writes⟩
  · rw [reads.rejects other]
    exact .inr (List.mem_map_of_mem (List.mem_filter.mpr ⟨member, by simpa using listed⟩))

/-- Places that are written out as numbers are the places that are picked. -/
theorem readsBack {places : List Nat} (inside : ∀ i ∈ places, i < count)
    (shape : parts = places.map fun i => Nat.toDigits 10 (i + 1)) (other : ¬ PicksAll answer) :
    s.invalid = [] ∧ ∀ i, i ∈ s.indices ↔ i ∈ places := by
  refine ⟨?_, fun i => ?_⟩
  · rw [reads.rejects other, shape, List.map_eq_nil_iff, List.filter_eq_nil_iff]
    intro token member
    obtain ⟨i, inPlaces, rfl⟩ := List.mem_map.mp member
    simpa using isListed_iff.mpr ⟨i, inside i inPlaces, writes_toDigits (i + 1)⟩
  · rw [reads.picks other, shape]
    constructor
    · rintro ⟨-, token, member, writes⟩
      obtain ⟨j, inPlaces, rfl⟩ := List.mem_map.mp member
      have same := writes.2.symm.trans (writes_toDigits (j + 1)).2
      obtain rfl : i = j := by omega
      exact inPlaces
    · intro inPlaces
      exact ⟨inside i inPlaces, _, List.mem_map_of_mem inPlaces, writes_toDigits (i + 1)⟩

/-- What is picked depends on which parts an answer has and on nothing else. -/
theorem indices_congr {answer' : String} {s' : Selection} {parts' : List (List Char)}
    (reads' : Reads answer' parts' count s') (same : ∀ token, token ∈ parts' ↔ token ∈ parts)
    (word : PicksAll answer' ↔ PicksAll answer) : s'.indices = s.indices := by
  by_cases all : PicksAll answer
  · rw [reads.all all, reads'.all (word.mpr all)]
  · refine reads'.ascending.eq_of_mem_iff reads.ascending fun {i} => ?_
    rw [reads.picks all, reads'.picks (mt word.mp all)]
    simp only [same]

end Reads

theorem not_picksAll_of_toDigits {places : List Nat}
    (shape : runs separates answer.toList = places.map fun i => Nat.toDigits 10 (i + 1)) :
    ¬ PicksAll answer := by
  intro all
  obtain ⟨word, alone, noNumber⟩ := runs_of_picksAll all
  have member : word ∈ places.map fun i => Nat.toDigits 10 (i + 1) := by
    rw [← shape, alone]
    exact List.mem_singleton.mpr rfl
  obtain ⟨i, -, rfl⟩ := List.mem_map.mp member
  exact noNumber (writes_toDigits (i + 1)).1

/-- Answers are read as the language of selections says. The parts of an answer are its runs of
characters that do not separate. Unless one of them is a long number, the answer is read: all places
are picked, or those that its parts number, and the parts that number none are reported. Numbers that
are written out pick their places again, and answers of the same parts pick the same places. -/
theorem parse_exact (answer : String) (count : Nat) :
    ∃ parts, (∀ others, Runs separates answer.toList others ↔ others = parts) ∧
      ((∀ token ∈ parts, ¬ IsLong token) →
        ∃ s, parse answer count = .ok s ∧ Reads answer parts count s ∧
          (∀ i ∈ s.indices, i < count) ∧
          (¬ PicksAll answer → ∀ token ∈ parts,
            (∃ i ∈ s.indices, Writes token (i + 1)) ∨ String.ofList token ∈ s.invalid) ∧
          (∀ places : List Nat, (∀ i ∈ places, i < count) →
            parts = places.map (fun i => Nat.toDigits 10 (i + 1)) →
              s.invalid = [] ∧ ∀ i, i ∈ s.indices ↔ i ∈ places) ∧
          ∀ answer' parts', Runs separates answer'.toList parts' →
            (∀ token, token ∈ parts' ↔ token ∈ parts) → (PicksAll answer' ↔ PicksAll answer) →
              ∃ s', parse answer' count = .ok s' ∧ s'.indices = s.indices) := by
  refine ⟨runs separates answer.toList, fun _ => runs_iff, fun short => ?_⟩
  obtain ⟨s, read, reads⟩ := exists_reads count short
  refine ⟨s, read, reads, fun i => reads.inside, fun other token => reads.accounts other,
    fun places inside shape => reads.readsBack inside shape (not_picksAll_of_toDigits shape), ?_⟩
  intro answer' parts' parts'_runs same word
  obtain rfl := parts'_runs.eq_runs
  obtain ⟨s', read', reads'⟩ := exists_reads count fun token member =>
    short token ((same token).mp member)
  exact ⟨s', read', reads.indices_congr reads' same word⟩

/-- An answer is read if and only if no part of it is a long number; the first one that is is told. Of
an answer that is read, every number that is not one of a listed package is reported. -/
theorem parse_answers_iff (answer : String) (count : Nat) :
    ∃ parts, (∀ others, Runs separates answer.toList others ↔ others = parts) ∧
      ((∃ s, parse answer count = .ok s) ↔ ∀ token ∈ parts, ¬ IsLong token) ∧
      (∀ s, parse answer count = .ok s → ∀ token ∈ parts, ∀ n, Writes token n →
        ¬ (1 ≤ n ∧ n ≤ count) → String.ofList token ∈ s.invalid) ∧
      ∀ before token after, parts = before ++ token :: after →
        (∀ part ∈ before, ¬ IsLong part) → IsLong token →
          parse answer count = .error ⟨token.length⟩ := by
  refine ⟨runs separates answer.toList, fun _ => runs_iff,
    ⟨fun ⟨s, read⟩ => not_isLong_of_parse read, fun short => ?_⟩, ?_,
    fun before token after shape => parse_of_long shape⟩
  · obtain ⟨s, read, -⟩ := exists_reads count short
    exact ⟨s, read⟩
  · intro s read token member n writes outside
    obtain ⟨s', read', reads⟩ := exists_reads count (not_isLong_of_parse read)
    cases read.symm.trans read'
    have other : ¬ PicksAll answer := by
      intro all
      obtain ⟨word, alone, noNumber⟩ := runs_of_picksAll all
      rw [alone, List.mem_singleton] at member
      exact noNumber (member ▸ writes.1)
    rcases reads.accounts other member with ⟨i, picked, writes'⟩ | reported
    · have same := writes.2.symm.trans writes'.2
      have := reads.inside picked
      exact absurd ⟨by omega, by omega⟩ outside
    · exact reported

theorem parse_replicate {digits : Nat} (many : digitLimit < digits) :
    parse (String.ofList (List.replicate digits '9')) count = .error ⟨digits⟩ := by
  have nines : ∀ c ∈ List.replicate digits '9', separates c = false ∧ isDigit c = true := by
    intro c member
    rw [List.eq_of_mem_replicate member]
    decide
  have nonempty : List.replicate digits '9' ≠ [] := by
    rw [Ne, List.replicate_eq_nil_iff]
    omega
  have alone : runs separates (String.ofList (List.replicate digits '9')).toList =
      [] ++ List.replicate digits '9' :: [] := by
    rw [String.toList_ofList]
    exact runs_of_free nonempty fun c member => (nines c member).1
  have long : IsLong (List.replicate digits '9') :=
    ⟨List.all_eq_true.mpr fun c member => (nines c member).2, by rwa [List.length_replicate]⟩
  rw [parse_of_long alone (by simp) long, List.length_replicate]

/-- A number with 4301 digits is none of three packages, but the answer that it is is not read. -/
theorem not_read_of_longNumber :
    parse (String.ofList (List.replicate 4301 '9')) 3 = .error ⟨4301⟩ ∧
      ¬ ∀ answer count, ∃ s, parse answer count = .ok s := by
  have refused : parse (String.ofList (List.replicate 4301 '9')) 3 = .error ⟨4301⟩ :=
    parse_replicate (by decide)
  refine ⟨refused, fun reads => ?_⟩
  obtain ⟨s, read⟩ := reads (String.ofList (List.replicate 4301 '9')) 3
  rw [refused] at read
  cases read

end Selection

end DependencyAudit.Removal
