import DependencyAudit.CommandLine.Options
import Mathlib.Tactic.Common

namespace DependencyAudit.CommandLine.Options

theorem interactive_set (o : Options) (option : Switch) (value : String) :
    (o.set option value).interactive = o.interactive := by
  cases option <;> rfl

theorem interactive_flag {o : Options} {option : Switch} (on : (o.flag option).interactive) :
    o.interactive ∨ option = .interactive := by
  cases option with
  | interactive => exact .inr rfl
  | _ => exact .inl on

/-- No letter stands for the dialogue. -/
theorem ofShort?_ne_interactive (c : Char) : Switch.ofShort? c ≠ some .interactive := by
  unfold Switch.ofShort?
  split <;> simp

theorem interactive_bundle? {o after : Options} {waiting : Option Switch} {letters : List Char}
    (read : o.bundle? letters = some (after, waiting)) (on : after.interactive) :
    o.interactive := by
  induction letters generalizing o with
  | nil =>
    cases read
    exact on
  | cons c rest ih =>
    obtain ⟨option, named, read⟩ := Option.bind_eq_some_iff.mp read
    split at read
    · split at read
      · cases read
        exact on
      · cases read
        rwa [interactive_set] at on
    · rcases interactive_flag (ih read) with before | rfl
      · exact before
      · exact absurd named (ofShort?_ne_interactive c)

theorem ofLong?_eq_interactive {name : String} (named : Switch.ofLong? name = some .interactive) :
    name = "--interactive" := by
  unfold Switch.ofLong? at named
  split at named <;> simp_all

theorem interactive_argument? {o after : Options} {waiting : Option Switch} {text : List Char}
    (read : o.argument? text = some (after, waiting)) (on : after.interactive) :
    o.interactive ∨ text = "--interactive".toList := by
  unfold argument? at read
  dsimp only at read
  split at read
  next text _ _ _ option named alone =>
    split at read
    · cases read
      exact .inl on
    · cases read
      rcases interactive_flag on with before | rfl
      · exact .inl before
      -- The name is all of the argument, as nothing follows it.
      · have name := congrArg String.toList (ofLong?_eq_interactive named)
        have whole := List.takeWhile_append_dropWhile (p := (fun c => decide (c ≠ '='))) (l := text)
        rw [alone, List.append_nil] at whole
        rw [String.toList_ofList, whole] at name
        exact .inr name
  next =>
    split at read
    · cases read
      rw [interactive_set] at on
      exact .inl on
    · cases read
  next => cases read
  next => exact .inl (interactive_bundle? read on)

theorem interactive_readFrom? {o after : Options} {waiting : Option Switch}
    {arguments : List String} (read : o.readFrom? waiting arguments = some after)
    (on : after.interactive) : o.interactive ∨ "--interactive" ∈ arguments := by
  induction arguments generalizing o waiting with
  | nil =>
    unfold readFrom? at read
    split at read
    · cases read
    · cases read
      exact .inl on
  | cons argument rest ih =>
    unfold readFrom? at read
    split at read
    next option _ =>
      rcases ih read with before | later
      · rw [interactive_set] at before
        exact .inl before
      · exact .inr (List.mem_cons_of_mem _ later)
    next =>
      cases read
      exact .inl on
    next c letters written =>
      obtain ⟨⟨middle, waiting⟩, first, read⟩ := Option.bind_eq_some_iff.mp read
      rcases ih read with before | later
      · rcases interactive_argument? first before with before | whole
        · exact .inl before
        · rw [← written, String.toList_inj] at whole
          exact .inr (whole ▸ List.mem_cons_self)
      · exact .inr (List.mem_cons_of_mem _ later)
    next =>
      rcases ih read with before | later
      · exact .inl before
      · exact .inr (List.mem_cons_of_mem _ later)

/-- A dialogue is only held where the command line asks for it in full. -/
theorem mem_of_interactive {arguments : List String} {o : Options}
    (read : read? arguments = some o) (on : o.interactive) : "--interactive" ∈ arguments := by
  rcases interactive_readFrom? read on with before | member
  · cases before
  · exact member

/-- What options say that come first together with options that come after them: lists grow, and
otherwise the later one counts. -/
def append (front o : Options) : Options where
  json := front.json || o.json
  interactive := front.interactive || o.interactive
  verbose := front.verbose || o.verbose
  requests := front.requests ++ o.requests
  outputFirst := front.outputFirst || front.requests = [] && o.outputFirst
  ignore := front.ignore ++ o.ignore
  exclude := front.exclude ++ o.exclude
  directories := o.directories.or front.directories
  output := o.output.or front.output
  manager := o.manager.or front.manager
  positional := front.positional ++ o.positional

variable {front o : Options}

theorem append_empty : front.append empty = front := by
  simp [append, empty]

theorem set_append (option : Switch) (value : String) :
    (front.append o).set option value = front.append (o.set option value) := by
  cases option <;> simp [append, set, Bool.and_or_distrib_left, Bool.or_assoc]

theorem flag_append (option : Switch) :
    (front.append o).flag option = front.append (o.flag option) := by
  cases option <;> simp [append, flag]

/-- What has been read of an argument, put after options that come first. -/
def after (front : Options) (read : Options × Option Switch) : Options × Option Switch :=
  (front.append read.1, read.2)

theorem bundle?_append (letters : List Char) :
    (front.append o).bundle? letters = (o.bundle? letters).map front.after := by
  induction letters generalizing o with
  | nil => rfl
  | cons c rest ih =>
    rw [bundle?, bundle?]
    cases Switch.ofShort? c with
    | none => rfl
    | some option =>
      simp only [Option.bind_eq_bind, Option.bind_some]
      split
      · split
        · rfl
        · rw [set_append]
          rfl
      · rw [flag_append, ih]

theorem argument?_append (text : List Char) :
    (front.append o).argument? text = (o.argument? text).map front.after := by
  unfold argument?
  dsimp only
  split
  · split
    · rfl
    · rw [flag_append]
      rfl
  · split
    · rw [set_append]
      rfl
    · rfl
  · rfl
  · exact bundle?_append _

/-- Options that come first add to what the arguments say, also where the arguments are not
understood. -/
theorem readFrom?_append (waiting : Option Switch) (arguments : List String) :
    (front.append o).readFrom? waiting arguments =
      (o.readFrom? waiting arguments).map front.append := by
  induction arguments generalizing waiting o with
  | nil =>
    unfold readFrom?
    split <;> rfl
  | cons argument rest ih =>
    unfold readFrom?
    split
    · rw [set_append, ih]
    · simp [append]
    · rw [argument?_append]
      cases o.argument? _ with
      | none => rfl
      | some read => exact ih read.2
    · have more : { front.append o with positional := (front.append o).positional ++ [argument] } =
          front.append { o with positional := o.positional ++ [argument] } := by
        simp [append]
      rw [more, ih]

/-- An argument that is the name of an option takes the next one as its value. -/
theorem readFrom?_of_named {name : String} {c : Char} {letters : List Char} {option : Switch}
    (spelled : name.toList = '-' :: c :: letters) (proper : name.toList ≠ ['-', '-'])
    (named : o.argument? name.toList = some (o, some option)) (value : String) (rest : List String) :
    o.readFrom? none (name :: value :: rest) = (o.set option value).readFrom? none rest := by
  conv_lhs => unfold readFrom?
  rw [spelled] at proper named ⊢
  split
  next waits => cases waits
  next special => exact absurd special proper
  next written =>
    cases written
    rw [named]
    rfl
  next _ _ other => exact (other c letters rfl).elim

end DependencyAudit.CommandLine.Options
