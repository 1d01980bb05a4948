import DependencyAudit.Proofs.FileSystem.Memory
import DependencyAudit.Proofs.Json.Exact
import DependencyAudit.Proofs.Manifest

namespace DependencyAudit

namespace Json.Members

theorem get?_cons (name key : Name) (value : Value) (rest : Members) :
    get? name ((key, value) :: rest) = if name = key then some value else rest.get? name := by
  unfold get?
  rw [List.lookup_cons]
  by_cases same : name = key
  · simp [same]
  · have apart : (name == key) = false := beq_eq_false_iff_ne.mpr same
    simp [apart, same]

theorem get?_put (name key : Name) (value : Value) (members : Members) :
    (members.put key value).get? name = if name = key then some value else members.get? name := by
  induction members with
  | nil => exact get?_cons name key value []
  | cons first rest ih =>
    obtain ⟨other, old⟩ := first
    by_cases there : other = key
    · rw [put, if_pos there, get?_cons, get?_cons, there]
      split
      · rfl
      · rfl
    · rw [put, if_neg there, get?_cons, get?_cons, ih]
      by_cases same : name = key
      · rw [if_pos same, if_pos same, if_neg (same ▸ Ne.symm there)]
      · rw [if_neg same, if_neg same]

/-- The last of repeated keys counts. -/
theorem get?_ofWritten (pairs : List (Name × Value)) (key : Name) :
    (ofWritten pairs).get? key = get? key pairs.reverse := by
  induction pairs using List.reverseRecOn with
  | nil => rfl
  | append_singleton others last ih =>
    obtain ⟨name, value⟩ := last
    have step : ofWritten (others ++ [(name, value)]) = (ofWritten others).put name value := by
      simp [ofWritten]
    rw [step, get?_put, ih, List.reverse_append, List.reverse_singleton, List.singleton_append,
      get?_cons]

end Json.Members

/-- A text that is an object is written with some members, of which the last of each key count. -/
theorem Json.exists_ofWritten_of_isText {admits : List Char → Prop} {s : List Char}
    {members : Json.Members} (written : IsText admits s (.object members)) :
    ∃ pairs, members = Members.ofWritten pairs := by
  obtain ⟨start, left, -, written, -⟩ := written
  generalize shape : Part.value (.object members) = part at written
  cases written with
  | noMembers _ =>
    cases shape
    exact ⟨[], rfl⟩
  | object _ _ =>
    cases shape
    exact ⟨_, rfl⟩
  | word member =>
    cases shape
    simp [words] at member
  | _ => cases shape

/-- Whether a text is nested no deeper than it may be. -/
def Json.Shallow [Platform] (text : String) : Prop :=
  nesting text.toList ≤ Platform.nestingDepth

/-- A text that is not read is malformed, or it holds a long number, or it is nested too deep. -/
theorem Failure.of_unread [Platform] {malformed : Json.Fault → Configuration} {text : String}
    {failure : Failure}
    (unread : (Json.parse Platform.nestingDepth text).mapError (Failure.ofJson malformed) =
      .error failure) :
    (∃ c, failure = .configuration c) ∨
      (∃ number, failure = .tooLong number ∧ Json.LongRun text.toList number) ∨
      ∃ place, failure = .tooDeep place ∧ ¬ Json.Shallow text := by
  obtain ⟨fault, read, rfl⟩ := Except.mapError_eq_error_iff.mp unread
  rcases Json.due_of_parse read with ⟨_, _, _, _, rfl⟩ | ⟨number, rfl, long⟩ | ⟨place, rfl, deep⟩
  · exact .inl ⟨_, rfl⟩
  · exact .inr (.inl ⟨number, rfl, long⟩)
  · exact .inr (.inr ⟨place, rfl, Nat.not_le.mpr deep⟩)

namespace Manifest

open FileSystem

/-- The group that an object with these members has under a key: the object that stands there, or
nothing where there is none, or null. -/
def IsGroup (members : Json.Members) (key : String) (group : Json.Members) : Prop :=
  members.get? (.ofString key) = some (.object group) ∨
    (members.get? (.ofString key) = none ∨ members.get? (.ofString key) = some .null) ∧ group = []

/-- The text writes an object with these two groups. Of members with one key the last counts. -/
def Describes (admits : List Char → Prop) (text : String) (path : Path) (manifest : Manifest) :
    Prop :=
  ∃ pairs, Json.IsText admits text.toList (.object (Json.Members.ofWritten pairs)) ∧
    manifest.path = path ∧ IsGroup pairs.reverse "dependencies" manifest.dependencies ∧
    IsGroup pairs.reverse "devDependencies" manifest.devDependencies

variable {path : Path} {members found : Json.Members} {key text : String} {manifest : Manifest}
  {failure : Failure}

theorem group_eq_ok_iff : group path members key = .ok found ↔ IsGroup members key found := by
  unfold group IsGroup
  split
  next absent => simp [absent, eq_comm]
  next null => simp [null, eq_comm]
  next object => simp [object]
  next value notNull notObject present =>
    have noGroup : value ≠ .object found := notObject found
    have noNull : value ≠ .null := notNull
    simp [present, noGroup, noNull]

theorem exists_configuration_of_group (fails : group path members key = .error failure) :
    ∃ c, failure = .configuration c := by
  unfold group at fails
  split at fails
  all_goals cases fails
  exact ⟨_, rfl⟩

theorem isGroup_ofWritten {pairs : List (Name × Json.Value)} :
    IsGroup (Json.Members.ofWritten pairs) key found ↔ IsGroup pairs.reverse key found := by
  rw [IsGroup, IsGroup, Json.Members.get?_ofWritten]

section

variable [Platform]

theorem ofText_eq_ok_iff_parse : ofText path text = .ok manifest ↔
    ∃ pairs, Json.parse Platform.nestingDepth text = .ok (.object (Json.Members.ofWritten pairs)) ∧
      manifest.path = path ∧ IsGroup pairs.reverse "dependencies" manifest.dependencies ∧
      IsGroup pairs.reverse "devDependencies" manifest.devDependencies := by
  constructor
  · intro made
    obtain ⟨value, parsed, made⟩ := Except.bind_eq_ok_iff.mp made
    rw [Except.mapError_eq_ok_iff] at parsed
    split at made
    next members =>
      obtain ⟨dependencies, first, made⟩ := Except.bind_eq_ok_iff.mp made
      obtain ⟨devDependencies, second, made⟩ := Except.bind_eq_ok_iff.mp made
      cases made
      obtain ⟨pairs, rfl⟩ := Json.exists_ofWritten_of_isText (Json.isText_of_parse parsed)
      exact ⟨pairs, parsed, rfl, isGroup_ofWritten.mp (group_eq_ok_iff.mp first),
        isGroup_ofWritten.mp (group_eq_ok_iff.mp second)⟩
    next => cases made
  · rintro ⟨pairs, parsed, same, first, second⟩
    obtain ⟨_, dependencies, devDependencies⟩ := manifest
    subst same
    rw [ofText, parsed]
    simp only [Except.mapError, bind, Except.bind,
      group_eq_ok_iff.mpr (isGroup_ofWritten.mpr first),
      group_eq_ok_iff.mpr (isGroup_ofWritten.mpr second)]
    rfl

theorem describes_of_ofText (made : ofText path text = .ok manifest) :
    Describes Json.Short text path manifest := by
  obtain ⟨pairs, parsed, rest⟩ := ofText_eq_ok_iff_parse.mp made
  exact ⟨pairs, Json.isText_of_parse parsed, rest⟩

/-- A manifest is made of a text exactly if the text describes it with short numbers, as far as it is
not nested too deep. -/
theorem ofText_eq_ok_iff (shallow : Json.Shallow text) :
    ofText path text = .ok manifest ↔ Describes Json.Short text path manifest := by
  refine ⟨describes_of_ofText, fun ⟨pairs, written, rest⟩ => ?_⟩
  exact ofText_eq_ok_iff_parse.mpr ⟨pairs, (Json.parse_eq_ok_iff shallow).mpr written, rest⟩

/-- No text makes another failure than one of the configuration, but for a long number in it, and for
brackets that are nested too deep. -/
theorem failure_of_ofText (fails : ofText path text = .error failure) :
    (∃ c, failure = .configuration c) ∨
      (∃ number, failure = .tooLong number ∧ Json.LongRun text.toList number) ∨
      ∃ place, failure = .tooDeep place ∧ ¬ Json.Shallow text := by
  rcases Except.bind_eq_error_iff.mp fails with unread | ⟨value, -, fails⟩
  · exact Failure.of_unread unread
  · refine .inl ?_
    split at fails
    next members =>
      rcases Except.bind_eq_error_iff.mp fails with fails | ⟨_, -, fails⟩
      · exact exists_configuration_of_group fails
      rcases Except.bind_eq_error_iff.mp fails with fails | ⟨_, -, fails⟩
      · exact exists_configuration_of_group fails
      cases fails
    next =>
      cases fails
      exact ⟨_, rfl⟩

/-- A text that describes a manifest makes it, or there is a long number among those admitted. -/
theorem ofText_of_describes {admits : List Char → Prop} (shallow : Json.Shallow text)
    (describes : Describes admits text path manifest) :
    ofText path text = .ok manifest ∨
      ∃ number digits, ofText path text = .error (.tooLong number) ∧ admits digits ∧
        ¬ Json.Short digits := by
  obtain ⟨pairs, written, same, groups⟩ := describes
  obtain read | ⟨number, digits, read, long⟩ := Json.parse_of_isText written shallow
  · exact .inl (ofText_eq_ok_iff_parse.mpr ⟨pairs, read, same, groups⟩)
  · refine .inr ⟨number, digits, ?_, long⟩
    rw [ofText, read]
    rfl

section

variable {view : View} {project : Path}

theorem load_eq_ofText (present : view.exists? (pathIn project) = .ok true)
    (read : view.read (pathIn project) = .ok text) :
    load view project = ofText (pathIn project) text := by
  simp only [load, present, read, Except.mapError, bind, Except.bind, if_true]

theorem load_eq_ok_iff_ofText : load view project = .ok manifest ↔
    view.exists? (pathIn project) = .ok true ∧
      ∃ text, view.read (pathIn project) = .ok text ∧
        ofText (pathIn project) text = .ok manifest := by
  constructor
  · intro loaded
    obtain ⟨there, present, loaded⟩ := Except.bind_eq_ok_iff.mp loaded
    rw [Except.mapError_eq_ok_iff] at present
    split at loaded
    next here =>
      obtain ⟨text, read, made⟩ := Except.bind_eq_ok_iff.mp loaded
      rw [Except.mapError_eq_ok_iff] at read
      exact ⟨here ▸ present, text, read, made⟩
    next => cases loaded
  · intro holds
    obtain ⟨present, text, read, made⟩ := holds
    rw [load_eq_ofText present read, made]

/-- How loading fails: by a fault of the configuration, by a long number in the text, because the
text is nested too deep, or because it is not known whether there is a manifest. -/
theorem failure_of_load (fails : load view project = .error failure) :
    (∃ c, failure = .configuration c) ∨
      (∃ text number, view.read (pathIn project) = .ok text ∧ failure = .tooLong number ∧
        Json.LongRun text.toList number) ∨
      (∃ text place, view.read (pathIn project) = .ok text ∧ failure = .tooDeep place ∧
        ¬ Json.Shallow text) ∨
      ∃ refusal, view.exists? (pathIn project) = .error refusal ∧ failure = .access refusal := by
  rcases Except.bind_eq_error_iff.mp fails with fails | ⟨there, -, fails⟩
  · obtain ⟨refusal, refused, rfl⟩ := Except.mapError_eq_error_iff.mp fails
    exact .inr (.inr (.inr ⟨refusal, refused, rfl⟩))
  split at fails
  next =>
    rcases Except.bind_eq_error_iff.mp fails with fails | ⟨text, read, fails⟩
    · obtain ⟨refusal, -, rfl⟩ := Except.mapError_eq_error_iff.mp fails
      exact .inl ⟨_, rfl⟩
    · rw [Except.mapError_eq_ok_iff] at read
      rcases failure_of_ofText fails with configuration | ⟨number, long⟩ | ⟨place, deep⟩
      · exact .inl configuration
      · exact .inr (.inl ⟨text, number, read, long⟩)
      · exact .inr (.inr (.inl ⟨text, place, read, deep⟩))
  next =>
    cases fails
    exact .inl ⟨_, rfl⟩

end

/-- How the manifest of a project is loaded from a tree in memory. -/
structure LoadsExactly (m : Memory) (project : Path) : Prop where
  /-- There is a manifest exactly where one exists, can be read and is an object with two groups, as
  far as its whole numbers are short. -/
  loads_iff : (∀ text, m.read (pathIn project) = .ok text → Json.Shallow text) →
    ∀ manifest, load m.view project = .ok manifest ↔
      m.view.exists? (pathIn project) = .ok true ∧
        ∃ text, m.read (pathIn project) = .ok text ∧
          Describes Json.Short text (pathIn project) manifest
  /-- Every failure is one of the configuration, but for a long number in the text and for brackets
  that are nested too deep. -/
  failure : ∀ failure, load m.view project = .error failure → (∃ c, failure = .configuration c) ∨
    (∃ text number, m.read (pathIn project) = .ok text ∧ failure = .tooLong number ∧
      Json.LongRun text.toList number) ∨
    ∃ text place, m.read (pathIn project) = .ok text ∧ failure = .tooDeep place ∧ ¬ Json.Shallow text
  /-- Where the numbers of a manifest are of any length, one that is too long is all that can stop
  it from being loaded. -/
  described : ∀ text manifest, m.read (pathIn project) = .ok text → Json.Shallow text →
    Describes Json.AnyNumber text (pathIn project) manifest → load m.view project = .ok manifest ∨
      ∃ number, load m.view project = .error (.tooLong number) ∧ Json.LongRun text.toList number
  /-- Where no long run of digits stands in the text there is no such failure. -/
  withoutLongRun : (∀ text, m.read (pathIn project) = .ok text →
      Json.Shallow text ∧ ∀ number, ¬ Json.LongRun text.toList number) →
    (∀ manifest, load m.view project = .ok manifest ↔
      m.view.exists? (pathIn project) = .ok true ∧
        ∃ text, m.read (pathIn project) = .ok text ∧
          Describes Json.AnyNumber text (pathIn project) manifest) ∧
    ∀ failure, load m.view project = .error failure → ∃ c, failure = .configuration c

omit [Platform] in
theorem Describes.anyNumber {admits : List Char → Prop}
    (describes : Describes admits text path manifest) :
    Describes Json.AnyNumber text path manifest := by
  obtain ⟨pairs, written, rest⟩ := describes
  exact ⟨pairs, written.mono fun _ _ => trivial, rest⟩

section

variable {m : Memory} {project : Path}

theorem failure_of_load_memory (fails : load m.view project = .error failure) :
    (∃ c, failure = .configuration c) ∨
      (∃ text number, m.read (pathIn project) = .ok text ∧ failure = .tooLong number ∧
        Json.LongRun text.toList number) ∨
      ∃ text place, m.read (pathIn project) = .ok text ∧ failure = .tooDeep place ∧
        ¬ Json.Shallow text := by
  rcases failure_of_load fails with configuration | long | deep | ⟨refusal, refused, -⟩
  · exact .inl configuration
  · exact .inr (.inl long)
  · exact .inr (.inr deep)
  · cases refused

theorem load_of_describes (read : m.read (pathIn project) = .ok text) (shallow : Json.Shallow text)
    (describes : Describes Json.AnyNumber text (pathIn project) manifest) :
    load m.view project = .ok manifest ∨
      ∃ number, load m.view project = .error (.tooLong number) ∧
        Json.LongRun text.toList number := by
  rw [load_eq_ofText (m.exists?_of_read read) read]
  obtain made | ⟨number, _, fails, -⟩ := ofText_of_describes shallow describes
  · exact .inl made
  · refine .inr ⟨number, fails, ?_⟩
    rcases failure_of_ofText fails with ⟨_, configuration⟩ | ⟨_, same, long⟩ | ⟨_, deep, -⟩
    · cases configuration
    · cases same
      exact long
    · cases deep

/-- A manifest is loaded exactly from a valid text with short whole numbers, and a long one is the
only reason for a failure that is not reported, as far as the text is not nested too deep. -/
theorem load_exact (m : Memory) (project : Path) : LoadsExactly m project := by
  refine ⟨fun shallow manifest => ?_, fun _ => failure_of_load_memory,
    fun text manifest => load_of_describes, fun fine => ⟨fun manifest => ?_, ?_⟩⟩
  · rw [load_eq_ok_iff_ofText]
    refine and_congr_right fun _ => exists_congr fun text => and_congr_right fun read => ?_
    exact ofText_eq_ok_iff (shallow text read)
  · constructor
    · intro loaded
      obtain ⟨present, text, read, made⟩ := load_eq_ok_iff_ofText.mp loaded
      exact ⟨present, text, read, (describes_of_ofText made).anyNumber⟩
    · intro holds
      obtain ⟨-, text, read, describes⟩ := holds
      obtain ⟨shallow, noLongRun⟩ := fine text read
      obtain loaded | ⟨number, -, long⟩ := load_of_describes read shallow describes
      · exact loaded
      · exact absurd long (noLongRun number)
  · intro other fails
    rcases failure_of_load_memory fails with configuration | ⟨text, number, read, -, long⟩ |
      ⟨text, _, read, -, deep⟩
    · exact configuration
    · exact absurd long ((fine text read).2 number)
    · exact absurd (fine text read).1 deep

end

end

/-- An object with one member, a whole number, which is no dependency group. -/
def numbered (digits : List Char) : String :=
  String.ofList ('\x7b' :: '"' :: 'a' :: '"' :: ':' :: ' ' :: (digits ++ ['\x7d']))

theorem describes_numbered {digits : List Char} (whole : Json.WholeDigits digits) (path : Path) :
    Describes Json.AnyNumber (numbered digits) path ⟨path, [], []⟩ := by
  have number : Json.Spells Json.AnyNumber (digits ++ ['\x7d'])
      (.value (.number (.whole (Json.numberOf digits)))) ['\x7d'] :=
    .number (.positive (.intro whole .none .none fun _ _ => trivial))
  have key : Json.Points ('a' :: '"' :: ':' :: ' ' :: (digits ++ ['\x7d'])) [.char 'a']
      (':' :: ' ' :: (digits ++ ['\x7d'])) :=
    .plain (by decide) (by decide) (by decide) .done
  have space : Json.Spaces (' ' :: (digits ++ ['\x7d'])) (digits ++ ['\x7d']) :=
    ⟨[' '], rfl, List.forall_mem_singleton.mpr rfl⟩
  have member := Json.Spells.lastMember key (Json.Spaces.refl _) space number (Json.Spaces.refl _)
  refine ⟨[("a", .number (.whole (Json.numberOf digits)))], ?_, rfl, .inr ⟨.inl rfl, rfl⟩,
    .inr ⟨.inl rfl, rfl⟩⟩
  rw [numbered, String.toList_ofList]
  exact ⟨_, [], Json.Spaces.refl _, .object (Json.Spaces.refl _) member, Json.Spaces.refl _⟩

/-- Such an object holds no other one. -/
theorem nesting_numbered {digits : List Char} (all : ∀ c ∈ digits, c.isDigit) :
    Json.nesting (numbered digits).toList = 1 := by
  have inside : Json.Runs (' ' :: (digits ++ ['\x7d'])) ['\x7d'] :=
    .cons (by decide) ⟨digits, rfl, fun c member => Json.neutral_of_isDigit (all c member)⟩
  have counted := inside.deepest_eq 1
  rw [numbered, String.toList_ofList, Json.nesting]
  simpa [Json.deepest] using counted

theorem parse_numbered {others : List Char} (whole : Json.WholeDigits ('1' :: others))
    (long : ¬ Json.Short ('1' :: others)) (limit : Nat) :
    Json.parse (limit + 1) (numbered ('1' :: others)) =
      .error (.tooLong ⟨('1' :: others).length⟩) := by
  have behind : Json.Behind ['\x7d'] := by
    intro c next
    cases next
    exact .inr (by decide)
  have stops := Json.readValue_of_long whole long behind limit
  have read : Json.readText (limit + 1) (numbered ('1' :: others)).toList =
      .error (.tooLong ⟨('1' :: others).length⟩) := by
    rw [numbered, String.toList_ofList]
    change ((Json.readValue limit ('1' :: others ++ ['\x7d']) >>= _) >>= _) >>= _ = _
    rw [stops]
    rfl
  rw [Json.parse, read]
  rfl

/-- A project whose manifest holds a one and as many zeros as digits are converted. -/
def longManifest : Memory :=
  ⟨[(pathIn ⟨.root, ["project"]⟩, .file (numbered ('1' :: List.replicate 4300 '0')))], []⟩

section

attribute [local instance] Platform.standard

/-- A valid manifest with a number of 4301 digits in a member that nobody asks for is not loaded,
and the failure is none of the configuration. -/
theorem not_configuration_of_longNumber :
    (∃ text manifest, longManifest.read (pathIn ⟨.root, ["project"]⟩) = .ok text ∧ Json.Shallow text ∧
      Describes Json.AnyNumber text (pathIn ⟨.root, ["project"]⟩) manifest) ∧
    load longManifest.view ⟨.root, ["project"]⟩ = .error (.tooLong ⟨4301⟩) := by
  have length : ('1' :: List.replicate 4300 '0').length = 4301 := by
    rw [List.length_cons, List.length_replicate]
  have zeros : ∀ c ∈ List.replicate 4300 '0', c.isDigit := by
    intro c member
    rw [List.eq_of_mem_replicate member]
    rfl
  have whole : Json.WholeDigits ('1' :: List.replicate 4300 '0') :=
    ⟨⟨List.cons_ne_nil _ _, List.forall_mem_cons.mpr ⟨rfl, zeros⟩⟩,
      fun zero => absurd (Option.some.inj zero) (by decide)⟩
  have long : ¬ Json.Short ('1' :: List.replicate 4300 '0') := by
    rw [Json.Short, length]
    decide
  have read : longManifest.read (pathIn ⟨.root, ["project"]⟩) =
      .ok (numbered ('1' :: List.replicate 4300 '0')) := by
    simp only [longManifest, Memory.read, Memory.node?, List.lookup_nil, List.lookup_cons,
      beq_self_eq_true]
  have shallow : Json.Shallow (numbered ('1' :: List.replicate 4300 '0')) := by
    rw [Json.Shallow, nesting_numbered whole.1.2]
    decide
  have unread : Json.parse Platform.nestingDepth (numbered ('1' :: List.replicate 4300 '0')) =
      .error (.tooLong ⟨4301⟩) := by
    rw [← length]
    exact parse_numbered whole long 949
  refine ⟨⟨_, _, read, shallow, describes_numbered whole _⟩, ?_⟩
  rw [load_eq_ofText (longManifest.exists?_of_read read) read, ofText, unread]
  rfl

end

end Manifest

end DependencyAudit
