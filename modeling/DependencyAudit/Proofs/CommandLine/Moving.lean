import DependencyAudit.Proofs.Analysis.Alike
import DependencyAudit.Proofs.CommandLine.Configuration
import DependencyAudit.Proofs.Settings.Directories

namespace DependencyAudit.CommandLine

open Conversation FileSystem Removal

/-- The settings for which there are options. -/
def movable : List String := ["ignore", "exclude", "dirs", "packageManager"]

/-- What is moved from the settings to the options. -/
structure Move where
  /-- Ignored packages, in the order in which the options name them. -/
  ignore : List String
  /-- The last of the patterns. -/
  exclude : List String
  /-- The directories, if they are moved. -/
  directories : Option (List String)
  /-- The package manager, if it is moved. -/
  manager : Option Manager

namespace Move

/-- The directories as the value of an option. -/
def list? (m : Move) : Option String := m.directories.map (String.intercalate ",")

/-- The package manager as the value of an option. -/
def name? (m : Move) : Option String := m.manager.map Manager.name

/-- What the options say that the move adds. -/
def options (m : Move) : Options :=
  { Options.empty with
    ignore := m.ignore, exclude := m.exclude, directories := m.list?, manager := m.name? }

/-- An option with each of its values. -/
def named (option : String) (values : List String) : List String :=
  values.flatMap fun value => [option, value]

/-- The options that the move adds, as arguments. -/
def arguments (m : Move) : List String :=
  named "--ignore" m.ignore ++ (named "--exclude" m.exclude ++
    (named "--dirs" m.list?.toList ++ named "--package-manager" m.name?.toList))

/-- What the move leaves of the settings. A setting of which nothing is moved is as it was, be it
valid or not. -/
structure Leaves [Platform] (m : Move) (before after : Settings) : Prop where
  ignore : m.ignore = [] ∧ after.ignore = before.ignore ∨
    ∃ names left, before.ignore = .ok names ∧ after.ignore = .ok left ∧
      ∀ name, name ∈ names ↔ name ∈ left ∨ name ∈ m.ignore.map Name.ofString
  exclude : m.exclude = [] ∧ after.exclusions = before.exclusions ∨
    ∃ left, before.exclusions = .ok (left ++ m.exclude) ∧ after.exclusions = .ok left
  /-- The directories can be written as the value of an option. -/
  directories : m.directories = none ∧ after.directories = before.directories ∨
    ∃ names, m.directories = some names ∧ names ≠ [] ∧ before.directories = .ok names ∧
      after.directories = .ok [] ∧ ∀ name ∈ names, name ≠ "" ∧ ',' ∉ name.toList ∧
        Text.trim name.toList = name.toList
  manager : m.manager = none ∧ after.manager? = before.manager? ∨
    ∃ manager, m.manager = some manager ∧ before.manager? = .ok (some manager) ∧
      after.manager? = .ok none
  others : ∀ key ∉ movable.map Name.ofString, after.members.get? key = before.members.get? key

/-- There is nothing yet in the options that stands against what the move adds. -/
structure Room (m : Move) (o : Options) : Prop where
  directories : m.directories ≠ none → o.directories = none
  manager : m.manager ≠ none → o.manager = none

/-- What the options say after the move. The ignored packages can come in any order, and each of
them more than once; the patterns come before those that are there. -/
structure Adds (m : Move) (before after : Options) : Prop where
  ignore : ∀ name, name ∈ after.ignore ↔ name ∈ m.ignore ∨ name ∈ before.ignore
  exclude : after.exclude = m.exclude ++ before.exclude
  room : m.Room before
  directories : after.directories = before.directories.or m.list?
  manager : after.manager = before.manager.or m.name?
  others : after = { before with
    ignore := after.ignore, exclude := after.exclude, directories := after.directories,
    manager := after.manager }

variable {m : Move} {o o' : Options} {settings settings' : Settings} {project : Path}

theorem adds_append (room : m.Room o) : m.Adds o (m.options.append o) where
  ignore name := List.mem_append
  exclude := rfl
  room := room
  directories := rfl
  manager := rfl
  others := by simp [Options.append, options, Options.empty]

theorem readFrom?_named {option : Switch} {name : String} {c : Char} {letters : List Char}
    (spelled : name.toList = '-' :: c :: letters) (proper : name.toList ≠ ['-', '-'])
    (reads : ∀ o : Options, o.argument? name.toList = some (o, some option)) (values : List String)
    (rest : List String) :
    o.readFrom? none (named name values ++ rest) =
      (values.foldl (·.set option) o).readFrom? none rest := by
  induction values generalizing o with
  | nil => rfl
  | cons value more ih =>
    refine (Options.readFrom?_of_named spelled proper (reads o) value _).trans ?_
    exact ih

theorem foldl_set_ignore (values : List String) :
    values.foldl (·.set .ignore) o = { o with ignore := o.ignore ++ values } := by
  induction values generalizing o with
  | nil => simp
  | cons value more ih =>
    refine ih.trans ?_
    simp [Options.set]

theorem foldl_set_exclude (values : List String) :
    values.foldl (·.set .exclude) o = { o with exclude := o.exclude ++ values } := by
  induction values generalizing o with
  | nil => simp
  | cons value more ih =>
    refine ih.trans ?_
    simp [Options.set]

/-- With the options of the move in front, arguments say what they said, and what is moved. -/
theorem read?_arguments (m : Move) (arguments : List String) :
    Options.read? (m.arguments ++ arguments) =
      (Options.read? arguments).map m.options.append := by
  have front : Options.read? (m.arguments ++ arguments) =
      m.options.readFrom? none arguments := by
    simp only [Options.read?, Move.arguments, List.append_assoc]
    rw [readFrom?_named rfl (by decide) (fun _ => rfl), foldl_set_ignore,
      readFrom?_named rfl (by decide) (fun _ => rfl), foldl_set_exclude,
      readFrom?_named rfl (by decide) (fun _ => rfl),
      readFrom?_named rfl (by decide) (fun _ => rfl)]
    unfold options
    cases m.list? with
    | none => cases m.name? <;> rfl
    | some list => cases m.name? <;> rfl
  calc Options.read? (m.arguments ++ arguments)
    _ = m.options.readFrom? none arguments := front
    _ = (m.options.append Options.empty).readFrom? none arguments := by rw [Options.append_empty]
    _ = (Options.read? arguments).map m.options.append := Options.readFrom?_append none arguments

theorem detect_eq_of_alike {view other : View} (alike : view.Alike other) :
    Manager.detect view project = Manager.detect other project := by
  have first : ∀ managers, Manager.firstWithLock view project managers =
      Manager.firstWithLock other project managers := by
    intro managers
    induction managers with
    | nil => rfl
    | cons manager rest ih =>
      unfold Manager.firstWithLock
      rw [ih, alike.exists?]
  unfold Manager.detect
  rw [first]

/-- Saving goes alike on disks with one outline. -/
theorem save_bind_eq {disk disk' : Disk} {result : Result} {β : Type} {f f' : Disk → Conversation β}
    (same : disk.outline = disk'.outline) (output : o'.output = o.output)
    (next : ∀ written written', written.outline = written'.outline → f' written' = f written) :
    save disk' o' result >>= f' = save disk o result >>= f := by
  unfold save
  rw [output]
  cases o.output with
  | none =>
    dsimp only
    rw [pure_bind, pure_bind]
    exact next disk disk' same
  | some file =>
    dsimp only
    rw [Report.ofList_strokes]
    rcases Disk.write_eq_of_outline_eq same (.ofString file) (Report.document result) with
      ⟨refusal, refused, refused'⟩ | ⟨written, written', wrote, wrote', outlines⟩
    · rw [refused, refused', ofExcept_error_bind]
      rfl
    · rw [wrote, wrote', ofExcept_ok_bind, ofExcept_ok_bind, bind_assoc, bind_assoc]
      refine congrArg (note _ >>= ·) (funext fun _ => ?_)
      rw [pure_bind, pure_bind]
      exact next written written' outlines

theorem present_eq [Platform] {result : Result} {statistics : Statistics} (adds : m.Adds o o')
    (brief : o.verbose = false) : present o' result statistics = present o result statistics := by
  have json : o'.json = o.json := by rw [adds.others]
  have output : o'.output = o.output := by rw [adds.others]
  have verbose : o'.verbose = o.verbose := by rw [adds.others]
  unfold present
  rw [json, output, verbose, brief]

section

variable [Platform] (leaves : m.Leaves settings settings') (adds : m.Adds o o')
include leaves adds

/-- The ignored packages are the same, or neither settings have valid ones. -/
theorem ignore_cases :
    (∃ c, settings.ignore = .error c ∧ settings'.ignore = .error c) ∨
      ∃ names left, settings.ignore = .ok names ∧ settings'.ignore = .ok left ∧
        ∀ name, name ∈ left ++ o'.ignore.map Name.ofString ↔
          name ∈ names ++ o.ignore.map Name.ofString := by
  rcases leaves.ignore with ⟨empty, same⟩ | ⟨names, left, given, given', among⟩
  · cases given : settings.ignore with
    | error c => exact .inl ⟨c, rfl, same.trans given⟩
    | ok names =>
      refine .inr ⟨names, names, rfl, same.trans given, fun name => ?_⟩
      simp [adds.ignore, empty]
  · refine .inr ⟨names, left, given, given', fun name => ?_⟩
    simp only [List.mem_append, List.mem_map, adds.ignore, among, or_and_right, exists_or, or_assoc]

/-- The patterns are the same in the same order, or neither settings have valid ones. -/
theorem exclude_cases :
    (∃ c, settings.exclusions = .error c ∧ settings'.exclusions = .error c) ∨
      ∃ lines left, settings.exclusions = .ok lines ∧ settings'.exclusions = .ok left ∧
        left ++ o'.exclude = lines ++ o.exclude := by
  rcases leaves.exclude with ⟨empty, same⟩ | ⟨left, given, given'⟩
  · cases given : settings.exclusions with
    | error c => exact .inl ⟨c, rfl, same.trans given⟩
    | ok lines =>
      refine .inr ⟨lines, lines, rfl, same.trans given, ?_⟩
      rw [adds.exclude, empty, List.nil_append]
  · refine .inr ⟨_, left, given, given', ?_⟩
    rw [adds.exclude, List.append_assoc]

theorem directoriesOf_eq : directoriesOf o' settings' = directoriesOf o settings := by
  unfold directoriesOf
  rw [adds.directories]
  rcases leaves.directories with ⟨empty, same⟩ | ⟨names, moved, nonempty, given, -, plain⟩
  · rw [list?, empty, Option.map_none, Option.or_none, same]
  · have undirected := adds.room.directories (by simp [moved])
    have listed : ∀ name ∈ names, Settings.IsListed name := by
      intro name member
      obtain ⟨nonempty, free, trimmed⟩ := plain name member
      exact ⟨nonempty, free, Text.tight_iff.mpr trimmed⟩
    rw [undirected, list?, moved, Option.map_some, Option.none_or,
      Settings.splitDirectories_intercalate nonempty listed, given]
    rfl

/-- The same analyzer is asked for, or the same is wrong with the configuration. -/
theorem analyzerOf_eq {view other : View}
    (manifest : Manifest.load view project = Manifest.load other project) :
    analyzerOf other o' settings' project = analyzerOf view o settings project := by
  -- The settings are checked one after the other, and the first fault is the one that counts.
  rw [analyzerOf_eq_bind, analyzerOf_eq_bind, directoriesOf_eq leaves adds]
  rcases ignore_cases leaves adds with ⟨c, given, given'⟩ | ⟨names, left, given, given', among⟩
  · rw [given, given']
    rfl
  have loads : ∀ directories excluder,
      Analyzer.load other project (left ++ o'.ignore.map Name.ofString) directories excluder =
        Analyzer.load view project (names ++ o.ignore.map Name.ofString) directories excluder := by
    intro directories excluder
    unfold Analyzer.load Manifest.filtered
    rw [manifest]
    simp only [among]
  rw [given, given']
  change (directoriesOf o settings >>= _) = (directoriesOf o settings >>= _)
  refine congrArg (directoriesOf o settings >>= ·) (funext fun directories => ?_)
  rcases exclude_cases leaves adds with ⟨c, given, given'⟩ | ⟨lines, more, given, given', whole⟩
  · rw [given, given']
    rfl
  rw [given, given']
  change ((Exclusion.Excluder.ofLines project more o'.exclude).mapError _ >>= _) =
    ((Exclusion.Excluder.ofLines project lines o.exclude).mapError _ >>= _)
  have same : Exclusion.Excluder.ofLines project more o'.exclude =
      Exclusion.Excluder.ofLines project lines o.exclude := by
    unfold Exclusion.Excluder.ofLines
    rw [whole]
  rw [same]
  exact congrArg _ (funext fun excluder => loads directories excluder)

/-- The same package manager is taken. -/
theorem managerOf_eq {disk disk' : Disk} (same : disk.outline = disk'.outline) :
    managerOf disk' o' settings' project = managerOf disk o settings project := by
  unfold managerOf
  rw [adds.manager, name?, ← detect_eq_of_alike (Disk.alike_of_outline_eq same)]
  rcases leaves.manager with ⟨empty, same⟩ | ⟨manager, moved, given, -⟩
  · rw [empty, Option.map_none, Option.or_none, same]
  · have known := Manager.ofName?_name (Settings.mem_known_of_manager? given)
    rw [adds.room.manager (by simp [moved]), moved, Option.map_some, Option.none_or, given]
    change Except.ok (Manager.ofName manager.name) = .ok manager
    rw [Manager.ofName, known]
    rfl

theorem prepare_eq {disk disk' : Disk} {input : String} {runner : Runner}
    (same : disk.outline = disk'.outline) :
    prepare ⟨disk', input, runner⟩ o' = prepare ⟨disk, input, runner⟩ o := by
  have path : projectPath o' = projectPath o := by rw [adds.others]; rfl
  have output : o'.output = o.output := by rw [adds.others]
  have positional : o'.positional = o.positional := by rw [adds.others]
  unfold prepare
  rw [path, hasNulOutput, output, positional, adds.manager, name?, ← hasNulOutput]
  dsimp only
  rw [Disk.realPath_eq_of_outline_eq same]
  rcases leaves.manager with ⟨empty, -⟩ | ⟨manager, moved, given, -⟩
  · rw [empty, Option.map_none, Option.or_none]
  · have known := Manager.ofName?_name (Settings.mem_known_of_manager? given)
    rw [adds.room.manager (by simp [moved]), moved, Option.map_some, Option.none_or]
    dsimp only
    rw [known]
    rfl

theorem offerRemoval_eq (world world' : World) {disk disk' : Disk} {unused : List Name}
    (same : disk.outline = disk'.outline) (runner : world'.runner = world.runner) :
    offerRemoval world' disk' o' settings' project unused =
      offerRemoval world disk o settings project unused := by
  have json : o'.json = o.json := by rw [adds.others]
  have interactive : o'.interactive = o.interactive := by rw [adds.others]
  unfold offerRemoval statusConsole
  rw [interactive, json, runner, managerOf_eq leaves adds same]

/-- On disks that differ in the file of the settings only, an audit does the same, unless this file
is one of the source files. -/
theorem audit_eq {disk disk' : Disk} {input : String} {runner : Runner} {place : Place}
    (differs : disk.DiffersAt disk' place)
    (leads : disk.locate (Settings.pathIn project) = .ok place) (brief : o.verbose = false)
    (loaded : Settings.load disk project = .ok settings)
    (loaded' : Settings.load disk' project = .ok settings')
    (unscanned : ∀ analyzer, analyzerOf disk.view o settings project = .ok analyzer →
      ∀ path ∈ (analyzer.scan disk.view).found.files, disk.locate path ≠ .ok place) :
    audit ⟨disk', input, runner⟩ o' project = audit ⟨disk, input, runner⟩ o project := by
  have alike := Disk.alike_of_outline_eq differs.outline_eq
  have brief' : o'.verbose = false := by rw [adds.others]; exact brief
  -- The manifest can be the file of the settings itself, so its two groups must not be moved.
  have unmoved : ∀ key ∈ Manifest.groupKeys, Name.ofString key ∉ movable.map Name.ofString := by
    decide
  have manifest := Settings.load_manifest_eq differs leads loaded loaded' fun key member =>
    (leaves.others key (unmoved key member)).symm
  unfold audit
  rw [loaded, loaded', ofExcept_ok_bind, ofExcept_ok_bind]
  dsimp only
  rw [if_neg (by simp [brief']), if_neg (by simp [brief]), analyzerOf_eq leaves adds manifest]
  cases made : analyzerOf disk.view o settings project with
  | error failure => rw [ofExcept_error_bind, ofExcept_error_bind]
  | ok analyzer =>
  have scanned : analyzer.scan disk'.view = analyzer.scan disk.view :=
    (Scan.scan_eq_of_alike alike _).symm
  have agree : ∀ path ∈ (analyzer.scan disk.view).found.files,
      disk.view.read path = disk'.view.read path :=
    fun path found => differs.read_eq (unscanned analyzer made path found)
  rw [ofExcept_ok_bind, ofExcept_ok_bind, scanned, ← Analyzer.filesRead_congr agree,
    ← Analyzer.analyze_eq_of_alike alike agree]
  refine congrArg (List.forM _ _ >>= ·) (funext fun _ => ?_)
  cases analyzer.analyze disk.view with
  | error failure => rw [ofExcept_error_bind, ofExcept_error_bind]
  | ok answer =>
  obtain ⟨result, statistics⟩ := answer
  have output : o'.output = o.output := by rw [adds.others]
  rw [ofExcept_ok_bind, ofExcept_ok_bind]
  refine save_bind_eq differs.outline_eq output fun written written' same => ?_
  rw [present_eq adds brief,
    offerRemoval_eq leaves adds ⟨disk, input, runner⟩ ⟨disk', input, runner⟩ same rfl]

theorem perform_eq {disk disk' : Disk} {input : String} {runner : Runner} {place : Place}
    (differs : disk.DiffersAt disk' place)
    (resolved : disk.realPath (projectPath o) = .ok project)
    (leads : disk.locate (Settings.pathIn project) = .ok place) (brief : o.verbose = false)
    (loaded : Settings.load disk project = .ok settings)
    (loaded' : Settings.load disk' project = .ok settings')
    (unscanned : ∀ analyzer, analyzerOf disk.view o settings project = .ok analyzer →
      ∀ path ∈ (analyzer.scan disk.view).found.files, disk.locate path ≠ .ok place) :
    perform ⟨disk', input, runner⟩ o' = perform ⟨disk, input, runner⟩ o := by
  have requests : o'.request? = o.request? := by rw [adds.others]; rfl
  have answers : answer o' = answer o := by rw [adds.others]; rfl
  unfold perform
  rw [requests, answers, prepare_eq leaves adds differs.outline_eq]
  split
  · rfl
  refine ext_run fun desk => ?_
  rw [run_bind, run_bind]
  obtain ⟨events, -, -, prepares⟩ := preparesTo_prepare ⟨disk, input, runner⟩ o desk
  cases ended : ((prepare ⟨disk, input, runner⟩ o).run desk).1 with
  | error stop => rfl
  | ok other =>
    rw [ended] at prepares
    cases prepares with
    | ready prepared =>
      cases resolved.symm.trans prepared.resolved
      dsimp only
      rw [audit_eq leaves adds differs leads brief loaded loaded' unscanned]

end

end Move

theorem programAt_outline (disk : Disk) (path : Path) :
    programAt disk.outline path = programAt disk path := by
  unfold programAt
  rw [Disk.lookAt_outline]
  rcases disk.lookAt path with _ | _ | (_ | _ | _ | _) <;> rfl

theorem runAt_outline (disk : Disk) (path : Path) (name : String) (arguments : List Name)
    (directory : Path) :
    runAt disk.outline path name arguments directory =
      runAt disk path name arguments directory := by
  unfold runAt
  rw [Disk.locate_outline]
  cases disk.locate directory with
  | error dead => rfl
  | ok place =>
    have isDirectory : disk.outline.node? place ≠ some .directory ↔
        disk.node? place ≠ some .directory := by
      rw [Disk.node?_outline]
      rcases disk.node? place with _ | (_ | _ | _ | _) <;> simp [DiskNode.blank]
    have looked : ({ disk.outline with here := place } : Disk).lookAt path =
        (({ disk with here := place } : Disk).lookAt path).map (Option.map DiskNode.blank) :=
      Disk.lookAt_outline (d := { disk with here := place })
    simp only [bind, Except.bind, Except.mapError, isDirectory, looked]
    rcases ({ disk with here := place } : Disk).lookAt path with _ | _ | (_ | _ | _ | _) <;> rfl

/-- Programs are found, and run, on a disk whatever its files hold. -/
theorem ofDisk_outline (disk : Disk) (programs : Path) :
    Runner.ofDisk disk.outline programs = Runner.ofDisk disk programs := by
  funext command directory
  cases command with
  | nil => rfl
  | cons name arguments =>
    unfold Runner.ofDisk
    dsimp only
    simp only [programAt_outline, runAt_outline]

namespace Move

/-- Arguments say what others say after the move. -/
def Restates (m : Move) (arguments arguments' : List String) : Prop :=
  Option.Rel m.Adds (Options.read? arguments) (Options.read? arguments')

theorem Restates.read_cases {m : Move} {arguments arguments' : List String}
    (restates : m.Restates arguments arguments') :
    (Options.read? arguments = none ∧ Options.read? arguments' = none) ∨
      ∃ o o', Options.read? arguments = some o ∧ Options.read? arguments' = some o' ∧
        m.Adds o o' := by
  unfold Restates at restates
  generalize Options.read? arguments = before, Options.read? arguments' = after at restates
  cases restates with
  | none => exact .inl ⟨rfl, rfl⟩
  | some adds => exact .inr ⟨_, _, rfl, rfl, adds⟩

theorem restates_arguments {m : Move} {arguments : List String}
    (room : ∀ o, Options.read? arguments = some o → m.Room o) :
    m.Restates arguments (m.arguments ++ arguments) := by
  unfold Restates
  rw [read?_arguments]
  cases read : Options.read? arguments with
  | none => exact .none
  | some o => exact .some (adds_append (room o read))

variable [Platform]

/-- The settings that an audit loads stand at a place, and another content there leaves of them what
the move leaves. -/
structure Changes (m : Move) (disk : Disk) (place : Place) (content : Content) (o : Options)
    (project : Path) (settings settings' : Settings) : Prop where
  brief : o.verbose = false
  resolved : disk.realPath (projectPath o) = .ok project
  leads : disk.locate (Settings.pathIn project) = .ok place
  before : Settings.load disk project = .ok settings
  after : Settings.load (disk.refill place content) project = .ok settings'
  leaves : m.Leaves settings settings'

end Move

section

variable [Platform]

/-- The settings of an audit are, by way of links, one of the source files that it scans. -/
def ScansSettings (disk : Disk) (o : Options) (project : Path) (settings : Settings) : Prop :=
  ∃ analyzer path place, analyzerOf disk.view o settings project = .ok analyzer ∧
    path ∈ (analyzer.scan disk.view).found.files ∧ disk.locate path = .ok place ∧
    disk.locate (Settings.pathIn project) = .ok place

/-- Settings that are no link are no source file. -/
theorem not_scansSettings {disk : Disk} {o : Options} {project : Path} {settings : Settings}
    {place : Place} (leads : disk.locate (Settings.pathIn project) = .ok place)
    (own : place.getLast? = some Settings.fileName) :
    ¬ ScansSettings disk o project settings := by
  rintro ⟨analyzer, path, place', -, found, leads', same⟩
  cases leads.symm.trans same
  exact Settings.locate_ne_of_mem_files found own leads'

/-- It makes no difference to move settings to the options: the run is the same in all that it
prints, reads, writes and runs, and in its status, unless the settings are a source file that it
scans. So it is for all arguments that say what the move adds, and for those that it puts in front;
and the programs of the disk stay what they are. -/
theorem run_eq_of_moved (m : Move) {disk : Disk} {place : Place} {content : Content}
    (input : String) (runner : Runner) {arguments : List String}
    (changes : ∀ o, Options.read? arguments = some o → ∃ project settings settings',
      m.Changes disk place content o project settings settings' ∧
        ¬ ScansSettings disk o project settings) :
    let world : World := ⟨disk, input, runner⟩
    let moved : World := ⟨disk.refill place content, input, runner⟩
    (∀ arguments', m.Restates arguments arguments' → run moved arguments' = run world arguments) ∧
      ((∀ o, Options.read? arguments = some o → m.Room o) →
        run moved (m.arguments ++ arguments) = run world arguments) ∧
      ∀ programs, Runner.ofDisk moved.disk programs = Runner.ofDisk disk programs := by
  intro world moved
  have restated : ∀ arguments', m.Restates arguments arguments' →
      run moved arguments' = run world arguments := by
    intro arguments' restates
    rcases restates.read_cases with ⟨read, read'⟩ | ⟨o, o', read, read', adds⟩
    · rw [run, run, read, read']
    obtain ⟨project, settings, settings', change, apart⟩ := changes o read
    have unscanned : ∀ analyzer, analyzerOf disk.view o settings project = .ok analyzer →
        ∀ path ∈ (analyzer.scan disk.view).found.files, disk.locate path ≠ .ok place :=
      fun analyzer made path found here =>
        apart ⟨analyzer, path, place, made, found, here, change.leads⟩
    have same : perform moved o' = perform world o :=
      Move.perform_eq change.leaves adds (Disk.differsAt_refill disk place content)
        change.resolved change.leads change.brief change.before change.after unscanned
    rw [run_eq_conclude read', run_eq_conclude read, performReporting, performReporting, same]
  refine ⟨restated, fun room => restated _ (Move.restates_arguments room), fun programs => ?_⟩
  rw [← ofDisk_outline, Disk.outline_refill, ofDisk_outline]

end

attribute [local instance] Platform.standard

/-- Settings for all of which there are options. -/
def fullSettings : String :=
  "\x7b\"ignore\":[\"b\"],\"exclude\":[\"x\",\"y\"],\"dirs\":[\"src\"],\"packageManager\":\"npm\"\x7d"

/-- Of each of the settings something is moved, and one pattern is left. -/
theorem run_eq_of_moved_full :
    let m : Move := ⟨["b"], ["y"], some ["src"], some .npm⟩
    let place := ["work", "app", ".depcheck-lite.json"]
    let left : Content := .text "\x7b\"exclude\": [\"x\"]\x7d"
    let disk := oneSourceDisk "" (.file (.text fullSettings))
    let o := { Options.empty with json := true }
    (∃ settings settings', m.Changes disk place left o Scan.application settings settings' ∧
      ¬ ScansSettings disk o Scan.application settings) ∧
      m.Room o ∧
      run ⟨disk.refill place left, "", .recorder 0⟩
        ["--ignore", "b", "--exclude", "y", "--dirs", "src", "--package-manager", "npm", "--json"] =
        run ⟨disk, "", .recorder 0⟩ ["--json"] := by
  intro m place left disk o
  have read : Options.read? ["--json"] = some o := rfl
  have refilled : disk.refill place left = oneSourceDisk "" (.file left) := by rfl
  have leads : disk.locate (Settings.pathIn Scan.application) = .ok place := by cbv
  let full : Json.Members :=
    [("ignore", .array [.text "b"]), ("exclude", .array [.text "x", .text "y"]),
      ("dirs", .array [.text "src"]), ("packageManager", .text "npm")]
  let fewer : Json.Members := [("exclude", .array [.text "x"])]
  have parsed : Json.parse Platform.nestingDepth fullSettings = .ok (.object full) := by rfl
  have parsed' : Json.parse Platform.nestingDepth "\x7b\"exclude\": [\"x\"]\x7d" =
      .ok (.object fewer) := by rfl
  have stands (content : Content) : (oneSourceDisk "" (.file content)).lookAt
      (Settings.pathIn Scan.application) = .ok (some (.file content)) := by cbv
  have before : Settings.load disk Scan.application = .ok ⟨full⟩ :=
    Settings.load_of_parse (by decide) (stands _) rfl parsed
  have after : Settings.load (disk.refill place left) Scan.application = .ok ⟨fewer⟩ :=
    refilled ▸ Settings.load_of_parse (by decide) (stands left) rfl parsed'
  have leaves : m.Leaves ⟨full⟩ ⟨fewer⟩ := {
    ignore := .inr ⟨["b"], [], rfl, rfl, by simp [m]⟩
    exclude := .inr ⟨["x"], rfl, rfl⟩
    directories := .inr ⟨["src"], rfl, by decide, rfl, rfl, by decide⟩
    manager := .inr ⟨.npm, rfl, rfl, rfl⟩
    others := by
      intro key other
      simp only [movable, List.map_cons, List.map_nil, List.mem_cons, List.not_mem_nil, not_or,
        or_false] at other
      obtain ⟨notIgnore, notExclude, notDirs, notManager⟩ := other
      simp [full, fewer, Json.Members.get?, List.lookup_cons, beq_eq_false_iff_ne.mpr,
        notIgnore, notExclude, notDirs, notManager] }
  have change : m.Changes disk place left o Scan.application _ _ :=
    ⟨rfl, (prepared_oneSourceDisk "" _ rfl rfl rfl).resolved, leads, before, after, leaves⟩
  have apart : ¬ ScansSettings disk o Scan.application ⟨full⟩ := not_scansSettings leads rfl
  have room : m.Room o := ⟨fun _ => rfl, fun _ => rfl⟩
  refine ⟨⟨_, _, change, apart⟩, room, ?_⟩
  refine (run_eq_of_moved m "" (.recorder 0) (fun o' read' => ?_)).2.1 fun o' read' => ?_
  · cases read.symm.trans read'
    exact ⟨_, _, _, change, apart⟩
  · cases read.symm.trans read'
    exact room

/-- A run that audits the one source file reads it, prints the document, and ends with the status that
the result asks for. -/
theorem run_oneSourceDisk {source : String} {node : DiskNode} {settings : Settings}
    {arguments names references : List String} {ignored : List Name} {result : Result}
    {statistics : Statistics}
    (read : Options.read? arguments = some
      { Options.empty with json := true, directories := some "src", ignore := names })
    (loaded : Settings.load (oneSourceDisk source node) Scan.application = .ok settings)
    (ignores : settings.ignore = .ok ignored) (excludes : settings.exclusions = .ok [])
    (refers : Import.references (Content.toText (.text source)) = references)
    (concludes : (oneSourceAnalyzer ([Name.ofString "b"].filter
      (· ∉ ignored ++ names.map Name.ofString))).conclude
      ⟨[Scan.onlySource], []⟩ [references] = (result, statistics)) :
    run ⟨oneSourceDisk source node, "", .recorder 0⟩ arguments =
      ⟨if result.unused = [] then 0 else 1,
        [.opened Scan.onlySource, .printed .output (Report.document result ++ "\n")], none⟩ := by
  let world : World := ⟨oneSourceDisk source node, "", .recorder 0⟩
  let o : Options :=
    { Options.empty with json := true, directories := some "src", ignore := names }
  let done : List Event :=
    [.opened Scan.onlySource, .printed .output (Report.document result ++ "\n")]
  have offers : performed world o =
      (offerRemoval world world.disk o settings Scan.application result.unused >>=
        fun left => pure (if left = [] then 0 else 1)).run ⟨linesOf "", done⟩ :=
    performed_oneSourceDisk false names loaded ignores excludes refers concludes
  have alone : ¬ (o.interactive ∧ result.unused ≠ []) := fun both => Bool.noConfusion both.1
  have ran : performed world o =
      (.ok (if result.unused = [] then 0 else 1), ⟨linesOf "", done⟩) := by
    rw [offers, offerRemoval, if_neg alone]
    rfl
  exact run_of_ok world read ran

theorem locate_oneSourceDisk_link (source : String) :
    (oneSourceDisk source (.link "src/a.js")).locate (Settings.pathIn Scan.application) =
      .ok ["work", "app", "src", "a.js"] := by
  let disk := oneSourceDisk source (.link "src/a.js")
  have root : disk.node? [] = some .directory := rfl
  have work : disk.node? ["work"] = some .directory := rfl
  have app : disk.node? ["work", "app"] = some .directory := rfl
  have link : disk.node? ["work", "app", ".depcheck-lite.json"] = some (.link "src/a.js") := rfl
  have src : disk.node? ["work", "app", "src"] = some .directory := rfl
  have file : disk.node? ["work", "app", "src", "a.js"] = some (.file (.text source)) := rfl
  have names : Disk.linkNames "src/a.js" = ["src", "a.js"] := by decide +kernel
  have start : Disk.origin ["work", "app"] (Path.ofString "src/a.js") = ["work", "app"] := by
    decide +kernel
  have short : ¬ pathLimit ≤ (Settings.pathIn Scan.application).toText.utf8ByteSize := by
    decide +kernel
  have fits : ∀ name ∈ ["work", "app", ".depcheck-lite.json", "src", "a.js"],
      ¬ nameLimit < name.utf8ByteSize := by decide
  rw [Disk.locate, if_neg short]
  change disk.follow false 40 [] ["work", "app", ".depcheck-lite.json"] = _
  simp [Disk.follow, root, work, app, link, src, file, names, start, fits]

/-- Where the settings are the source file itself, a name in them that reads like an import is one, and
is none any more when it is moved. -/
theorem not_run_eq_of_linkedSettings :
    let m : Move := ⟨["import 'b'"], [], none, none⟩
    let place := ["work", "app", "src", "a.js"]
    let disk := oneSourceDisk "\x7b\"ignore\": [\"import 'b'\"]\x7d" (.link "src/a.js")
    let left : Content := .text "\x7b\x7d"
    let arguments := ["--json", "--dirs", "src"]
    ∃ o settings settings', Options.read? arguments = some o ∧
      m.Changes disk place left o Scan.application settings settings' ∧ m.Room o ∧
      run ⟨disk.refill place left, "", .recorder 0⟩ (m.arguments ++ arguments) ≠
        run ⟨disk, "", .recorder 0⟩ arguments := by
  intro m place disk left arguments
  let settings : Settings := ⟨[("ignore", .array [.text "import 'b'"])]⟩
  let settings' : Settings := ⟨[]⟩
  let o : Options := { Options.empty with json := true, directories := some "src" }
  have refilled : disk.refill place left = oneSourceDisk "\x7b\x7d" (.link "src/a.js") := by rfl
  have read : Options.read? arguments = some o := rfl
  have read' : Options.read? (m.arguments ++ arguments) =
      some { o with ignore := ["import 'b'"] } := rfl
  have leads := locate_oneSourceDisk_link
  have stands (source : String) : (oneSourceDisk source (.link "src/a.js")).lookAt
      (Settings.pathIn Scan.application) = .ok (some (.file (.text source))) := by
    rw [Disk.lookAt, leads]
    rfl
  have parsed : Json.parse Platform.nestingDepth "\x7b\"ignore\": [\"import 'b'\"]\x7d" =
      .ok (.object settings.members) := by rfl
  have parsed' : Json.parse Platform.nestingDepth "\x7b\x7d" = .ok (.object settings'.members) := by
    rfl
  have before : Settings.load disk Scan.application = .ok settings :=
    Settings.load_of_parse (by decide) (stands _) rfl parsed
  have after : Settings.load (oneSourceDisk "\x7b\x7d" (.link "src/a.js")) Scan.application =
      .ok settings' :=
    Settings.load_of_parse (by decide) (stands _) rfl parsed'
  have leaves : m.Leaves settings settings' := {
    ignore := .inr ⟨["import 'b'"], [], rfl, rfl, by simp [m]⟩
    exclude := .inl ⟨rfl, rfl⟩
    directories := .inl ⟨rfl, rfl⟩
    manager := .inl ⟨rfl, rfl⟩
    others := by
      intro key other
      have notIgnore : key ≠ "ignore" := fun same => other (same ▸ List.mem_cons_self)
      simp [settings, settings', Json.Members.get?, List.lookup_cons,
        beq_eq_false_iff_ne.mpr notIgnore] }
  have change : m.Changes disk place left o Scan.application settings settings' :=
    ⟨rfl, (prepared_oneSourceDisk _ _ rfl rfl rfl).resolved, leads _, before, refilled ▸ after,
      leaves⟩
  have refers : Import.references
      (Content.toText (.text "\x7b\"ignore\": [\"import 'b'\"]\x7d")) = ["b"] := by decide +kernel
  have unreferred : Import.references (Content.toText (.text "\x7b\x7d")) = [] := by decide +kernel
  have used : (oneSourceAnalyzer ([Name.ofString "b"].filter
      (· ∉ [Name.ofString "import 'b'"] ++ []))).conclude
      ⟨[Scan.onlySource], []⟩ [["b"]] = (⟨["b"], [], 1⟩, ⟨1, 1, []⟩) := by decide +kernel
  have unused : (oneSourceAnalyzer ([Name.ofString "b"].filter
      (· ∉ [] ++ [Name.ofString "import 'b'"]))).conclude
      ⟨[Scan.onlySource], []⟩ [[]] = (⟨[], ["b"], 1⟩, ⟨1, 0, []⟩) := by decide +kernel
  have ran := run_oneSourceDisk read before rfl rfl refers used
  have ran' := run_oneSourceDisk read' after rfl rfl unreferred unused
  refine ⟨o, settings, settings', read, change, ⟨by simp [m], by simp [m]⟩, ?_⟩
  rw [refilled, ran, ran']
  exact fun same => Nat.noConfusion (congrArg Outcome.status same)

end DependencyAudit.CommandLine
