import DependencyAudit.Proofs.Analysis
import DependencyAudit.Proofs.FileSystem.Outline
import DependencyAudit.Proofs.Scan.Order
import DependencyAudit.Proofs.Settings
import DependencyAudit.Proofs.Text.Utf8

namespace DependencyAudit

open FileSystem

namespace Scan

variable {view other : View} {excluder : Exclusion.Excluder} {project : Path}

theorem walk_eq_of_alike (alike : view.Alike other) (directory : Path) :
    walk view excluder directory = walk other excluder directory := by
  -- A walk goes into directories of lower rank only, and what it finds on the spot is listed alike.
  induction ranked : view.rank directory using Nat.strongRecOn generalizing directory with
  | _ rank ih =>
    have sameOwn : own view excluder directory = own other excluder directory := by
      unfold own
      rw [alike.list]
    have sameInside : inside view excluder directory = inside other excluder directory := by
      unfold inside
      rw [alike.list]
    rw [walk_eq_own_append, walk_eq_own_append, sameOwn, ← sameInside]
    refine congrArg (own other excluder directory ++ Found.concat ·) ?_
    refine List.map_congr_left fun child member => ?_
    exact ih _ (ranked ▸ rank_lt_of_mem_inside member) child rfl

theorem scan_eq_of_alike (alike : view.Alike other) (names : List String) :
    scan view excluder project names = scan other excluder project names := by
  have starts : starts view project names = starts other project names := by
    unfold starts
    rw [alike.isDirectory]
  have refusals : refusalAt view project = refusalAt other project := by
    funext name
    unfold refusalAt
    rw [alike.isDirectory]
  have walks : walk view excluder = walk other excluder := funext (walk_eq_of_alike alike)
  rw [scan_eq, scan_eq, starts, refusals, pending, pending, walks]

end Scan

namespace Analyzer

variable {view other : View} {a : Analyzer} {files : List Path}

theorem readAll_congr (agree : ∀ path ∈ files, view.read path = other.read path) :
    readAll view files = readAll other files := by
  induction files with
  | nil => rfl
  | cons path rest ih =>
    obtain ⟨here, later⟩ := List.forall_mem_cons.mp agree
    rw [readAll, readAll, here, ih later]

theorem filesRead_congr (agree : ∀ path ∈ files, view.read path = other.read path) :
    filesRead view files = filesRead other files := by
  induction files with
  | nil => rfl
  | cons path rest ih =>
    obtain ⟨here, later⟩ := List.forall_mem_cons.mp agree
    rw [filesRead, filesRead, here, ih later]

/-- An analysis depends on what is listed and on what the scanned files hold. -/
theorem analyze_eq_of_alike (alike : view.Alike other)
    (agree : ∀ path ∈ (a.scan view).found.files, view.read path = other.read path) :
    a.analyze view = a.analyze other := by
  have scanned : a.scan other = a.scan view := (Scan.scan_eq_of_alike alike _).symm
  unfold analyze
  dsimp only
  rw [scanned, readAll_congr agree]

end Analyzer

namespace Manifest

variable {path : Path} {text text' : String} {members members' : Json.Members}

/-- Only the two dependency groups of an object count. -/
theorem ofText_eq_of_members [Platform]
    (parsed : Json.parse Platform.nestingDepth text = .ok (.object members))
    (parsed' : Json.parse Platform.nestingDepth text' = .ok (.object members'))
    (groups : ∀ key ∈ groupKeys, members.get? (.ofString key) = members'.get? (.ofString key)) :
    ofText path text = ofText path text' := by
  have dependencies : group path members "dependencies" = group path members' "dependencies" := by
    unfold group
    rw [groups _ (by simp [groupKeys])]
  have devDependencies :
      group path members "devDependencies" = group path members' "devDependencies" := by
    unfold group
    rw [groups _ (by simp [groupKeys])]
  rw [ofText, ofText, parsed, parsed']
  change (group path members _ >>= _) = (group path members' _ >>= _)
  rw [dependencies, devDependencies]

end Manifest

namespace Settings

section

variable {d d' : Disk} {project : Path} {place : Place} {settings settings' : Settings}

theorem toText_of_toStrictText {content : Content} {text : String}
    (decoded : content.toStrictText = .ok text) : content.toText = text := by
  cases content with
  | text s =>
    cases decoded
    rfl
  | raw bytes =>
    obtain ⟨s, strict, same⟩ := Except.bind_eq_ok_iff.mp decoded
    cases same
    rw [Content.toText, Text.decodeLossy_of_decodeStrict strict]

variable [Platform]

/-- Settings that are there are loaded from a text that writes an object. -/
theorem exists_parse_of_load (loaded : load d project = .ok settings)
    (there : d.exists? (pathIn project) = .ok true) :
    ∃ content, d.content (pathIn project) = .ok content ∧
      Json.parse Platform.nestingDepth content.toText = .ok (.object settings.members) := by
  obtain ⟨answer, asked, loaded⟩ := Except.bind_eq_ok_iff.mp loaded
  rw [there] at asked
  cases asked
  obtain ⟨content, given, loaded⟩ := Except.bind_eq_ok_iff.mp loaded
  rw [Except.mapError_eq_ok_iff] at given
  obtain ⟨text, decoded, loaded⟩ := Except.bind_eq_ok_iff.mp loaded
  rw [Except.mapError_eq_ok_iff] at decoded
  obtain ⟨value, parsed, made⟩ := Except.bind_eq_ok_iff.mp loaded
  rw [Except.mapError_eq_ok_iff] at parsed
  refine ⟨content, given, ?_⟩
  split at made
  next members =>
    cases made
    rw [toText_of_toStrictText decoded]
    exact parsed
  next => cases made

/-- The manifest is loaded alike from disks that differ in the file of the settings only, although it
can be this very file. -/
theorem load_manifest_eq (differs : d.DiffersAt d' place)
    (leads : d.locate (pathIn project) = .ok place) (loaded : load d project = .ok settings)
    (loaded' : load d' project = .ok settings')
    (groups : ∀ key ∈ Manifest.groupKeys,
      settings.members.get? (.ofString key) = settings'.members.get? (.ofString key)) :
    Manifest.load d.view project = Manifest.load d'.view project := by
  have alike := Disk.alike_of_outline_eq differs.outline_eq
  have leads' : d'.locate (pathIn project) = .ok place :=
    (Disk.locate_eq_of_outline_eq differs.outline_eq _).symm.trans leads
  rw [Manifest.load, Manifest.load, ← alike.exists?]
  -- A link can make one file of the two. Then it has been read as an object in either state.
  by_cases here : d.locate (Manifest.pathIn project) = .ok place
  · have here' : d'.locate (Manifest.pathIn project) = .ok place :=
      (Disk.locate_eq_of_outline_eq differs.outline_eq _).symm.trans here
    have clean : Disk.hasNul (pathIn project) = Disk.hasNul (Manifest.pathIn project) := by
      simp [Disk.hasNul, pathIn, Manifest.pathIn, Path.child, fileName, Manifest.fileName]
    cases asked : d.view.exists? (Manifest.pathIn project) with
    | error refusal => rfl
    | ok there =>
      cases there with
      | false => rfl
      | true =>
        have there := Disk.exists?_of_leads here leads clean asked
        have there' := Disk.exists?_of_leads here' leads' clean
          ((congrFun alike.exists? _).symm.trans asked)
        obtain ⟨content, holds, parsed⟩ := exists_parse_of_load loaded there
        obtain ⟨content', holds', parsed'⟩ := exists_parse_of_load loaded' there'
        have read : d.view.read (Manifest.pathIn project) = .ok content.toText := by
          change (d.content _).map _ = _
          rw [Disk.content_of_leads leads here holds]
          rfl
        have read' : d'.view.read (Manifest.pathIn project) = .ok content'.toText := by
          change (d'.content _).map _ = _
          rw [Disk.content_of_leads leads' here' holds']
          rfl
        rw [read, read']
        exact Manifest.ofText_eq_of_members parsed parsed' groups
  · rw [differs.read_eq here]

end

/-- A source file is no settings file, unless the settings are a link. -/
theorem locate_ne_of_mem_files {d : Disk} {project : Path} {place : Place}
    {e : Exclusion.Excluder} {names : List String} {path : Path}
    (found : path ∈ (Scan.scan d.view e project names).found.files)
    (own : place.getLast? = some fileName) : d.locate path ≠ .ok place := by
  obtain ⟨_, -, inWalk⟩ := Scan.mem_files_scan.mp found
  obtain ⟨directory, entries, entry, -, listed, member, isFile, rfl, source, -⟩ :=
    Scan.mem_files_walk.mp inWalk
  intro leads
  have last := Disk.getLast?_of_listed listed member isFile leads
  rw [own, Option.some.injEq] at last
  have suffix : (directory.child entry.name).suffix = ".json" := by
    rw [← last, Path.suffix, Path.name, Path.child, List.getLast?_concat]
    decide +kernel
  rw [suffix] at source
  exact absurd source (by decide)

end Settings

end DependencyAudit
