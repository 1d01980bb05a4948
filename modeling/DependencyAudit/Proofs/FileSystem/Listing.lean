import DependencyAudit.FileSystem.Disk
import DependencyAudit.FileSystem.Memory
import DependencyAudit.Proofs.Except
import Mathlib.Data.List.Nodup

namespace DependencyAudit.FileSystem

/-- No directory lists a name twice. -/
def View.ListsOnce (view : View) : Prop :=
  ∀ {directory : Path} {entries : List Entry}, view.list directory = .ok entries →
    (entries.map Entry.name).Nodup

theorem nodup_eraseDups {α : Type} [DecidableEq α] (items : List α) : items.eraseDups.Nodup := by
  induction size : items.length using Nat.strongRecOn generalizing items with
  | _ size ih =>
    cases items with
    | nil => exact .nil
    | cons item rest =>
      rw [List.eraseDups_cons, List.nodup_cons]
      constructor
      · simp [List.mem_eraseDups]
      · have shorter := List.length_filter_le (fun other => !other == item) rest
        simp only [List.length_cons] at size
        exact ih _ (by omega) _ rfl

theorem Memory.listsOnce (m : Memory) : m.view.ListsOnce := by
  intro directory entries listed
  change m.list directory = .ok entries at listed
  unfold Memory.list at listed
  split at listed
  · cases listed
  · split at listed
    · cases listed
      have once : (m.namesIn directory).Nodup := nodup_eraseDups _
      simpa only [List.map_map, Function.comp_def, List.map_id'] using once
    · split at listed <;> cases listed

theorem Disk.listsOnce (d : Disk) : d.view.ListsOnce := by
  intro directory entries listed
  change d.list directory = .ok entries at listed
  unfold Disk.list at listed
  split at listed
  · cases listed
  · split at listed
    · cases listed
      rename_i place _ _ _
      have once : (d.namesIn place).Nodup := (nodup_eraseDups _).filter _
      simpa only [List.map_map, Function.comp_def, List.map_id'] using once
    all_goals cases listed

theorem Disk.exists?_of_lookAt {d : Disk} {p : Path} {node : DiskNode}
    (clean : hasNul p = false) (stands : d.lookAt p = .ok (some node)) :
    d.view.exists? p = .ok true := by
  change d.holds p _ = _
  simp [holds, clean, stands]

theorem Disk.content_of_lookAt {d : Disk} {p : Path} {content : Content}
    (stands : d.lookAt p = .ok (some (.file content))) : d.content p = .ok content := by
  rw [Disk.content, stands]

theorem Disk.read_of_lookAt {d : Disk} {p : Path} {content : Content}
    (stands : d.lookAt p = .ok (some (.file content))) :
    d.view.read p = .ok content.toText := by
  change (d.content p).map _ = _
  rw [content_of_lookAt stands]
  rfl

/-- A disk refuses to say what is at a path only where the path, or a name on the way, is too
long. -/
theorem Disk.locate_of_refused {d : Disk} {p : Path} {asks : DiskNode → Bool} {refusal : Refusal}
    (refused : d.holds p asks = .error refusal) :
    d.locate p = .error .nameTooLong ∧ refusal = .nameTooLong p.toText := by
  unfold holds at refused
  split at refused
  next => cases refused
  next =>
    split at refused
    all_goals cases refused
    next long => exact ⟨Except.map_eq_error_iff.mp long, rfl⟩

/-- What is read from a disk is in one of its files, unless it is empty. -/
theorem Disk.exists_mem_of_content {d : Disk} {p : Path} {content : Content}
    (given : d.content p = .ok content) :
    content = .text "" ∨ ∃ place, (place, .file content) ∈ d.nodes := by
  unfold Disk.content at given
  split at given
  next => cases given
  next looked =>
    cases given
    obtain ⟨place, -, stands⟩ := Except.map_eq_ok_iff.mp looked
    unfold node? at stands
    split at stands
    next found =>
      cases stands
      obtain ⟨before, after, shape, -⟩ := List.lookup_eq_some_iff.mp found
      exact .inr ⟨place, shape ▸ List.mem_append_right _ List.mem_cons_self⟩
    next => split at stands <;> cases stands
  next => exact .inl (Except.ok.inj given).symm
  all_goals cases given

section

variable {d : Disk} {p : Path} {place : Place} {name : String}

/-- A path that goes on by a name is followed from where it leads without it. -/
theorem Disk.exists_locate_child (leads : d.locate p = .ok place)
    (short : (p.child name).toText.utf8ByteSize < pathLimit) :
    ∃ left, d.locate (p.child name) = d.follow false left place [name] := by
  unfold locate at leads ⊢
  split at leads
  · cases leads
  obtain ⟨left, goesOn⟩ := @exists_follow_append _ _ _ _ _ [name] leads
  have sameOrigin : origin d.here (p.child name) = origin d.here p := rfl
  have names : (p.child name).names = p.names ++ [name] := rfl
  exact ⟨left, by rw [if_neg (Nat.not_le.mpr short), sameOrigin, names, goesOn]⟩

section

variable {links : Nat} {rest : List String} (ordinary : Disk.isEntryName name)
  (stands : d.node? place = some .directory)
include ordinary stands

theorem Disk.follow_cons_of_long (long : nameLimit < name.utf8ByteSize) :
    d.follow false links place (name :: rest) = .error .nameTooLong := by
  simp only [isEntryName, bne_iff_ne, Bool.and_eq_true] at ordinary
  rw [follow, stands]
  simp only [ordinary.1, ordinary.2, long, if_true, if_false]

theorem Disk.follow_cons_of_absent (fits : name.utf8ByteSize ≤ nameLimit)
    (absent : d.node? (place ++ [name]) = none) :
    d.follow false links place (name :: rest) = .error .notFound := by
  simp only [isEntryName, bne_iff_ne, Bool.and_eq_true] at ordinary
  rw [follow, stands]
  simp only [ordinary.1, ordinary.2, Nat.not_lt.mpr fits, absent, if_false, Bool.false_eq_true,
    false_and]

theorem Disk.follow_cons_of_real (fits : name.utf8ByteSize ≤ nameLimit) {node : DiskNode}
    (there : d.node? (place ++ [name]) = some node) (real : ∀ target, node ≠ .link target) :
    d.follow false links place (name :: rest) = d.follow false links (place ++ [name]) rest := by
  simp only [isEntryName, bne_iff_ne, Bool.and_eq_true] at ordinary
  rw [follow, stands]
  simp only [ordinary.1, ordinary.2, Nat.not_lt.mpr fits, there, if_false]

end

/-- Below a directory of a disk, a name leads to what stands there, unless it is a link. -/
theorem Disk.locate_child_of_real (leads : d.locate p = .ok place)
    (stands : d.node? place = some .directory) (ordinary : Disk.isEntryName name)
    (fits : name.utf8ByteSize ≤ nameLimit) {node : DiskNode}
    (there : d.node? (place ++ [name]) = some node) (real : ∀ target, node ≠ .link target)
    (short : (p.child name).toText.utf8ByteSize < pathLimit) :
    d.locate (p.child name) = .ok (place ++ [name]) := by
  obtain ⟨left, goesOn⟩ := exists_locate_child leads short
  rw [goesOn, follow_cons_of_real ordinary stands fits there real, follow]

/-- Below a directory of a disk, a name that is too long cannot be looked at. -/
theorem Disk.isDirectory_of_long (leads : d.locate p = .ok place)
    (stands : d.node? place = some .directory) (name : String) (ordinary : Disk.isEntryName name)
    (long : nameLimit < name.utf8ByteSize)
    (short : (p.child name).toText.utf8ByteSize < pathLimit)
    (clean : hasNul (p.child name) = false) :
    d.view.isDirectory (p.child name) = .error (.nameTooLong (p.child name).toText) := by
  obtain ⟨left, goesOn⟩ := exists_locate_child leads short
  rw [follow_cons_of_long ordinary stands long] at goesOn
  change d.isDirectory (p.child name) = _
  unfold isDirectory holds lookAt
  rw [clean, goesOn]
  rfl

/-- Below a directory of a disk, nothing is as asked at a name at which nothing stands. -/
theorem Disk.holds_of_absent (leads : d.locate p = .ok place)
    (stands : d.node? place = some .directory) (ordinary : Disk.isEntryName name)
    (fits : name.utf8ByteSize ≤ nameLimit) (absent : d.node? (place ++ [name]) = none)
    (short : (p.child name).toText.utf8ByteSize < pathLimit)
    (clean : hasNul (p.child name) = false) (asks : DiskNode → Bool) :
    d.holds (p.child name) asks = .ok false := by
  obtain ⟨left, goesOn⟩ := exists_locate_child leads short
  rw [follow_cons_of_absent ordinary stands fits absent] at goesOn
  unfold holds lookAt
  rw [clean, goesOn]
  rfl

/-- The path of a listed file leads nowhere but to that file. -/
theorem Disk.getLast?_of_listed {entries : List Entry} {entry : Entry}
    (listed : d.list p = .ok entries) (member : entry ∈ entries) (isFile : entry.kind = .file)
    (leads : d.locate (p.child entry.name) = .ok place) :
    place.getLast? = some entry.name := by
  unfold list at listed
  split at listed
  · cases listed
  next directory above =>
  split at listed
  next stands =>
    cases listed
    obtain ⟨name, named, rfl⟩ := List.mem_map.mp member
    have ordinary : isEntryName name := (List.mem_filter.mp named).2
    have short : (p.child name).toText.utf8ByteSize < pathLimit := by
      by_contra long
      rw [locate, if_pos (Nat.not_lt.mp long)] at leads
      cases leads
    obtain ⟨left, goesOn⟩ := exists_locate_child above short
    rw [leads] at goesOn
    have fits : name.utf8ByteSize ≤ nameLimit := by
      by_contra long
      rw [follow_cons_of_long ordinary stands (Nat.not_le.mp long)] at goesOn
      cases goesOn
    have real : ∃ node, d.node? (directory ++ [name]) = some node ∧
        ∀ target, node ≠ .link target := by
      dsimp only [kindOf] at isFile
      cases there : d.node? (directory ++ [name]) with
      | none => simp [there] at isFile
      | some node => exact ⟨node, rfl, fun target same => by simp [there, same] at isFile⟩
    obtain ⟨node, there, isReal⟩ := real
    rw [follow_cons_of_real ordinary stands fits there isReal, follow] at goesOn
    cases goesOn
    exact List.getLast?_concat
  all_goals cases listed

end

end DependencyAudit.FileSystem
