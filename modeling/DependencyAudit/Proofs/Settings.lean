import DependencyAudit.Proofs.Analysis
import DependencyAudit.Proofs.FileSystem.Listing
import DependencyAudit.Proofs.Removal.Manager
import DependencyAudit.Settings

namespace DependencyAudit.Settings

open FileSystem

section

variable [Platform] {disk : Disk} {project path : Path} {text : String} {failure : Failure}

theorem failure_of_ofText (fails : ofText path text = .error failure) :
    (∃ c, failure = .configuration c) ∨
      (∃ number, failure = .tooLong number ∧ Json.LongRun text.toList number) ∨
      ∃ place, failure = .tooDeep place ∧ ¬ Json.Shallow text := by
  rcases Except.bind_eq_error_iff.mp fails with unread | ⟨value, -, fails⟩
  · exact Failure.of_unread unread
  · split at fails
    · cases fails
    · cases fails
      exact .inl ⟨_, rfl⟩

/-- Loading fails by a fault of the configuration, because it is not known whether there are
settings, because they are no text, by a long number in the text, or because it is nested too
deep. -/
theorem failure_of_load (fails : load disk project = .error failure) :
    (∃ c, failure = .configuration c) ∨
      (∃ refusal, disk.exists? (pathIn project) = .error refusal ∧ failure = .access refusal) ∨
      ∃ content, disk.content (pathIn project) = .ok content ∧
        ((∃ fault, content.toStrictText = .error fault ∧ failure = .undecodable fault) ∨
          (∃ text number, content.toStrictText = .ok text ∧ failure = .tooLong number ∧
            Json.LongRun text.toList number) ∨
          ∃ text place, content.toStrictText = .ok text ∧ failure = .tooDeep place ∧
            ¬ Json.Shallow text) := by
  rcases Except.bind_eq_error_iff.mp fails with unknown | ⟨there, -, fails⟩
  · obtain ⟨refusal, refused, rfl⟩ := Except.mapError_eq_error_iff.mp unknown
    exact .inr (.inl ⟨refusal, refused, rfl⟩)
  split at fails
  next =>
    rcases Except.bind_eq_error_iff.mp fails with unreadable | ⟨content, given, fails⟩
    · obtain ⟨refusal, -, rfl⟩ := Except.mapError_eq_error_iff.mp unreadable
      exact .inl ⟨_, rfl⟩
    rw [Except.mapError_eq_ok_iff] at given
    rcases Except.bind_eq_error_iff.mp fails with noText | ⟨text, decoded, fails⟩
    · obtain ⟨fault, undecodable, rfl⟩ := Except.mapError_eq_error_iff.mp noText
      exact .inr (.inr ⟨content, given, .inl ⟨fault, undecodable, rfl⟩⟩)
    rw [Except.mapError_eq_ok_iff] at decoded
    rcases failure_of_ofText fails with configuration | ⟨number, long⟩ | ⟨place, deep⟩
    · exact .inl configuration
    · exact .inr (.inr ⟨content, given, .inr (.inl ⟨text, number, decoded, long⟩)⟩)
    · exact .inr (.inr ⟨content, given, .inr (.inr ⟨text, place, decoded, deep⟩)⟩)
  next => cases fails

/-- Settings that are there are what their text writes. -/
theorem load_of_lookAt {content : Content} (clean : Disk.hasNul (pathIn project) = false)
    (stands : disk.lookAt (pathIn project) = .ok (some (.file content))) :
    load disk project =
      content.toStrictText.mapError .undecodable >>= ofText (pathIn project) := by
  have found : disk.exists? (pathIn project) = .ok true := Disk.exists?_of_lookAt clean stands
  rw [load, found, Disk.content_of_lookAt stands]
  rfl

theorem load_of_parse {content : Content} {members : Json.Members}
    (clean : Disk.hasNul (pathIn project) = false)
    (stands : disk.lookAt (pathIn project) = .ok (some (.file content)))
    (decoded : content.toStrictText = .ok text)
    (parsed : Json.parse Platform.nestingDepth text = .ok (.object members)) :
    load disk project = .ok ⟨members⟩ := by
  rw [load_of_lookAt clean stands, decoded]
  change ofText (pathIn project) text = _
  rw [ofText, parsed]
  rfl

/-- Where there is nothing but a manifest, nothing is set. -/
theorem load_manifestDisk (manifest : String) :
    load (manifestDisk manifest) Scan.application = .ok ⟨[]⟩ := by
  have leads : (manifestDisk manifest).locate Scan.application = .ok ["work", "app"] := by cbv
  have absent : (manifestDisk manifest).exists? (pathIn Scan.application) = .ok false :=
    Disk.holds_of_absent leads rfl (by decide) (by decide) rfl (by decide) (by decide) _
  rw [load, absent]
  rfl

end

theorem mem_known_of_manager? {settings : Settings} {manager : Removal.Manager}
    (given : settings.manager? = .ok (some manager)) : manager ∈ Removal.Manager.known := by
  unfold manager? at given
  split at given
  · cases given
  · cases given
  · split at given
    next found =>
      cases given
      obtain ⟨name, -, found⟩ := Option.bind_eq_some_iff.mp found
      exact Removal.Manager.mem_known_of_ofName? found
    next => cases given

end DependencyAudit.Settings
