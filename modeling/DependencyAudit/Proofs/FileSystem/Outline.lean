import DependencyAudit.Proofs.Except
import DependencyAudit.Proofs.FileSystem.Memory
import DependencyAudit.Proofs.FileSystem.Writing

namespace DependencyAudit.FileSystem

/-- What stands somewhere, without the content of a file. -/
def DiskNode.blank : DiskNode → DiskNode
  | .file _ => .file (.text "")
  | node => node

/-- What stands somewhere, with other content if it is a file. -/
def DiskNode.refill (content : Content) : DiskNode → DiskNode
  | .file _ => .file content
  | node => node

namespace Disk

/-- A disk with something else at each of its places. -/
def mapNodes (value : Place → DiskNode → DiskNode) (d : Disk) : Disk where
  nodes := d.nodes.map fun node => (node.1, value node.1 node.2)
  here := d.here

/-- A disk without what its files hold. -/
def outline (d : Disk) : Disk := d.mapNodes fun _ => DiskNode.blank

/-- A disk with other content in the file at a place, if there is one. -/
def refill (d : Disk) (place : Place) (content : Content) : Disk :=
  d.mapNodes fun at_ node => if at_ = place then node.refill content else node

variable {d d' : Disk} {p : Path} {place other : Place} {names : List String}

theorem node?_mapNodes {value : Place → DiskNode → DiskNode}
    (keeps : value place .directory = .directory) :
    (d.mapNodes value).node? place = (d.node? place).map (value place) := by
  have looked : (d.mapNodes value).nodes.lookup place = (d.nodes.lookup place).map (value place) :=
    lookup_map Function.injective_id value d.nodes place
  have below : (d.mapNodes value).nodes.any (fun node => place.isPrefixOf node.1) =
      d.nodes.any fun node => place.isPrefixOf node.1 := List.any_map
  have here : (d.mapNodes value).here = d.here := rfl
  unfold node?
  rw [looked, below, here]
  cases d.nodes.lookup place with
  | some node => rfl
  | none =>
    by_cases there : place.isPrefixOf d.here ∨ d.nodes.any fun node => place.isPrefixOf node.1
    · simp only [there, if_true, Option.map_none, Option.map_some, keeps]
    · simp only [there, if_false, Option.map_none]

theorem node?_outline : d.outline.node? place = (d.node? place).map DiskNode.blank :=
  node?_mapNodes rfl

theorem node?_refill_of_ne (apart : other ≠ place) (content : Content) :
    (d.refill place content).node? other = d.node? other := by
  refine (node?_mapNodes ?_).trans ?_
  · exact if_neg apart
  · simp only [apart, if_false, Option.map_id']

theorem outline_refill (d : Disk) (place : Place) (content : Content) :
    (d.refill place content).outline = d.outline := by
  have blank : ∀ node : DiskNode, (node.refill content).blank = node.blank := by
    intro node
    cases node <;> rfl
  unfold outline refill mapNodes
  rw [List.map_map]
  congr 1
  refine List.map_congr_left fun node _ => ?_
  dsimp only [Function.comp]
  split
  · rw [blank]
  · rfl

theorem follow_outline {creating : Bool} {links : Nat} :
    d.outline.follow creating links place names = d.follow creating links place names := by
  -- The way depends on where directories and links are, and they have no content to lose.
  fun_induction follow d creating links place names with
  | case1 => rw [follow]
  | case2 links place rest isDir ih =>
    rw [follow, node?_outline, isDir]
    simpa [DiskNode.blank] using ih
  | case3 links place rest isDir notHere ih =>
    rw [follow, node?_outline, isDir]
    simpa [DiskNode.blank, notHere] using ih
  | case4 links place name rest isDir notHere notUp long =>
    rw [follow, node?_outline, isDir]
    simp [DiskNode.blank, notHere, notUp, long]
  | case5 links place name rest isDir notHere notUp short absent alone =>
    rw [follow, node?_outline, node?_outline, isDir, absent]
    simp [DiskNode.blank, notHere, notUp, short, alone]
  | case6 links place name rest isDir notHere notUp short absent others =>
    rw [follow, node?_outline, node?_outline, isDir, absent]
    simp [DiskNode.blank, notHere, notUp, short, others]
  | case7 place name rest isDir notHere notUp short target isLink =>
    rw [follow, node?_outline, node?_outline, isDir, isLink]
    simp [DiskNode.blank, notHere, notUp, short]
  | case8 place name rest isDir notHere notUp short target isLink links ih =>
    rw [follow, node?_outline, node?_outline, isDir, isLink]
    simpa [DiskNode.blank, notHere, notUp, short] using ih
  | case9 links place name rest isDir notHere notUp short node notLink stands ih =>
    rw [follow, node?_outline, node?_outline, isDir, stands]
    cases node with
    | link target => exact absurd rfl (notLink target)
    | _ => simpa [DiskNode.blank, notHere, notUp, short] using ih
  | case10 links place name rest noDir =>
    rw [follow, node?_outline]
    cases stands : d.node? place with
    | none => rfl
    | some node =>
      cases node with
      | directory => exact absurd stands noDir
      | _ => rfl

theorem node?_outline_of_link {target : String} (isLink : d.node? place = some (.link target)) :
    d.outline.node? place = some (.link target) := by
  rw [node?_outline, isLink]
  rfl

theorem locate_outline : d.outline.locate p = d.locate p := by
  unfold locate
  rw [follow_outline]
  rfl

theorem lookAt_outline : d.outline.lookAt p = (d.lookAt p).map (Option.map DiskNode.blank) := by
  unfold lookAt
  rw [locate_outline]
  cases d.locate p with
  | error dead => rfl
  | ok place => exact congrArg Except.ok node?_outline

theorem realPlace_outline {deep : Nat} {open_ : List Place} :
    d.outline.realPlace deep open_ place names = d.realPlace deep open_ place names := by
  fun_induction realPlace d deep open_ place names with
  | case1 => rw [realPlace]
  | case2 deep open_ place rest ih =>
    rw [realPlace]
    exact ih
  | case3 deep open_ place name rest notUp stays ih =>
    rw [realPlace, if_neg notUp, if_pos stays]
    exact ih
  | case4 open_ place name rest notUp moves next target isLink =>
    rw [realPlace, if_neg notUp, if_neg moves]
    dsimp only
    rw [node?_outline_of_link isLink]
  | case5 open_ place name rest notUp moves next target isLink deeper again =>
    rw [realPlace, if_neg notUp, if_neg moves]
    dsimp only
    rw [node?_outline_of_link isLink]
    exact if_pos again
  | case6 open_ place name rest notUp moves next target isLink deeper fresh loop left stops ih =>
    rw [realPlace, if_neg notUp, if_neg moves]
    dsimp only
    rw [node?_outline_of_link isLink]
    refine (if_neg fresh).trans ?_
    rw [ih, stops]
  | case7 open_ place name rest notUp moves next target isLink deeper fresh reached leads ih₁ ih₂ =>
    rw [realPlace, if_neg notUp, if_neg moves]
    dsimp only
    rw [node?_outline_of_link isLink]
    refine (if_neg fresh).trans ?_
    rw [ih₁, leads]
    exact ih₂
  | case8 deep open_ place name rest notUp moves next notLink ih =>
    rw [realPlace, if_neg notUp, if_neg moves]
    dsimp only
    rw [node?_outline]
    cases stands : d.node? next with
    | none => exact ih
    | some node =>
      cases node with
      | link target => exact (notLink target stands).elim
      | _ => exact ih

theorem realPath_outline : d.outline.realPath p = d.realPath p := by
  have size : d.outline.nodes.length = d.nodes.length := List.length_map _
  unfold realPath
  rw [realPlace_outline, size]
  simp only [locate_outline]
  rfl

theorem namesIn_outline : d.outline.namesIn place = d.namesIn place := by
  unfold namesIn outline mapNodes
  rw [List.filterMap_map]
  rfl

theorem kindOf_outline : d.outline.kindOf place = d.kindOf place := by
  unfold kindOf
  rw [node?_outline]
  cases d.node? place with
  | none => rfl
  | some node => cases node <;> rfl

theorem list_outline : d.outline.list p = d.list p := by
  unfold list
  rw [locate_outline]
  cases d.locate p with
  | error dead => rfl
  | ok place =>
    dsimp only
    rw [node?_outline, namesIn_outline]
    simp only [kindOf_outline]
    cases d.node? place with
    | none => rfl
    | some node => cases node <;> rfl

theorem holds_outline {asks : DiskNode → Bool} (blind : ∀ node : DiskNode, asks node.blank = asks node) :
    d.outline.holds p asks = d.holds p asks := by
  unfold holds
  rw [lookAt_outline]
  split
  · rfl
  cases d.lookAt p with
  | error dead => rfl
  | ok found =>
    cases found with
    | none => rfl
    | some node => exact congrArg Except.ok (blind node)

theorem outline_put {node : DiskNode} : (d.put place node).outline = d.outline.put place node.blank := by
  unfold put outline mapNodes
  rw [List.map_cons, List.filter_map]
  rfl

theorem outline_outline : d.outline.outline = d.outline := by
  have blank : ∀ node : DiskNode, node.blank.blank = node.blank := by
    intro node
    cases node <;> rfl
  unfold outline mapNodes
  rw [List.map_map]
  simp only [Function.comp_def, blank]

theorem map_outline_write {text : String} :
    (d.outline.write p text).map outline = (d.write p text).map outline := by
  have origin : origin d.outline.here p = origin d.here p := rfl
  unfold write
  rw [origin, follow_outline]
  split
  · rfl
  cases d.follow true linkLimit (Disk.origin d.here p) p.names with
  | error dead => rfl
  | ok place =>
    dsimp only
    rw [node?_outline]
    have written : ((d.outline.put place (.file (.text text))).outline) =
        (d.put place (.file (.text text))).outline := by
      rw [outline_put, outline_put, outline_outline]
    cases stands : d.node? place with
    | none => exact congrArg Except.ok written
    | some node =>
      cases node with
      | directory => rfl
      | _ => exact congrArg Except.ok written

section

variable (same : d.outline = d'.outline)
include same

theorem locate_eq_of_outline_eq (p : Path) : d.locate p = d'.locate p := by
  rw [← locate_outline, same, locate_outline]

theorem realPath_eq_of_outline_eq (p : Path) : d.realPath p = d'.realPath p := by
  rw [← realPath_outline, same, realPath_outline]

theorem holds_eq_of_outline_eq {asks : DiskNode → Bool}
    (blind : ∀ node : DiskNode, asks node.blank = asks node) (p : Path) :
    d.holds p asks = d'.holds p asks := by
  rw [← holds_outline blind, same, holds_outline blind]

/-- A file is read alike where both disks hold the same. -/
theorem content_eq_of_outline_eq
    (agree : ∀ place, d.locate p = .ok place → d.node? place = d'.node? place) :
    d.content p = d'.content p := by
  unfold content lookAt
  rw [← locate_eq_of_outline_eq same]
  cases leads : d.locate p with
  | error dead => rfl
  | ok place =>
    simp only [Except.map, agree place leads]

theorem write_eq_of_outline_eq (p : Path) (text : String) :
    (∃ refusal, d.write p text = .error refusal ∧ d'.write p text = .error refusal) ∨
      ∃ written written', d.write p text = .ok written ∧ d'.write p text = .ok written' ∧
        written.outline = written'.outline := by
  have alike : (d.write p text).map outline = (d'.write p text).map outline := by
    rw [← map_outline_write, same, map_outline_write]
  cases wrote : d.write p text with
  | error refusal =>
    rw [wrote] at alike
    exact .inl ⟨refusal, rfl, Except.map_eq_error_iff.mp alike.symm⟩
  | ok written =>
    rw [wrote] at alike
    obtain ⟨written', wrote', outlines⟩ := Except.map_eq_ok_iff.mp alike.symm
    exact .inr ⟨written, written', rfl, wrote', outlines.symm⟩

end

/-- Two disks differ at most in what the file at a place holds. -/
structure DiffersAt (d d' : Disk) (place : Place) : Prop where
  outline_eq : d.outline = d'.outline
  elsewhere : ∀ other, other ≠ place → d.node? other = d'.node? other

theorem differsAt_refill (d : Disk) (place : Place) (content : Content) :
    d.DiffersAt (d.refill place content) place where
  outline_eq := (outline_refill d place content).symm
  elsewhere _ apart := (node?_refill_of_ne apart content).symm

/-- What a path that leads elsewhere holds is the same. -/
theorem DiffersAt.read_eq (differs : d.DiffersAt d' place) (apart : d.locate p ≠ .ok place) :
    d.view.read p = d'.view.read p := by
  have same : d.content p = d'.content p :=
    content_eq_of_outline_eq differs.outline_eq fun other leads =>
      differs.elsewhere other fun here => apart (here ▸ leads)
  change (d.content p).map Content.toText = (d'.content p).map Content.toText
  rw [same]

/-- Paths that lead to one place hold the same. -/
theorem content_of_leads {q : Path} {content : Content} (leads : d.locate p = .ok place)
    (leads' : d.locate q = .ok place) (holds : d.content p = .ok content) :
    d.content q = .ok content := by
  unfold Disk.content lookAt at holds ⊢
  rw [leads] at holds
  rw [leads']
  dsimp only [Except.map] at holds ⊢
  split at holds
  all_goals simp_all

theorem exists?_of_leads {q : Path} (leads : d.locate p = .ok place)
    (leads' : d.locate q = .ok place) (clean : hasNul q = hasNul p)
    (there : d.exists? p = .ok true) : d.exists? q = .ok true := by
  unfold exists? holds lookAt at there ⊢
  rw [leads] at there
  rw [leads', clean]
  dsimp only [Except.map] at there ⊢
  split at there
  next => cases there
  next noNul =>
    rw [if_neg noNul]
    cases stands : d.node? place with
    | none =>
      rw [stands] at there
      cases there
    | some node => rfl

end Disk

/-- Two views answer alike what exists, what is a directory, and what a directory lists. -/
structure View.Alike (view other : View) : Prop where
  exists? : view.exists? = other.exists?
  isDirectory : view.isDirectory = other.isDirectory
  list : view.list = other.list

theorem Disk.alike_of_outline_eq {d d' : Disk} (same : d.outline = d'.outline) :
    d.view.Alike d'.view where
  exists? := funext fun p => holds_eq_of_outline_eq same (fun _ => rfl) p
  isDirectory := by
    refine funext fun p => holds_eq_of_outline_eq same (fun node => ?_) p
    cases node <;> rfl
  list := by
    refine funext fun p => ?_
    change d.list p = d'.list p
    rw [← list_outline, same, list_outline]

end DependencyAudit.FileSystem
