import DependencyAudit.FileSystem.RealPath
import Mathlib.Data.List.Basic

namespace DependencyAudit.FileSystem.Disk

variable {d : Disk}

theorem lookup_filter_ne {place other : Place} (apart : other ≠ place)
    (nodes : List (Place × DiskNode)) :
    (nodes.filter fun old => old.1 ≠ place).lookup other = nodes.lookup other := by
  induction nodes with
  | nil => rfl
  | cons first rest ih =>
    obtain ⟨at_, node⟩ := first
    by_cases here : at_ = place
    · subst here
      have notThere : (other == at_) = false := beq_eq_false_iff_ne.mpr apart
      rw [List.filter_cons_of_neg (by simp), List.lookup_cons, notThere, ih]
    · rw [List.filter_cons_of_pos (by simpa using here), List.lookup_cons, List.lookup_cons, ih]

theorem node?_put_self (place : Place) (node : DiskNode) :
    (d.put place node).node? place = some node := by
  simp [node?, put]

/-- What stands elsewhere stands there still. -/
theorem node?_put_of_ne {place other : Place} {node found : DiskNode} (apart : other ≠ place)
    (stands : d.node? other = some found) : (d.put place node).node? other = some found := by
  have notThere : (other == place) = false := beq_eq_false_iff_ne.mpr apart
  have same : (d.put place node).nodes.lookup other = d.nodes.lookup other := by
    rw [put]
    dsimp only
    rw [List.lookup_cons, notThere]
    exact lookup_filter_ne apart d.nodes
  unfold node? at stands ⊢
  rw [same]
  split at stands
  next => exact stands
  next =>
    split at stands
    next above =>
      cases stands
      refine if_pos (above.imp_right fun below => ?_)
      obtain ⟨old, entered, isPrefix⟩ := List.any_eq_true.mp below
      refine List.any_eq_true.mpr ?_
      by_cases replaced : old.1 = place
      · exact ⟨(place, node), List.mem_cons_self, replaced ▸ isPrefix⟩
      · refine ⟨old, List.mem_cons_of_mem _ (List.mem_filter.mpr ⟨entered, ?_⟩), isPrefix⟩
        simpa using replaced
    · cases stands

/-- The place of a link is not gone through, and what is below it is not reached. -/
theorem not_prefix_of_follow {creating : Bool} {links : Nat} {start last link : Place}
    {names : List String} {target : String} (isLink : d.node? link = some (.link target))
    (outside : ¬ link <+: start) (leads : d.follow creating links start names = .ok last)
    (below : link ≠ []) : ¬ link <+: last := by
  have deeper : ∀ {place : Place} {name : String}, ¬ link <+: place → place ++ [name] ≠ link →
      ¬ link <+: place ++ [name] := by
    intro place name apart other inside
    rcases List.prefix_concat_iff.mp (by simpa using inside) with same | within
    · exact other (by simpa using same.symm)
    · exact apart within
  fun_induction follow d creating links start names generalizing last with
  | case1 =>
    cases leads
    exact outside
  | case2 links start rest isDir ih => exact ih outside leads
  | case3 links start rest isDir notHere ih =>
    exact ih (fun inside => outside (inside.trans (List.dropLast_prefix start))) leads
  | case4 => cases leads
  | case5 links start name rest isDir notHere notUp short absent alone =>
    cases leads
    refine deeper outside fun same => ?_
    rw [same, isLink] at absent
    cases absent
  | case6 => cases leads
  | case7 => cases leads
  | case8 start name rest isDir notHere notUp short target' isLink' links ih =>
    refine ih (fun inside => ?_) leads
    unfold origin at inside
    split at inside
    · exact outside inside
    · exact below (List.prefix_nil.mp inside)
  | case9 links start name rest isDir notHere notUp short node notLink stands ih =>
    refine ih (deeper outside fun same => ?_) leads
    rw [same, isLink] at stands
    cases stands
    exact notLink target rfl
  | case10 => cases leads

/-- Names that lead to a place at which no directory stands lead to it when a file has been put
there. -/
theorem follow_put {links : Nat} {start final : Place} {names : List String} {content : Content}
    (leads : d.follow true links start names = .ok final)
    (notDir : d.node? final ≠ some .directory) :
    (d.put final (.file content)).follow false links start names = .ok final := by
  have stays : ∀ {place : Place}, d.node? place = some .directory →
      (d.put final (.file content)).node? place = some .directory := by
    intro place isDir
    exact node?_put_of_ne (fun same => notDir (same ▸ isDir)) isDir
  generalize creates : true = creating at leads
  fun_induction follow d creating links start names with
  | case1 =>
    cases leads
    rw [follow]
  | case2 links start rest isDir ih =>
    rw [follow, stays isDir]
    simpa using ih leads
  | case3 links start rest isDir notHere ih =>
    rw [follow, stays isDir]
    simpa [notHere] using ih leads
  | case4 => cases leads
  | case5 links start name rest isDir notHere notUp short absent alone =>
    cases leads
    obtain ⟨-, rfl⟩ := alone
    rw [follow, stays isDir]
    simp only [notHere, notUp, short, if_false, node?_put_self]
    rw [follow]
  | case6 => cases leads
  | case7 => cases leads
  | case8 start name rest isDir notHere notUp short target isLink links ih =>
    have outside : ¬ start ++ [name] <+: origin start (Path.ofString target) := by
      intro inside
      have shorter : (origin start (Path.ofString target)).length ≤ start.length := by
        unfold origin
        split
        · exact Nat.le_refl _
        · exact Nat.zero_le _
      have longer := inside.length_le
      rw [List.length_append, List.length_singleton] at longer
      omega
    have apart := not_prefix_of_follow isLink outside leads (by simp)
    have other : start ++ [name] ≠ final := fun same => apart (same ▸ List.prefix_rfl)
    have isLink' : (d.put final (.file content)).node? (start ++ [name]) = some (.link target) :=
      node?_put_of_ne other isLink
    rw [follow, stays isDir]
    simp only [notHere, notUp, short, if_false, isLink']
    exact ih leads
  | case9 links start name rest isDir notHere notUp short node notLink stands ih =>
    have goesOn := ih leads
    rw [follow, stays isDir]
    simp only [notHere, notUp, short, if_false]
    by_cases same : start ++ [name] = final
    · rw [same, node?_put_self]
      rwa [same] at goesOn
    · rw [node?_put_of_ne same stands]
      simpa using goesOn
  | case10 => cases leads

/-- What has been written to a file is what is read from it. -/
theorem content_of_write {p : Path} {text : String} {written : Disk}
    (wrote : d.write p text = .ok written) : written.content p = .ok (.text text) := by
  unfold write at wrote
  split at wrote
  next => cases wrote
  next short =>
    split at wrote
    next => cases wrote
    next place leads =>
      split at wrote
      next => cases wrote
      next notDir =>
        cases wrote
        have located : (d.put place (.file (.text text))).locate p = .ok place := by
          rw [locate, if_neg short]
          exact follow_put leads notDir
        rw [content, lookAt, located]
        simp [Except.map, node?_put_self]

end DependencyAudit.FileSystem.Disk
