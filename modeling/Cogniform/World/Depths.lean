import Cogniform.Lib.Ancestry
import Cogniform.World.Hierarchy

/-!
# The hierarchy check is exact

That what `hierarchyDepths` accepts is sound is in `World.Hierarchy`; here is the converse. While a
climb lasts, the entities it has passed are live and all different, so it ends before the fuel does.
And each of its errors is a fact about the parent map.
-/

namespace Cogniform

open Forest

variable {liveIds : EntitySet} {parents : ParentMap} {maxDepth : ℕ} {depths : DepthMap}

/-- Why a parent map with live endpoints is not acceptable: some entity is its own ancestor, or a
live one has too many. -/
inductive Refuted (liveIds : EntitySet) (parents : ParentMap) (maxDepth : ℕ) : Prop where
  | cycle {x : StableEntityId} (h : Above parents.parent x x)
  | depth {x : StableEntityId} (hx : x ∈ liveIds) {d : ℕ} (hd : maxDepth < d)
      (hdepth : HasDepth parents.parent x d)

theorem Leads.above {path : List StableEntityId} :
    ∀ {current : StableEntityId}, Leads parents path current →
      ∀ x ∈ path, Above parents.parent x current := by
  induction path with
  | nil => simp
  | cons y path ih =>
    rintro current ⟨hy, hpath⟩ x hx
    rcases List.mem_cons.mp hx with rfl | hx
    · exact .single hy
    · exact (ih hpath x hx).tail hy

theorem assignPathDepths_total {path : List StableEntityId} (hbound : maxDepth < 2 ^ 32) :
    ∀ {depths : DepthMap} {depth : ℕ} {current : StableEntityId},
      HasDepth parents.parent current depth → Leads parents path current →
      (∀ x ∈ path, x ∈ liveIds) →
      (∃ depths', assignPathDepths maxDepth depths depth path = .ok depths') ∨
      (∃ error, assignPathDepths maxDepth depths depth path = Exec.fail error) ∧
        Refuted liveIds parents maxDepth := by
  induction path with
  | nil =>
    intro depths depth current _ _ _
    exact .inl ⟨depths, rfl⟩
  | cons x path ih =>
    rintro depths depth current hcurrent ⟨hx, hpath⟩ hlive
    have hxdepth : HasDepth parents.parent x (depth + 1) := .step hx hcurrent
    have hxlive := hlive x (List.mem_cons_self ..)
    rw [assignPathDepths]
    split
    · split
      · rename_i hdeep
        exact .inr ⟨⟨_, rfl⟩, .depth hxlive hdeep hxdepth⟩
      · exact ih hxdepth hpath fun y hy => hlive y (List.mem_cons_of_mem _ hy)
    · rename_i hwide
      exact .inr ⟨⟨_, rfl⟩, .depth hxlive (by omega) hxdepth⟩

theorem measurePath_total (hbound : maxDepth < 2 ^ 32)
    (hedges : ∀ x p, parents[x]? = some p → x ∈ liveIds ∧ p ∈ liveIds)
    (hdepths : Measured parents maxDepth depths) {fuel : ℕ} :
    ∀ {path : List StableEntityId} {visiting : EntitySet} {current : StableEntityId},
      Leads parents path current → path.Nodup → (∀ x, x ∈ visiting ↔ x ∈ path) →
      (∀ x ∈ path, x ∈ liveIds) → current ∈ liveIds → liveIds.size < fuel + path.length →
      (∃ depths', measurePath parents maxDepth depths fuel path visiting current = .ok depths') ∨
      (∃ error, measurePath parents maxDepth depths fuel path visiting current =
          Exec.fail error) ∧ Refuted liveIds parents maxDepth := by
  induction fuel with
  | zero =>
    -- the path is a list of different live entities
    intro path visiting current _ hnodup _ hlive _ hfuel
    have hle : path.length ≤ liveIds.toList.length :=
      (List.subperm_of_subset hnodup fun x hx =>
        Std.ExtTreeSet.mem_toList.mpr (hlive x hx)).length_le
    rw [Std.ExtTreeSet.length_toList] at hle
    omega
  | succ fuel ih =>
    intro path visiting current hpath hnodup hvisiting hlive hcurrent hfuel
    rw [measurePath]
    split
    · rename_i known hknown
      exact assignPathDepths_total hbound (hdepths _ _ hknown).2 hpath hlive
    split
    · rename_i hrepeat
      exact .inr ⟨⟨_, rfl⟩, .cycle (hpath.above current ((hvisiting current).mp hrepeat))⟩
    rename_i hfresh
    rw [hvisiting] at hfresh
    split
    · rename_i parentId hparent
      refine ih ⟨hparent, hpath⟩ (List.nodup_cons.mpr ⟨hfresh, hnodup⟩) (fun x => ?_)
        (fun x hx => ?_) (hedges current parentId hparent).2 ?_
      · rw [TreeSet.mem_insert, hvisiting, List.mem_cons]
      · rcases List.mem_cons.mp hx with rfl | hx
        exacts [hcurrent, hlive x hx]
      · rw [List.length_cons]
        omega
    · rename_i hroot
      exact assignPathDepths_total hbound (.root hroot) hpath hlive

theorem measureEntities_total (hbound : maxDepth < 2 ^ 32)
    (hedges : ∀ x p, parents[x]? = some p → x ∈ liveIds ∧ p ∈ liveIds)
    {ids : List StableEntityId} :
    ∀ {depths : DepthMap}, Measured parents maxDepth depths → (∀ x ∈ ids, x ∈ liveIds) →
      (∃ depths', ids.foldlM (measureEntity liveIds parents maxDepth) depths = .ok depths') ∨
      (∃ error, ids.foldlM (measureEntity liveIds parents maxDepth) depths = Exec.fail error) ∧
        Refuted liveIds parents maxDepth := by
  induction ids with
  | nil => exact fun {depths} _ _ => .inl ⟨depths, rfl⟩
  | cons start ids ih =>
    intro depths hdepths hlive
    have hone : (∃ depths', measureEntity liveIds parents maxDepth depths start = .ok depths') ∨
        (∃ error, measureEntity liveIds parents maxDepth depths start = Exec.fail error) ∧
          Refuted liveIds parents maxDepth := by
      rw [measureEntity]
      split
      · exact .inl ⟨depths, rfl⟩
      · have hstart : Leads parents [] start := trivial
        exact measurePath_total hbound hedges hdepths hstart .nil (by simp) (by simp)
          (hlive start (List.mem_cons_self ..)) (by simp)
    rw [List.foldlM_cons]
    rcases hone with ⟨depths', hok⟩ | ⟨⟨error, hfail⟩, hrefuted⟩
    · rw [hok, Exec.ok_bind]
      exact ih (measureEntity_spec hdepths hok).1 fun x hx => hlive x (List.mem_cons_of_mem _ hx)
    · rw [hfail]
      exact .inr ⟨⟨error, rfl⟩, hrefuted⟩

theorem danglingEdge_eq_none : danglingEdge liveIds parents = none ↔
    ∀ x p, parents[x]? = some p → x ∈ liveIds ∧ p ∈ liveIds := by
  rw [danglingEdge, List.find?_eq_none]
  constructor
  · intro h x p hx
    simpa using h _ (Std.ExtTreeMap.mem_toList_iff_getElem?_eq_some.mpr hx)
  · rintro h ⟨x, p⟩ hmem
    simpa using h x p (Std.ExtTreeMap.mem_toList_iff_getElem?_eq_some.mp hmem)

/-- **The hierarchy check is exact.** It returns on every parent map. It accepts exactly when every
endpoint is live, nothing is its own ancestor, and no live entity has more ancestors than allowed;
and then the depth of a live entity is the number of its ancestors. -/
theorem hierarchyDepths_exact (liveIds : EntitySet) (parents : ParentMap) (maxDepth : UInt32) :
    (hierarchyDepths liveIds parents maxDepth.toNat).Returns ∧
    ((∃ depths, hierarchyDepths liveIds parents maxDepth.toNat = .ok depths) ↔
      (∀ x p, parents[x]? = some p → x ∈ liveIds ∧ p ∈ liveIds) ∧
      (∀ x, ¬ Above parents.parent x x) ∧
      ∀ x ∈ liveIds, (ancestors parents.parent x).ncard ≤ maxDepth.toNat) ∧
    ∀ depths, hierarchyDepths liveIds parents maxDepth.toNat = .ok depths →
      ∀ x ∈ liveIds, depths[x]? = some (ancestors parents.parent x).ncard := by
  have hempty : Measured parents maxDepth.toNat ∅ := by
    intro x d hx
    simp at hx
  have hrun : (∀ x p, parents[x]? = some p → x ∈ liveIds ∧ p ∈ liveIds) →
      (∃ depths, hierarchyDepths liveIds parents maxDepth.toNat = .ok depths) ∨
      (∃ error, hierarchyDepths liveIds parents maxDepth.toNat = Exec.fail error) ∧
        Refuted liveIds parents maxDepth.toNat := by
    intro hedges
    rw [hierarchyDepths, danglingEdge_eq_none.mpr hedges]
    exact measureEntities_total maxDepth.toNat_lt hedges hempty fun x hx =>
      Std.ExtTreeSet.mem_toList.mp hx
  refine ⟨?_, ⟨?_, ?_⟩, fun depths hok x hx => ?_⟩
  · cases hdangling : danglingEdge liveIds parents with
    | some edge =>
      rw [hierarchyDepths, hdangling]
      exact .fail _
    | none =>
      rcases hrun (danglingEdge_eq_none.mp hdangling) with ⟨depths, hok⟩ | ⟨⟨error, hfail⟩, -⟩
      · rw [hok]
        exact .ok depths
      · rw [hfail]
        exact .fail error
  · rintro ⟨depths, hok⟩
    obtain ⟨hedges, hsound⟩ := hierarchyDepths_sound hok
    refine ⟨hedges, fun x => ?_, fun x hx => ?_⟩
    · obtain ⟨d, hd⟩ := acyclic_of_hierarchyDepths hok x
      exact hd.not_above_self
    · obtain ⟨d, hle, hd, -⟩ := hsound x hx
      exact hd.ancestors.2.trans_le hle
  · rintro ⟨hedges, hacyclic, hcount⟩
    rcases hrun hedges with hok | ⟨-, hrefuted⟩
    · exact hok
    · cases hrefuted with
      | cycle h => exact absurd h (hacyclic _)
      | @depth x hx d hd hdepth =>
        have hle := hcount x hx
        rw [hdepth.ancestors.2] at hle
        omega
  · obtain ⟨d, -, hd, hfound⟩ := (hierarchyDepths_sound hok).2 x hx
    rw [hfound, hd.ancestors.2]

/-- The errors of the check: an entity reported on a cycle is its own ancestor, and a reported edge
has an endpoint that is not live. -/
inductive Blames (liveIds : EntitySet) (parents : ParentMap) : WorldApplyError → Prop where
  | cycle {x : StableEntityId} (h : Above parents.parent x x) :
      Blames liveIds parents (.hierarchyCycle x)
  | edge {x p : StableEntityId} (hedge : parents[x]? = some p) (h : ¬(x ∈ liveIds ∧ p ∈ liveIds)) :
      Blames liveIds parents (.hierarchyParentNotFound x p)
  | depth (x : StableEntityId) (depth limit : ℕ) :
      Blames liveIds parents (.hierarchyDepthExceeded x depth limit)

theorem assignPathDepths_blames (path : List StableEntityId) :
    ∀ (depths : DepthMap) (depth : ℕ),
      Exec.FailsWith (Blames liveIds parents) (assignPathDepths maxDepth depths depth path) := by
  induction path with
  | nil => exact fun depths _ => .ok depths
  | cons entityId path ih =>
    intro depths depth
    rw [assignPathDepths]
    split
    · split
      · exact .fail (.depth ..)
      · exact ih _ _
    · exact .fail (.depth ..)

theorem measurePath_blames (fuel : ℕ) :
    ∀ {path : List StableEntityId} {visiting : EntitySet} {current : StableEntityId},
      Leads parents path current → (∀ x ∈ visiting, x ∈ path) →
      Exec.FailsWith (Blames liveIds parents)
        (measurePath parents maxDepth depths fuel path visiting current) := by
  induction fuel with
  | zero => exact fun _ _ => .diverge
  | succ fuel ih =>
    intro path visiting current hpath hvisiting
    rw [measurePath]
    split
    · exact assignPathDepths_blames path _ _
    split
    · rename_i hrepeat
      exact .fail (.cycle (hpath.above current (hvisiting current hrepeat)))
    split
    · rename_i parentId hparent
      refine ih ⟨hparent, hpath⟩ fun x hx => ?_
      rcases TreeSet.mem_insert.mp hx with rfl | hx
      exacts [List.mem_cons_self, List.mem_cons_of_mem _ (hvisiting x hx)]
    · exact assignPathDepths_blames path _ _

theorem hierarchyDepths_blames (liveIds : EntitySet) (parents : ParentMap) (maxDepth : ℕ) :
    Exec.FailsWith (Blames liveIds parents) (hierarchyDepths liveIds parents maxDepth) := by
  rw [hierarchyDepths]
  split
  · rename_i entityId parentId hdangling
    have hmem := List.mem_of_find?_eq_some hdangling
    have hbad := List.find?_some hdangling
    refine .fail (.edge (Std.ExtTreeMap.mem_toList_iff_getElem?_eq_some.mp hmem) fun hlive => ?_)
    simp [Std.ExtTreeSet.contains_iff_mem.mpr hlive.1,
      Std.ExtTreeSet.contains_iff_mem.mpr hlive.2] at hbad
  · refine .foldlM (fun depths start => ?_) _ _
    rw [measureEntity]
    split
    · exact .ok depths
    · have hstart : Leads parents [] start := trivial
      exact measurePath_blames _ hstart (by simp)

end Cogniform
