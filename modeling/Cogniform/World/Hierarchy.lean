import Cogniform.Lib.Forest
import Cogniform.World.Basic

/-!
# Hierarchy checks and propagation order

`hierarchyDepths` checks a parent map: its endpoints are live, it has no cycle, and no entity is
deeper than the configured bound. `affectedEntities` lists the entities whose derived transform has
to be recomputed, with every affected parent before its children. Both loops carry fuel here;
running out of it stands for a loop that does not end.
-/

namespace Cogniform

open Forest

abbrev ParentMap := Std.ExtTreeMap StableEntityId StableEntityId

abbrev ChildMap := Std.ExtTreeMap StableEntityId (Std.ExtTreeSet StableEntityId)

abbrev EntitySet := Std.ExtTreeSet StableEntityId

abbrev DepthMap := Std.ExtTreeMap StableEntityId ℕ

def ParentMap.parent (parents : ParentMap) (entityId : StableEntityId) : Option StableEntityId :=
  parents[entityId]?

/-! ### Depths -/

def assignPathDepths (maxDepth : ℕ) :
    DepthMap → ℕ → List StableEntityId → Exec WorldApplyError DepthMap
  | depths, _, [] => .ok depths
  | depths, depth, entityId :: path =>
    if depth + 1 < 2 ^ 32 then
      if maxDepth < depth + 1 then
        Exec.fail (.hierarchyDepthExceeded entityId (depth + 1) maxDepth)
      else assignPathDepths maxDepth (depths.insert entityId (depth + 1)) (depth + 1) path
    else Exec.fail (.hierarchyDepthExceeded entityId (2 ^ 32 - 1) maxDepth)

/-- Climb from an entity to a measured one or to a root, then assign depths along the way back.
The path has its last entity first. -/
def measurePath (parents : ParentMap) (maxDepth : ℕ) (depths : DepthMap) :
    ℕ → List StableEntityId → EntitySet → StableEntityId → Exec WorldApplyError DepthMap
  | 0, _, _, _ => .error .diverge
  | fuel + 1, path, visiting, current =>
    match depths[current]? with
    | some knownDepth => assignPathDepths maxDepth depths knownDepth path
    | none =>
      if current ∈ visiting then Exec.fail (.hierarchyCycle current)
      else
        match parents[current]? with
        | some parentId =>
          measurePath parents maxDepth depths fuel (current :: path) (visiting.insert current)
            parentId
        | none => assignPathDepths maxDepth (depths.insert current 0) 0 path

def measureEntity (liveIds : EntitySet) (parents : ParentMap) (maxDepth : ℕ) (depths : DepthMap)
    (start : StableEntityId) : Exec WorldApplyError DepthMap :=
  if start ∈ depths then .ok depths
  else measurePath parents maxDepth depths (liveIds.size + 1) [] ∅ start

def danglingEdge (liveIds : EntitySet) (parents : ParentMap) :
    Option (StableEntityId × StableEntityId) :=
  parents.toList.find? fun edge => !liveIds.contains edge.1 || !liveIds.contains edge.2

/-- `hierarchy_depths`: the depth of every live entity, or why the hierarchy is not acceptable. -/
def hierarchyDepths (liveIds : EntitySet) (parents : ParentMap) (maxDepth : ℕ) :
    Exec WorldApplyError DepthMap :=
  match danglingEdge liveIds parents with
  | some (entityId, parentId) => Exec.fail (.hierarchyParentNotFound entityId parentId)
  | none => liveIds.toList.foldlM (measureEntity liveIds parents maxDepth) ∅

section Depths

variable {liveIds : EntitySet} {parents : ParentMap} {maxDepth : ℕ} {depths depths' : DepthMap}

def Measured (parents : ParentMap) (maxDepth : ℕ) (depths : DepthMap) : Prop :=
  ∀ x d : _, depths[x]? = some d → d ≤ maxDepth ∧ HasDepth parents.parent x d

/-- The entities of a path, last one first, climb one after the other to `current`. -/
def Leads (parents : ParentMap) : List StableEntityId → StableEntityId → Prop
  | [], _ => True
  | x :: path, current => parents.parent x = some current ∧ Leads parents path x

theorem Measured.insert (h : Measured parents maxDepth depths) {x : StableEntityId} {d : ℕ}
    (hd : d ≤ maxDepth) (hx : HasDepth parents.parent x d) :
    Measured parents maxDepth (depths.insert x d) := by
  intro y e hy
  rw [Std.ExtTreeMap.getElem?_insert] at hy
  split at hy
  · rename_i heq
    rw [Std.LawfulEqCmp.compare_eq_iff_eq] at heq
    cases heq
    cases hy
    exact ⟨hd, hx⟩
  · exact h y e hy

theorem assignPathDepths_spec {path : List StableEntityId} :
    ∀ {depths depths' : DepthMap} {depth : ℕ} {current : StableEntityId},
      Measured parents maxDepth depths → HasDepth parents.parent current depth →
      Leads parents path current → assignPathDepths maxDepth depths depth path = .ok depths' →
        Measured parents maxDepth depths' ∧ ∀ x, x ∈ depths ∨ x ∈ path → x ∈ depths' := by
  induction path with
  | nil =>
    intro depths depths' depth current hdepths _ _ h
    cases h
    exact ⟨hdepths, by simp⟩
  | cons x path ih =>
    intro depths depths' depth current hdepths hcurrent ⟨hx, hpath⟩ h
    rw [assignPathDepths] at h
    split at h
    · split at h
      · cases h
      · rename_i hle
        have hxdepth : HasDepth parents.parent x (depth + 1) := .step hx hcurrent
        obtain ⟨hmeasured, hmem⟩ :=
          ih (hdepths.insert (Nat.not_lt.mp hle) hxdepth) hxdepth hpath h
        refine ⟨hmeasured, fun y hy => hmem y ?_⟩
        rw [Std.ExtTreeMap.mem_insert, Std.LawfulEqCmp.compare_eq_iff_eq]
        rcases hy with hy | hy
        · exact .inl (.inr hy)
        · rcases List.mem_cons.mp hy with rfl | hy
          · exact .inl (.inl rfl)
          · exact .inr hy
    · cases h

theorem measurePath_spec {fuel : ℕ} :
    ∀ {path : List StableEntityId} {visiting : EntitySet} {current : StableEntityId},
      Measured parents maxDepth depths → Leads parents path current →
      measurePath parents maxDepth depths fuel path visiting current = .ok depths' →
        Measured parents maxDepth depths' ∧
          ∀ x, x ∈ depths ∨ x = current ∨ x ∈ path → x ∈ depths' := by
  induction fuel with
  | zero => intro _ _ _ _ _ h; cases h
  | succ fuel ih =>
    intro path visiting current hdepths hpath h
    rw [measurePath] at h
    split at h
    · rename_i known hknown
      obtain ⟨hmeasured, hmem⟩ := assignPathDepths_spec hdepths (hdepths _ _ hknown).2 hpath h
      have hcurrent : current ∈ depths :=
        Std.ExtTreeMap.mem_iff_isSome_getElem?.mpr (by rw [hknown]; rfl)
      refine ⟨hmeasured, fun x hx => hmem x ?_⟩
      rcases hx with hx | rfl | hx
      exacts [.inl hx, .inl hcurrent, .inr hx]
    · split at h
      · cases h
      · split at h
        · rename_i parentId hparent
          have hlead : Leads parents (current :: path) parentId := ⟨hparent, hpath⟩
          obtain ⟨hmeasured, hmem⟩ := ih hdepths hlead h
          refine ⟨hmeasured, fun x hx => hmem x ?_⟩
          rcases hx with hx | rfl | hx
          exacts [.inl hx, .inr (.inr (List.mem_cons_self ..)),
            .inr (.inr (List.mem_cons_of_mem _ hx))]
        · rename_i hroot
          have hcurrent : HasDepth parents.parent current 0 := .root hroot
          obtain ⟨hmeasured, hmem⟩ :=
            assignPathDepths_spec (hdepths.insert (Nat.zero_le _) hcurrent) hcurrent hpath h
          refine ⟨hmeasured, fun x hx => hmem x ?_⟩
          rw [Std.ExtTreeMap.mem_insert, Std.LawfulEqCmp.compare_eq_iff_eq]
          rcases hx with hx | rfl | hx
          exacts [.inl (.inr hx), .inl (.inl rfl), .inr hx]

theorem measureEntity_spec {start : StableEntityId} (hdepths : Measured parents maxDepth depths)
    (h : measureEntity liveIds parents maxDepth depths start = .ok depths') :
    Measured parents maxDepth depths' ∧ ∀ x, x ∈ depths ∨ x = start → x ∈ depths' := by
  rw [measureEntity] at h
  split at h
  · rename_i hstart
    cases h
    refine ⟨hdepths, fun x hx => ?_⟩
    rcases hx with hx | rfl
    exacts [hx, hstart]
  · obtain ⟨hmeasured, hmem⟩ := measurePath_spec hdepths (show Leads parents [] start from trivial) h
    exact ⟨hmeasured, fun x hx => hmem x (hx.imp_right .inl)⟩

theorem measureEntities_spec {ids : List StableEntityId} :
    ∀ {depths : DepthMap}, Measured parents maxDepth depths →
      ids.foldlM (measureEntity liveIds parents maxDepth) depths = .ok depths' →
        Measured parents maxDepth depths' ∧ ∀ x, x ∈ depths ∨ x ∈ ids → x ∈ depths' := by
  induction ids with
  | nil =>
    intro depths hdepths h
    cases h
    exact ⟨hdepths, by simp⟩
  | cons start ids ih =>
    intro depths hdepths h
    rw [List.foldlM_cons, Exec.bind_eq_ok] at h
    obtain ⟨middle, hstart, h⟩ := h
    obtain ⟨hmiddle, hmem⟩ := measureEntity_spec hdepths hstart
    obtain ⟨hmeasured, hmem'⟩ := ih hmiddle h
    refine ⟨hmeasured, fun x hx => hmem' x ?_⟩
    rcases hx with hx | hx
    · exact .inl (hmem x (.inl hx))
    · rcases List.mem_cons.mp hx with rfl | hx
      exacts [.inl (hmem _ (.inr rfl)), .inr hx]

/-- **Accepted hierarchies.** Endpoints are live, and every live entity has the depth found for it,
within the bound. -/
theorem hierarchyDepths_sound (h : hierarchyDepths liveIds parents maxDepth = .ok depths) :
    (∀ x p, parents[x]? = some p → x ∈ liveIds ∧ p ∈ liveIds) ∧
      ∀ x ∈ liveIds, ∃ d ≤ maxDepth, HasDepth parents.parent x d ∧ depths[x]? = some d := by
  rw [hierarchyDepths] at h
  split at h
  · cases h
  · rename_i hedges
    refine ⟨fun x p hx => ?_, fun x hx => ?_⟩
    · have hmem := Std.ExtTreeMap.mem_toList_iff_getElem?_eq_some.mpr hx
      have := List.find?_eq_none.mp hedges _ hmem
      simpa using this
    · have hempty : Measured parents maxDepth ∅ := by
        intro y d hy
        simp at hy
      obtain ⟨hmeasured, hmem⟩ := measureEntities_spec hempty h
      have hxmem := hmem x (.inr (Std.ExtTreeSet.mem_toList.mpr hx))
      obtain ⟨d, hd⟩ := Option.isSome_iff_exists.mp (Std.ExtTreeMap.mem_iff_isSome_getElem?.mp hxmem)
      exact ⟨d, (hmeasured x d hd).1, (hmeasured x d hd).2, hd⟩

end Depths

/-! ### Propagation order -/

def ChildMap.list (children : ChildMap) (entityId : StableEntityId) : List StableEntityId :=
  match children[entityId]? with
  | some descendants => descendants.toList
  | none => []

def topmostRoots (parents : ParentMap) (dirtyRoots : EntitySet) :
    List StableEntityId → Option (List StableEntityId)
  | [] => some []
  | entityId :: rest => do
    let covered ← findAbove parents.parent dirtyRoots.contains (parents.size + 1) entityId
    let roots ← topmostRoots parents dirtyRoots rest
    some (if covered then roots else entityId :: roots)

/-- `affected_entities`: the dirty entities and their descendants, in propagation order. -/
def affectedEntities (parents : ParentMap) (children : ChildMap) (dirtyRoots : EntitySet) :
    Option (List StableEntityId) := do
  let roots ← topmostRoots parents dirtyRoots dirtyRoots.toList
  traverse children.list (traverseFuel children.list children.keys roots) roots ∅ []

section Propagation

variable {parents : ParentMap} {children : ChildMap} {dirtyRoots : EntitySet}

def ParentMap.Acyclic (parents : ParentMap) : Prop := ∀ x, ∃ n, HasDepth parents.parent x n

def Reciprocal (parents : ParentMap) (children : ChildMap) : Prop :=
  ∀ x y, y ∈ children.list x ↔ parents[y]? = some x

def Affected (parents : ParentMap) (dirtyRoots : EntitySet) (x : StableEntityId) : Prop :=
  ∃ r ∈ dirtyRoots, x = r ∨ Above parents.parent x r

theorem acyclic_of_hierarchyDepths {liveIds : EntitySet} {maxDepth : ℕ} {depths : DepthMap}
    (h : hierarchyDepths liveIds parents maxDepth = .ok depths) : parents.Acyclic := by
  intro x
  cases hx : parents[x]? with
  | none => exact ⟨0, .root hx⟩
  | some p =>
    obtain ⟨hedges, hdepths⟩ := hierarchyDepths_sound h
    obtain ⟨d, -, hd, -⟩ := hdepths x (hedges x p hx).1
    exact ⟨d, hd⟩

theorem Affected.child {x y : StableEntityId} (hx : Affected parents dirtyRoots x)
    (hy : parents[y]? = some x) : Affected parents dirtyRoots y := by
  obtain ⟨r, hr, rfl | habove⟩ := hx
  · exact ⟨x, hr, .inr (.single hy)⟩
  · exact ⟨r, hr, .inr (.head hy habove)⟩

theorem topmostRoots_spec (hacyclic : parents.Acyclic) (dirtyRoots : EntitySet)
    (ids : List StableEntityId) :
    ∃ roots, topmostRoots parents dirtyRoots ids = some roots ∧
      ∀ x, x ∈ roots ↔ x ∈ ids ∧ ∀ a, Above parents.parent x a → a ∉ dirtyRoots := by
  induction ids with
  | nil => exact ⟨[], rfl, by simp⟩
  | cons id ids ih =>
    obtain ⟨roots, hroots, hmem⟩ := ih
    obtain ⟨n, hn⟩ := hacyclic id
    have hbound : n < parents.size + 1 := by
      have := hn.le_length fun y p hy =>
        Std.ExtTreeMap.mem_keys.mpr (Std.ExtTreeMap.mem_iff_isSome_getElem?.mpr
          (by rw [ParentMap.parent] at hy; rw [hy]; rfl))
      rw [Std.ExtTreeMap.length_keys] at this
      exact Nat.lt_succ_of_le this
    obtain ⟨covered, hcovered, hiff⟩ := findAbove_eq dirtyRoots.contains hn hbound
    refine ⟨if covered then roots else id :: roots, ?_, fun x => ?_⟩
    · simp [topmostRoots, hcovered, hroots]
    · have hid : covered = false ↔ ∀ a, Above parents.parent id a → a ∉ dirtyRoots := by
        rw [← Bool.not_eq_true, hiff]
        simp [Std.ExtTreeSet.contains_iff_mem]
      cases hc : covered with
      | true =>
        have hnot : ¬ ∀ a, Above parents.parent id a → a ∉ dirtyRoots := by
          rw [← hid, hc]
          simp
        simp only [if_true, hmem x, List.mem_cons]
        constructor
        · exact fun ⟨h, h'⟩ => ⟨.inr h, h'⟩
        · rintro ⟨rfl | h, h'⟩
          exacts [absurd h' hnot, ⟨h, h'⟩]
      | false =>
        have hyes := hid.mp hc
        simp only [Bool.false_eq_true, if_false, List.mem_cons, hmem x]
        constructor
        · rintro (rfl | ⟨h, h'⟩)
          exacts [⟨.inl rfl, hyes⟩, ⟨.inr h, h'⟩]
        · rintro ⟨rfl | h, h'⟩
          exacts [.inl rfl, .inr ⟨h, h'⟩]

theorem exists_topmost :
    ∀ n : ℕ, ∀ d ∈ dirtyRoots, HasDepth parents.parent d n →
      ∃ r ∈ dirtyRoots, (∀ a, Above parents.parent r a → a ∉ dirtyRoots) ∧
        (d = r ∨ Above parents.parent d r) := by
  intro n
  induction n using Nat.strong_induction_on with
  | _ n ih =>
    intro d hd hdepth
    by_cases htop : ∀ a, Above parents.parent d a → a ∉ dirtyRoots
    · exact ⟨d, hd, htop, .inl rfl⟩
    · push Not at htop
      obtain ⟨a, habove, ha⟩ := htop
      obtain ⟨m, hm, hdepth'⟩ := hdepth.lt_of_above habove
      obtain ⟨r, hr, hrtop, hra⟩ := ih m hm a ha hdepth'
      refine ⟨r, hr, hrtop, .inr ?_⟩
      rcases hra with rfl | hra
      exacts [habove, habove.trans hra]

theorem reach_of_above (hrecip : Reciprocal parents children) {roots : List StableEntityId}
    {x a : StableEntityId} (hx : Above parents.parent x a) (ha : Reach children.list roots a) :
    Reach children.list roots x := by
  induction hx using Relation.TransGen.head_induction_on with
  | single h => exact .step ha ((hrecip _ _).mpr h)
  | head h _ ih => exact .step ih ((hrecip _ _).mpr h)

/-- **Propagation order.** The traversal ends; it lists exactly the affected entities, each once;
and an affected parent comes before its children. -/
theorem affectedEntities_spec (hacyclic : parents.Acyclic) (hrecip : Reciprocal parents children) :
    ∃ ordered, affectedEntities parents children dirtyRoots = some ordered ∧ ordered.Nodup ∧
      (∀ x, x ∈ ordered ↔ Affected parents dirtyRoots x) ∧
        ∀ before y after p, ordered = before ++ y :: after → parents[y]? = some p →
          p ∈ ordered → p ∈ before := by
  obtain ⟨roots, hroots, hmem⟩ :=
    topmostRoots_spec hacyclic dirtyRoots dirtyRoots.toList
  have hnodes : ∀ x, children.list x ≠ [] → x ∈ children.keys := by
    intro x hx
    rw [Std.ExtTreeMap.mem_keys, Std.ExtTreeMap.mem_iff_isSome_getElem?]
    cases h : children[x]? with
    | none => exact absurd (by simp [ChildMap.list, h]) hx
    | some => rfl
  obtain ⟨ordered, hordered⟩ := exists_traverse hnodes roots
  obtain ⟨hnodup, hreach, hentered⟩ := traverse_spec hordered
  have hiff : ∀ x, x ∈ ordered ↔ Affected parents dirtyRoots x := by
    intro x
    rw [hreach]
    constructor
    · intro hx
      induction hx with
      | root h => exact ⟨_, Std.ExtTreeSet.mem_toList.mp ((hmem _).mp h).1, .inl rfl⟩
      | step _ h ih => exact ih.child ((hrecip _ _).mp h)
    · rintro ⟨d, hd, hxd⟩
      obtain ⟨n, hn⟩ := hacyclic d
      obtain ⟨r, hr, htop, hdr⟩ := exists_topmost n d hd hn
      have hrreach : Reach children.list roots r :=
        .root ((hmem r).mpr ⟨Std.ExtTreeSet.mem_toList.mpr hr, htop⟩)
      have hdreach : Reach children.list roots d := by
        rcases hdr with rfl | hdr
        exacts [hrreach, reach_of_above hrecip hdr hrreach]
      rcases hxd with rfl | hxd
      exacts [hdreach, reach_of_above hrecip hxd hdreach]
  refine ⟨ordered, by simp [affectedEntities, hroots, hordered], hnodup, hiff, ?_⟩
  intro before y after p hsplit hp hpmem
  rcases hentered before y after hsplit with hy | ⟨x, hx, hyx⟩
  · -- a topmost entity has no affected parent
    obtain ⟨r, hr, hpr⟩ := (hiff p).mp hpmem
    refine absurd hr (((hmem y).mp hy).2 r ?_)
    rcases hpr with rfl | hpr
    exacts [.single hp, .head hp hpr]
  · rw [(hrecip x y).mp hyx, Option.some.injEq] at hp
    exact hp ▸ hx

end Propagation

end Cogniform
