import Cogniform.World.Cache

/-!
# Render extraction and the projection of a world

A consumer that applies every packet in order holds, after each one, the projection of the world:
the live entities that have something to render. Changes are coalesced into one pending set and
resolved when a packet is taken, so the invariant of a run is about the entities outside that set:
on those the consumer already agrees with the projection.
-/

namespace Cogniform

namespace AuthoritativeWorld

variable {world : AuthoritativeWorld}

/-! ### The projection -/

/-- The projection of a world holds the record: the entity is live and has something to render, and
the record has its components, cached matrix and generation. -/
structure Projects (world : AuthoritativeWorld) (id : StableEntityId) (entity : RenderEntity) :
    Prop where
  entityId : entity.entityId = id
  /-- The entity is live and these are its render components; `RenderEntity` says that there is at
  least one. -/
  components : world.scene.entities[id]?.map Components.render = some entity.components
  transform : world.worldTransforms[id]? =
    some ⟨entity.worldTransform, entity.worldTransformGeneration⟩

theorem Projects.unique {id : StableEntityId} {entity other : RenderEntity}
    (h : Projects world id entity) (h' : Projects world id other) : entity = other := by
  obtain ⟨hid, hcomponents, htransform⟩ := h
  obtain ⟨hid', hcomponents', htransform'⟩ := h'
  rw [hcomponents, Option.some.injEq] at hcomponents'
  rw [htransform, Option.some.injEq, WorldTransform.mk.injEq] at htransform'
  cases entity
  cases other
  simp_all

theorem renderEntity_ok (hworld : world.Consistent) (hcache : world.CacheDerived)
    (id : StableEntityId) :
    ∃ found, world.renderEntity id = .ok found ∧
      ∀ entity, found = some entity ↔ Projects world id entity := by
  rw [renderEntity]
  cases hindex : world.stableIndex[id]? with
  | none =>
    have hdead : world.scene.entities[id]? = none :=
      hworld.toIndexed.getElem?_eq_none_iff.mpr hindex
    refine ⟨none, rfl, fun entity => ⟨by simp, fun h => ?_⟩⟩
    have := h.components
    rw [hdead] at this
    cases this
  | some handle =>
    obtain ⟨t, ht⟩ := TreeMap.mem_iff.mp ((hworld.cached id).mpr (TreeMap.mem_of_get hindex))
    obtain ⟨record, hrecord, -⟩ := hworld.marked id handle hindex
    have hscene : world.scene.entities[id]? = some record.components := by
      refine getElem?_sceneEntities.trans ?_
      rw [hindex, Option.bind_some, hrecord, Option.map_some]
    simp only [ht, renderComponents, hrecord]
    split
    · rename_i hempty
      refine ⟨none, rfl, fun entity => ⟨by simp, fun h => ?_⟩⟩
      have hcomponents := h.components
      rw [hscene, Option.map_some, Option.some.injEq] at hcomponents
      have hnonempty := entity.nonempty
      rw [← hcomponents, hempty] at hnonempty
      cases hnonempty
    · rename_i hempty
      have hfinite := (hcache id record.components t hscene ht).isFinite
      rw [RenderEntity.new_eq_ok hfinite (Bool.eq_false_iff.mpr hempty)]
      refine ⟨_, rfl, fun entity => ⟨fun h => ?_, fun h => ?_⟩⟩
      · cases h
        exact ⟨rfl, by rw [hscene]; rfl, ht⟩
      · rw [Option.some.injEq]
        exact Projects.unique ⟨rfl, by rw [hscene]; rfl, ht⟩ h

def resolved (world : AuthoritativeWorld) (entityId : StableEntityId) : Option RenderEntity :=
  match world.renderEntity entityId with
  | .ok found => found
  | .error _ => none

theorem resolved_eq_some (hworld : world.Consistent) (hcache : world.CacheDerived)
    {id : StableEntityId} {entity : RenderEntity} :
    world.resolved id = some entity ↔ Projects world id entity := by
  obtain ⟨found, hfound, hiff⟩ := renderEntity_ok hworld hcache id
  rw [resolved, hfound]
  exact hiff entity

theorem renderChange_ok (hworld : world.Consistent) (hcache : world.CacheDerived)
    (id : StableEntityId) :
    ∃ change, world.renderChange id = .ok change ∧ change.entityId = id ∧
      change.outcome = world.resolved id := by
  obtain ⟨found, hfound, hiff⟩ := renderEntity_ok hworld hcache id
  rw [renderChange, resolved, hfound, Exec.ok_bind]
  cases found with
  | none => exact ⟨_, rfl, rfl, rfl⟩
  | some entity => exact ⟨_, rfl, ((hiff entity).mp rfl).entityId, rfl⟩

section Packets

variable {extraction : RenderExtraction}

theorem renderChanges_spec (hworld : world.Consistent) (hcache : world.CacheDerived)
    {ids : List StableEntityId} {changes : List RenderChange}
    (h : ids.mapM world.renderChange = .ok changes) :
    changes.map RenderChange.entityId = ids ∧
      ∀ change ∈ changes, change.outcome = world.resolved change.entityId := by
  rw [Exec.mapM_eq_ok] at h
  induction h with
  | nil => simp
  | @cons id change ids changes hchange _ ih =>
    obtain ⟨_, heq, hid, houtcome⟩ := renderChange_ok hworld hcache id
    rw [hchange, Except.ok.injEq] at heq
    subst heq
    refine ⟨by rw [List.map_cons, hid, ih.1], fun other hother => ?_⟩
    rcases List.mem_cons.mp hother with rfl | hother
    · rw [houtcome, hid]
    · exact ih.2 other hother

theorem strictlyOrdered_of_ids {changes : List RenderChange} {ids : EntitySet}
    (h : changes.map RenderChange.entityId = ids.toList) : StrictlyOrdered changes := by
  have hordered := Std.ExtTreeSet.ordered_toList (t := ids)
  rw [← h, List.pairwise_map] at hordered
  exact hordered.imp fun hlt => Nat.compare_eq_lt.mp hlt

theorem nextExtraction_spec (hworld : world.Consistent) (hcache : world.CacheDerived)
    (h : world.nextExtraction = .ok extraction) :
    extraction.generation.get = world.renderExtractionGeneration.toNat + 1 ∧
      extraction.baseRevision = world.lastExtractedRevision ∧
      extraction.sceneRevision = world.revision ∧
      extraction.changes.map RenderChange.entityId = world.pendingRenderChanges.toList ∧
      ∀ change ∈ extraction.changes, change.outcome = world.resolved change.entityId := by
  rw [nextExtraction] at h
  obtain ⟨_, -, h⟩ := Exec.bind_eq_ok.mp h
  obtain ⟨generation, hgeneration, h⟩ := Exec.bind_eq_ok.mp h
  obtain ⟨changes, hchanges, h⟩ := Exec.bind_eq_ok.mp h
  rw [Exec.okOr_eq_ok, checkedSuccNonZero_eq_some] at hgeneration
  obtain ⟨hids, houtcome⟩ := renderChanges_spec hworld hcache hchanges
  rw [RenderExtraction.new] at h
  split at h
  · rename_i heq
    cases h
    split at heq
    · split at heq
      · cases heq
      · cases heq
        exact ⟨hgeneration, rfl, rfl, hids, houtcome⟩
    · cases heq
  · cases h

theorem nextExtraction_ok (hworld : world.Consistent) (hcache : world.CacheDerived)
    (hrevision : world.lastExtractedRevision.get.toNat ≤ world.revision.get.toNat)
    (hgeneration : world.renderExtractionGeneration.toNat ≠ 2 ^ 64 - 1) :
    ∃ extraction, world.nextExtraction = .ok extraction := by
  have hlt := world.renderExtractionGeneration.toNat_lt
  have hnext : checkedSuccNonZero world.renderExtractionGeneration =
      some ⟨world.renderExtractionGeneration.toNat + 1, Nat.succ_pos _, by omega⟩ :=
    checkedSuccNonZero_eq_some.mpr rfl
  obtain ⟨changes, hchanges⟩ := Exec.exists_mapM_ok
    (fun id (_ : id ∈ world.pendingRenderChanges.toList) =>
      (renderChange_ok hworld hcache id).imp fun _ h => h.1)
  have hordered := strictlyOrdered_of_ids (renderChanges_spec hworld hcache hchanges).1
  rw [nextExtraction, validateInvariants_of_consistent hworld, Exec.mapError_ok, Exec.ok_bind,
    hnext, Exec.okOr_some, Exec.ok_bind, hchanges, Exec.ok_bind,
    RenderExtraction.new_eq_ok hrevision hordered]
  exact ⟨_, rfl⟩

theorem getElem?_consume_extraction (hworld : world.Consistent) (hcache : world.CacheDerived)
    (h : world.nextExtraction = .ok extraction) {records : RenderMap}
    (hrecords : ∀ id ∉ world.pendingRenderChanges, records[id]? = world.resolved id)
    (id : StableEntityId) : (extraction.consume records)[id]? = world.resolved id := by
  obtain ⟨-, -, -, hids, houtcome⟩ := nextExtraction_spec hworld hcache h
  rw [RenderExtraction.consume, getElem?_foldl_consume id houtcome, hids]
  split
  · rfl
  · rename_i hid
    exact hrecords id fun hpending => hid (Std.ExtTreeSet.mem_toList.mpr hpending)

end Packets

theorem Accepted.projects_iff {patch : ScenePatch} {plan : CommitPlan}
    {newRevision : SceneRevision} {count : NonZeroU32} {scene : Scene}
    {storage : Arena StoredRecord} {index : Std.ExtTreeMap StableEntityId ℕ}
    (h : Accepted world patch plan newRevision count scene storage index)
    (receipt : ApplyReceipt) {id : StableEntityId} (hid : id ∉ plan.renderChangedIds)
    (entity : RenderEntity) :
    Projects ((world.committed plan storage index).record patch receipt) id entity ↔
      Projects world id entity := by
  obtain ⟨hnot, hrender⟩ := h.planned.unseen id hid
  have hscene : (((world.committed plan storage index).record patch receipt).scene.entities[id]?).map
      Components.render = world.scene.entities[id]?.map Components.render := by
    change (world.committed plan storage index).scene.entities[id]?.map Components.render = _
    rw [scene_committed h.planned h.entities, hrender]
  -- the cache matters for live entities only, and those have kept their cached transform
  have htransform : ∀ components, scene.entities[id]?.map Components.render = some components →
      ((world.committed plan storage index).record patch receipt).worldTransforms[id]? =
        world.worldTransforms[id]? := by
    intro components hcomponents
    obtain ⟨stored, hstored, -⟩ := Option.map_eq_some_iff.mp hcomponents
    change (world.committed plan storage index).worldTransforms[id]? = _
    rw [lookup_committed h.indexed h.entities (TreeMap.mem_of_get hstored), lookup,
      TreeMap.not_mem_iff.mp hnot, Option.none_or]
  constructor
  · rintro ⟨hentity, hcomponents, ht⟩
    rw [hscene] at hcomponents
    refine ⟨hentity, hcomponents, ?_⟩
    rw [← htransform _ (hrender.trans hcomponents)]
    exact ht
  · rintro ⟨hentity, hcomponents, ht⟩
    refine ⟨hentity, hscene.trans hcomponents, ?_⟩
    rw [htransform _ (hrender.trans hcomponents)]
    exact ht

theorem Accepted.resolved_eq {patch : ScenePatch} {plan : CommitPlan}
    {newRevision : SceneRevision} {count : NonZeroU32} {scene : Scene}
    {storage : Arena StoredRecord} {index : Std.ExtTreeMap StableEntityId ℕ}
    {receipt : ApplyReceipt} (hworld : world.Consistent) (hcache : world.CacheDerived)
    (h : Accepted world patch plan newRevision count scene storage index)
    (hcache' : ((world.committed plan storage index).record patch receipt).CacheDerived)
    {id : StableEntityId} (hid : id ∉ plan.renderChangedIds) :
    ((world.committed plan storage index).record patch receipt).resolved id =
      world.resolved id := by
  refine Option.ext fun entity => ?_
  rw [resolved_eq_some hworld hcache, resolved_eq_some (h.consistent hworld receipt) hcache']
  exact h.projects_iff receipt hid entity

theorem Reachable.extracted_le {config : WorldConfig} (h : Reachable config world) :
    world.lastExtractedRevision.get.toNat ≤ world.revision.get.toNat :=
  h.invariant (P := fun world =>
      world.lastExtractedRevision.get.toNat ≤ world.revision.get.toNat) (Nat.le_refl _)
    (fun {_ _ plan _ _ _ _ _} _ hle haccepted _ _ => by
      change _ ≤ plan.newRevision.get.toNat
      rw [haccepted.next, SceneRevision.checkedNext_eq_some.mp haccepted.revision]
      exact Nat.le_succ_of_le hle)
    (fun _ _ _ => Nat.le_refl _)

end AuthoritativeWorld

/-! ### Runs with a consumer -/

structure Observation where
  world : AuthoritativeWorld
  packets : List RenderExtraction

namespace Observation

open AuthoritativeWorld

def observe (run : Observation) : WorldCall → Observation
  | .applyPatch patch frame clock =>
    { run with world := (run.world.applyPatch patch frame clock).1 }
  | .takeRenderExtraction =>
    match run.world.takeRenderExtraction with
    | (world, .ok packet) => ⟨world, run.packets ++ [packet]⟩
    | (world, .error _) => { run with world := world }

def ofCalls (config : WorldConfig) (calls : List WorldCall) : Observation :=
  calls.foldl observe ⟨.new config, []⟩

def consumer (packets : List RenderExtraction) : RenderMap :=
  packets.foldl RenderExtraction.consume ∅

theorem consumer_append (packets : List RenderExtraction) (packet : RenderExtraction) :
    consumer (packets ++ [packet]) = packet.consume (consumer packets) := by
  rw [consumer, List.foldl_append]
  rfl

def Continues (previous next : RenderExtraction) : Prop :=
  next.generation.get = previous.generation.get + 1 ∧
    next.baseRevision = previous.sceneRevision

/-- What holds along a run: the packets are numbered from one and linked, and the consumer is up to
date outside the pending set. -/
structure Synchronized (config : WorldConfig) (run : Observation) : Prop where
  reachable : Reachable config run.world
  chain : run.packets.IsChain Continues
  first : ∀ packet ∈ run.packets.head?,
    packet.generation.get = 1 ∧ packet.baseRevision = .initial
  last : ∀ packet ∈ run.packets.getLast?,
    packet.generation.get = run.world.renderExtractionGeneration.toNat ∧
      packet.sceneRevision = run.world.lastExtractedRevision
  /-- Before the first packet, the counters are those of the new world. -/
  none : run.packets = [] → run.world.renderExtractionGeneration.toNat = 0 ∧
    run.world.lastExtractedRevision = .initial
  agrees : ∀ id ∉ run.world.pendingRenderChanges,
    (consumer run.packets)[id]? = run.world.resolved id

variable {config : WorldConfig} {run : Observation}

theorem synchronized_new (config : WorldConfig) : Synchronized config ⟨.new config, []⟩ where
  reachable := .new
  chain := .nil
  first := by simp
  last := by simp
  none _ := ⟨rfl, rfl⟩
  agrees id _ := by
    rw [resolved, renderEntity, show (AuthoritativeWorld.new config).stableIndex[id]? = Option.none
      from Std.ExtTreeMap.getElem?_empty]
    exact Std.ExtTreeMap.getElem?_empty

theorem Synchronized.applyPatch (h : Synchronized config run) (patch : ScenePatch) (frame : FrameId)
    (clock : ApplyClock) : Synchronized config (run.observe (.applyPatch patch frame clock)) := by
  have hworld := h.reachable.consistent
  have hreachable := h.reachable.call (.applyPatch patch frame clock)
  rw [after] at hreachable
  rw [observe]
  rcases applyPatch_cases hworld patch frame clock with ⟨_, -, heq⟩ | ⟨_, -, heq⟩ |
    ⟨plan, newRevision, count, scene, storage, index, -, haccepted, heq⟩
  · rw [heq]
    exact h
  · rw [heq]
    exact h
  · rw [heq] at hreachable ⊢
    refine ⟨hreachable, h.chain, h.first, h.last, h.none, fun id hid => ?_⟩
    obtain ⟨hpending, hchanged⟩ :
        id ∉ run.world.pendingRenderChanges ∧ id ∉ plan.renderChangedIds := by
      have hid' : id ∉ run.world.pendingRenderChanges ∪ plan.renderChangedIds := hid
      simpa [Std.ExtTreeSet.mem_union_iff] using hid'
    exact (h.agrees id hpending).trans
      (haccepted.resolved_eq hworld h.reachable.cacheDerived hreachable.cacheDerived hchanged).symm

theorem resolved_drain (world : AuthoritativeWorld) (extraction : RenderExtraction) :
    (world.drain extraction).resolved = world.resolved := rfl

theorem Synchronized.takeRenderExtraction (h : Synchronized config run) :
    Synchronized config (run.observe .takeRenderExtraction) := by
  have hworld := h.reachable.consistent
  have hcache := h.reachable.cacheDerived
  have hreachable := h.reachable.call .takeRenderExtraction
  rw [after] at hreachable
  rw [observe]
  rcases run.world.takeRenderExtraction_cases with ⟨_, -, heq⟩ | ⟨packet, hpacket, heq⟩
  · rw [heq]
    exact h
  · rw [heq] at hreachable ⊢
    obtain ⟨hgeneration, hbase, hscene, -, -⟩ := nextExtraction_spec hworld hcache hpacket
    refine ⟨hreachable, ?_, ?_, ?_, by simp, fun id _ => ?_⟩
    · refine List.isChain_append.mpr
        ⟨h.chain, .singleton packet, fun previous hprevious next hnext => ?_⟩
      cases hnext
      obtain ⟨hnumber, hrevision⟩ := h.last previous hprevious
      exact ⟨by rw [hgeneration, hnumber], by rw [hbase, hrevision]⟩
    · intro other hother
      cases hpackets : run.packets with
      | nil =>
        rw [hpackets] at hother
        cases hother
        obtain ⟨hzero, hinitial⟩ := h.none hpackets
        exact ⟨by rw [hgeneration, hzero], by rw [hbase, hinitial]⟩
      | cons oldest rest =>
        refine h.first other ?_
        rw [hpackets] at hother ⊢
        exact hother
    · intro other hother
      rw [List.getLast?_append_of_ne_nil _ (by simp)] at hother
      cases hother
      exact ⟨NonZero.toNat_toUInt64 packet.generation |>.symm, hscene⟩
    · rw [consumer_append, resolved_drain]
      exact getElem?_consume_extraction hworld hcache hpacket h.agrees id

theorem synchronized_ofCalls (config : WorldConfig) (calls : List WorldCall) :
    Synchronized config (ofCalls config calls) := by
  have hfold : ∀ {run : Observation}, Synchronized config run →
      Synchronized config (calls.foldl observe run) := by
    induction calls with
    | nil => exact id
    | cons call calls ih =>
      intro run h
      cases call with
      | applyPatch patch frame clock => exact ih (h.applyPatch patch frame clock)
      | takeRenderExtraction => exact ih h.takeRenderExtraction
  exact hfold (synchronized_new config)

/-- **Extraction neither loses nor invents a change.** After any run a packet brings the consumer of
all packets to exactly the projection of the world. Changes are in strictly increasing entity order,
packets are numbered from one without a gap, and each starts from the revision the one before it
ended with. -/
theorem consumer_eq_projection (config : WorldConfig) (calls : List WorldCall) :
    (∀ packet world,
      (ofCalls config calls).world.takeRenderExtraction = (world, .ok packet) →
        packet.sceneRevision = world.revision ∧
        ∀ id entity,
          (consumer ((ofCalls config calls).packets ++ [packet]))[id]? = some entity ↔
            Projects world id entity) ∧
      (∀ packet ∈ (ofCalls config calls).packets, StrictlyOrdered packet.changes) ∧
      (∀ packet ∈ (ofCalls config calls).packets.head?,
        packet.generation.get = 1 ∧ packet.baseRevision = .initial) ∧
      (ofCalls config calls).packets.IsChain fun previous next =>
        next.generation.get = previous.generation.get + 1 ∧
          next.baseRevision = previous.sceneRevision := by
  have h := synchronized_ofCalls config calls
  refine ⟨fun packet world htake => ?_, fun packet _ => packet.ordered, h.first, h.chain⟩
  have hworld := h.reachable.consistent
  have hcache := h.reachable.cacheDerived
  rcases (ofCalls config calls).world.takeRenderExtraction_cases with ⟨_, -, heq⟩ |
    ⟨taken, hpacket, heq⟩
  · rw [heq] at htake
    cases htake
  · rw [heq] at htake
    cases htake
    refine ⟨(nextExtraction_spec hworld hcache hpacket).2.2.1, fun id entity => ?_⟩
    rw [consumer_append, getElem?_consume_extraction hworld hcache hpacket h.agrees,
      resolved_eq_some hworld hcache]
    exact ⟨fun h => ⟨h.entityId, h.components, h.transform⟩,
      fun h => ⟨h.entityId, h.components, h.transform⟩⟩

def meshPatch : ScenePatch :=
  { samplePatch with
    operations := [.create (.lit 1) [.assetMesh ⟨.replicate 32 0, 0⟩]] }

theorem consumer_eq_projection_mesh :
    ∃ packet world,
      (ofCalls .default [.applyPatch meshPatch ⟨1, by decide⟩ ⟨0, 0⟩]).world.takeRenderExtraction =
        (world, .ok packet) ∧
      packet.changes.length = 1 ∧
      ∀ id entity, (consumer [packet])[id]? = some entity ↔ Projects world id entity := by
  have hlength : ((ofCalls .default [.applyPatch meshPatch ⟨1, by decide⟩ ⟨0, 0⟩]).world
      |>.takeRenderExtraction.2.toOption.map fun packet => packet.changes.length) = some 1 := by
    decide +kernel
  cases htake : (ofCalls .default
      [.applyPatch meshPatch ⟨1, by decide⟩ ⟨0, 0⟩]).world.takeRenderExtraction with
  | mk world outcome =>
    rw [htake] at hlength
    cases outcome with
    | error abort => cases hlength
    | ok packet =>
      exact ⟨packet, world, rfl, Option.some.inj hlength,
        ((consumer_eq_projection .default
          [.applyPatch meshPatch ⟨1, by decide⟩ ⟨0, 0⟩]).1 packet world htake).2⟩

end Observation

end Cogniform
