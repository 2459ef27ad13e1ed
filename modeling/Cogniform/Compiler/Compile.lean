import Cogniform.Compiler.Serialize
import Cogniform.World.State
import Mathlib.Data.List.Destutter
import Mathlib.Data.List.Sort

/-!
# The deterministic compiler

An imagination is compiled in passes. Its entities are planned in the order of their keys; relations
are assigned to the plans one by one, and those that cannot be, or that go round a cycle, are
collected with the reason. Only if nothing was collected are the placements resolved, anchors first,
and the patch built. A failed lookup in the key index is a panic, as in the source; so is the end of
the fuel of the two loops that follow relations.
-/

namespace Cogniform

structure CompilerConfig where
  runtimeLimits : RuntimeLimits
  compilationLimits : CompilationLimits
  maxEntityIdAttempts : NonZeroU32

def CompilerConfig.new (runtimeLimits : RuntimeLimits) : CompilerConfig :=
  ⟨runtimeLimits, .forRuntimeLimits runtimeLimits, .lit 32⟩

/-! ### Plans -/

inductive PlacementKind where
  | above (clearance : F32)
  | rightOf (gap : F32)
  deriving DecidableEq

structure Placement where
  relationIndex : UInt32
  anchor : SceneText
  kind : PlacementKind
  deriving DecidableEq

structure EntityPlan where
  key : SceneText
  entityId : StableEntityId
  name : SceneText
  primitive : PrimitiveComponent
  transform : LocalTransform
  material : MaterialComponent
  parent : Option SceneText
  parentRelation : Option UInt32
  placement : Option Placement
  deriving DecidableEq

/-- `FiniteF32::new`. -/
def finiteF32 (value : F32) : Option FiniteF32 := FloatValue.new? value

def identityTransform : LocalTransform :=
  let zero : FiniteF32 := .lit Binary.zero
  let one : PositiveF32 := .lit (.lit 0x3f800000)
  ⟨⟨zero, zero, zero⟩, ⟨zero, zero, zero, .lit (.lit 0x3f800000)⟩, ⟨one, one, one⟩⟩

def neutralMaterial : MaterialComponent :=
  let grey : UnitF32 := .lit (.lit 0x3f333333)
  ⟨⟨grey, grey, grey, .lit (.lit 0x3f800000)⟩, .lit Binary.zero, .lit (.lit 0x3f4ccccd)⟩

def defaultDecision (code : CompilationDecisionCode) (key : SceneText) : CompilationDecision :=
  ⟨code, key, none, none⟩

def planEntity (entity : ImaginedEntity) (entityId : StableEntityId) :
    EntityPlan × List CompilationDecision :=
  let missing (code : CompilationDecisionCode) (present : Bool) : List CompilationDecision :=
    if present then [] else [defaultDecision code entity.key]
  (⟨entity.key, entityId, entity.name.getD entity.key, entity.primitive,
      entity.transform.getD identityTransform, entity.material.getD neutralMaterial,
      none, none, none⟩,
    missing .defaultName entity.name.isSome ++ missing .defaultTransform entity.transform.isSome
      ++ missing .defaultMaterial entity.material.isSome)

/-- `StableEntityId::new`. -/
def stableEntityId (value : ℕ) : Option StableEntityId := OpaqueId.new? value

def entityIdInput (imagination : ImaginationEnvelope) (key : SceneText) (attempt : ℕ) :
    List UInt8 :=
  asciiBytes "cogniform.imagination.entity.v1\x00" ++ bigEndian 16 imagination.imaginationId.get
    ++ bigEndian 8 imagination.seed.toNat ++ bigEndian 8 (count64 key.lenBytes) ++ utf8 key.value
    ++ bigEndian 4 attempt

def entityIdCandidate (sha256 : List UInt8 → Digest) (imagination : ImaginationEnvelope)
    (key : SceneText) (scene : CompilationSceneView) (usedIds : Std.ExtTreeSet StableEntityId)
    (attempt : ℕ) : Option StableEntityId :=
  (stableEntityId (ofBigEndian ((sha256 (entityIdInput imagination key attempt)).toList.take 16)))
    |>.filter fun candidate => candidate ∉ scene.entityIds ∧ candidate ∉ usedIds

section

variable (sha256 : List UInt8 → Digest) (config : CompilerConfig)
  (imagination : ImaginationEnvelope) (scene : CompilationSceneView)

def CompilerConfig.deriveEntityId (key : SceneText) (entityIndex : ℕ)
    (usedIds : Std.ExtTreeSet StableEntityId) : Exec CompileError StableEntityId :=
  let attempts := config.maxEntityIdAttempts.get
  Exec.okOr (.entityIdDerivationExhausted entityIndex attempts)
    ((List.range attempts).findSome? (entityIdCandidate sha256 imagination key scene usedIds))

def CompilerConfig.chooseEntityId (entity : ImaginedEntity) (entityIndex : ℕ)
    (usedIds : Std.ExtTreeSet StableEntityId) :
    Exec CompileError (StableEntityId × List CompilationDecision) := do
  let derive (code : CompilationDecisionCode) :
      Exec CompileError (StableEntityId × List CompilationDecision) := do
    let derived ← config.deriveEntityId sha256 imagination scene entity.key entityIndex usedIds
    .ok (derived, [⟨code, entity.key, none, some derived⟩])
  match entity.preferredId with
  | none => derive .generatedEntityId
  | some preferred =>
    if preferred ∈ scene.entityIds ∨ preferred ∈ usedIds then derive .preferredEntityIdSubstituted
    else .ok (preferred, [])

/-- The loop of `plan_entities` from one position on. -/
def CompilerConfig.planFrom : ℕ → Std.ExtTreeSet StableEntityId → List ImaginedEntity →
    Exec CompileError (List EntityPlan × List CompilationDecision)
  | _, _, [] => .ok ([], [])
  | index, usedIds, entity :: rest => do
    let (entityId, chosen) ←
      config.chooseEntityId sha256 imagination scene entity (count index) usedIds
    let (plan, defaults) := planEntity entity entityId
    let (plans, decisions) ← planFrom (index + 1) (usedIds.insert entityId) rest
    .ok (plan :: plans, chosen ++ defaults ++ decisions)

/-- `plan_entities`, in the order of the keys. -/
def CompilerConfig.planEntities : Exec CompileError (List EntityPlan × List CompilationDecision) :=
  config.planFrom sha256 imagination scene 0 ∅
    (imagination.entities.insertionSort fun left right => (compare left.key right.key).isLE)

/-! ### Preconditions and relations -/

def checkSceneConstraint (index : ℕ) : ImaginationConstraint → Option UnresolvedConstraint
  | .entityExists entityId =>
    if entityId ∈ scene.entityIds then none
    else some ⟨.requiredEntityMissing, none, some (.ofNat (count index)), none, none, some entityId⟩
  | .entityAbsent entityId =>
    if entityId ∈ scene.entityIds then
      some ⟨.requiredEntityPresent, none, some (.ofNat (count index)), none, none, some entityId⟩
    else none

def checkSceneConstraints : List UnresolvedConstraint :=
  imagination.constraints.zipIdx.filterMap fun (constraint, index) =>
    checkSceneConstraint scene index constraint

end

def relationIssue (code : UnresolvedConstraintCode) (relationIndex : UInt32)
    (entity related : SceneText) : UnresolvedConstraint :=
  ⟨code, some relationIndex, none, some entity, some related, none⟩

def unknownReference (relationIndex : UInt32) (entity related : SceneText) : UnresolvedConstraint :=
  relationIssue .unknownEntityReference relationIndex entity related

def keyIndex (entities : List EntityPlan) : Std.ExtTreeMap SceneText ℕ :=
  .ofList (entities.zipIdx.map fun (entity, index) => (entity.key, index))

def planAt (entities : List EntityPlan) (index : ℕ) : Exec CompileError EntityPlan :=
  Exec.expect "index out of bounds" entities[index]?

def positionOf (positions : Std.ExtTreeMap SceneText ℕ) (key : SceneText) : Exec CompileError ℕ :=
  Exec.expect "no entry found for key" positions[key]?

/-- Assign one relation to its subject, unless a key is unknown, the two are the same or the subject
has a relation already. -/
def assignTo (positions : Std.ExtTreeMap SceneText ℕ) (relationIndex : UInt32)
    (subject related : SceneText) (assign : EntityPlan → EntityPlan)
    (state : List EntityPlan × List UnresolvedConstraint) :
    Exec CompileError (List EntityPlan × List UnresolvedConstraint) :=
  let issue (code : UnresolvedConstraintCode) :
      Exec CompileError (List EntityPlan × List UnresolvedConstraint) :=
    .ok (state.1, state.2 ++ [relationIssue code relationIndex subject related])
  match positions[subject]? with
  | none => .ok (state.1, state.2 ++ [unknownReference relationIndex subject related])
  | some index =>
    if related ∉ positions then
      .ok (state.1, state.2 ++ [unknownReference relationIndex subject related])
    else if subject = related then issue .selfRelation
    else do
      let plan ← planAt state.1 index
      if plan.parent.isSome ∨ plan.placement.isSome then issue .conflictingRelation
      else .ok (state.1.set index (assign plan), state.2)

def assignPlacement (positions : Std.ExtTreeMap SceneText ℕ) (relationIndex : UInt32)
    (subject anchor : SceneText) (kind : PlacementKind) :
    List EntityPlan × List UnresolvedConstraint →
      Exec CompileError (List EntityPlan × List UnresolvedConstraint) :=
  assignTo positions relationIndex subject anchor fun plan =>
    { plan with placement := some ⟨relationIndex, anchor, kind⟩ }

/-- One iteration of `assign_relations`. -/
def assignRelation (positions : Std.ExtTreeMap SceneText ℕ)
    (state : List EntityPlan × List UnresolvedConstraint) (entry : ImaginationRelation × ℕ) :
    Exec CompileError (List EntityPlan × List UnresolvedConstraint) :=
  let relationIndex := UInt32.ofNat (count entry.2)
  match entry.1 with
  | .parent child parent =>
    assignTo positions relationIndex child parent
      (fun plan => { plan with parent := some parent, parentRelation := some relationIndex }) state
  | .above subject anchor clearance =>
    assignPlacement positions relationIndex subject anchor (.above clearance.get) state
  | .rightOf subject anchor gap =>
    assignPlacement positions relationIndex subject anchor (.rightOf gap.get) state

def assignRelations (relations : List ImaginationRelation)
    (positions : Std.ExtTreeMap SceneText ℕ) (entities : List EntityPlan)
    (unresolved : List UnresolvedConstraint) :
    Exec CompileError (List EntityPlan × List UnresolvedConstraint) :=
  relations.zipIdx.foldlM (assignRelation positions) (entities, unresolved)

/-- What one plan adds to `reject_parented_placement_anchors`. -/
def rejectParentedAnchor (positions : Std.ExtTreeMap SceneText ℕ) (entities : List EntityPlan)
    (entity : EntityPlan) : Exec CompileError (List UnresolvedConstraint) :=
  match entity.placement with
  | none => .ok []
  | some placement => do
    let anchor ← planAt entities (← positionOf positions placement.anchor)
    if anchor.parent.isSome then
      .ok [relationIssue .conflictingRelation placement.relationIndex entity.key placement.anchor]
    else .ok []

def rejectParentedPlacementAnchors (positions : Std.ExtTreeMap SceneText ℕ)
    (entities : List EntityPlan) : Exec CompileError (List UnresolvedConstraint) := do
  .ok (← entities.mapM (rejectParentedAnchor positions entities)).flatten

/-- Follow a relation from one plan, to the cycle that is reached, or to nothing when the walk ends.
The positions passed are kept in their order. -/
def walkCycle (positions : Std.ExtTreeMap SceneText ℕ) (entities : List EntityPlan)
    (next : EntityPlan → Option (SceneText × UInt32)) :
    ℕ → List ℕ → ℕ → Exec CompileError (List ℕ)
  | 0, _, _ => .error .diverge
  | fuel + 1, path, current =>
    match path.idxOf? current with
    | some cycleStart => .ok (path.drop cycleStart)
    | none => do
      match next (← planAt entities current) with
      | none => .ok []
      | some (related, _) =>
        walkCycle positions entities next fuel (path ++ [current]) (← positionOf positions related)

def reportCycle (entities : List EntityPlan) (next : EntityPlan → Option (SceneText × UInt32))
    (code : UnresolvedConstraintCode) (state : Std.ExtTreeSet UInt32 × List UnresolvedConstraint)
    (index : ℕ) : Exec CompileError (Std.ExtTreeSet UInt32 × List UnresolvedConstraint) := do
  let entity ← planAt entities index
  match next entity with
  | none => .ok state
  | some (related, relationIndex) =>
    if relationIndex ∈ state.1 then .ok state
    else .ok (state.1.insert relationIndex,
      state.2 ++ [relationIssue code relationIndex entity.key related])

def markRelationCycles (positions : Std.ExtTreeMap SceneText ℕ) (entities : List EntityPlan)
    (next : EntityPlan → Option (SceneText × UInt32)) (code : UnresolvedConstraintCode) :
    Exec CompileError (List UnresolvedConstraint) := do
  let marked ← (List.range entities.length).foldlM (fun state start => do
    let cycle ← walkCycle positions entities next (entities.length + 1) [] start
    cycle.foldlM (reportCycle entities next code) state) (∅, [])
  .ok marked.2

/-- The parent of a plan, with its relation. The two are assigned together, so the `expect` of the
source on the second never fails. -/
def EntityPlan.nextParent (plan : EntityPlan) : Option (SceneText × UInt32) :=
  plan.parent.bind fun parent => plan.parentRelation.map fun relation => (parent, relation)

def EntityPlan.nextAnchor (plan : EntityPlan) : Option (SceneText × UInt32) :=
  plan.placement.map fun placement => (placement.anchor, placement.relationIndex)

def markCycles (positions : Std.ExtTreeMap SceneText ℕ) (entities : List EntityPlan) :
    Exec CompileError (List UnresolvedConstraint) := do
  let hierarchy ← markRelationCycles positions entities EntityPlan.nextParent .hierarchyCycle
  let placements ← markRelationCycles positions entities EntityPlan.nextAnchor .placementCycle
  .ok (hierarchy ++ placements)

/-! ### Placements -/

def isUnrotated (transform : LocalTransform) : Bool :=
  transform.rotation.x.get.feq Binary.zero && transform.rotation.y.get.feq Binary.zero
    && transform.rotation.z.get.feq Binary.zero

def halfExtent (dimension scale : PositiveF32) : F32 :=
  (dimension.get.mul scale.get).mul (.lit 0x3f000000)

def placedAt (anchorAt : FiniteF32) (anchorDimension anchorScale : PositiveF32) (distance : F32)
    (subjectDimension subjectScale : PositiveF32) : Option FiniteF32 :=
  finiteF32 (((anchorAt.get.add (halfExtent anchorDimension anchorScale)).add distance).add
    (halfExtent subjectDimension subjectScale))

def placedTranslation (subject anchor : EntityPlan) (kind : PlacementKind) :
    Except UnresolvedConstraintCode Vec3 :=
  let at' := anchor.transform.translation
  if !isUnrotated subject.transform || !isUnrotated anchor.transform then
    .error .unsupportedSpatialRotation
  else
    match kind with
    | .above clearance =>
      match placedAt at'.y anchor.primitive.dimensions.y anchor.transform.scale.y clearance
          subject.primitive.dimensions.y subject.transform.scale.y with
      | none => .error .nonFinitePlacement
      | some y => .ok ⟨at'.x, y, at'.z⟩
    | .rightOf gap =>
      match placedAt at'.x anchor.primitive.dimensions.x anchor.transform.scale.x gap
          subject.primitive.dimensions.x subject.transform.scale.x with
      | none => .error .nonFinitePlacement
      | some x => .ok ⟨x, at'.y, at'.z⟩

structure Placing where
  entities : List EntityPlan
  resolved : List Bool

def resolvePlacement (positions : Std.ExtTreeMap SceneText ℕ) :
    ℕ → ℕ → Placing → Placing × Exec UnresolvedConstraint Unit
  | 0, _, state => (state, .error .diverge)
  | fuel + 1, index, state =>
    match state.resolved[index]?, state.entities[index]? with
    | some true, _ => (state, .ok ())
    | some false, some subject =>
      match subject.placement with
      | none => ({ state with resolved := state.resolved.set index true }, .ok ())
      | some placement =>
        match positions[placement.anchor]? with
        | none => (state, .error (.panic "no entry found for key"))
        | some anchorIndex =>
          match resolvePlacement positions fuel anchorIndex state with
          | (state, .error abort) => (state, .error abort)
          | (state, .ok ()) =>
            match state.entities[index]?, state.entities[anchorIndex]? with
            | some subject, some anchor =>
              match placedTranslation subject anchor placement.kind with
              | .error code =>
                (state, Exec.fail
                  (relationIssue code placement.relationIndex subject.key placement.anchor))
              | .ok translation =>
                (⟨state.entities.set index
                    { subject with transform := { subject.transform with translation } },
                  state.resolved.set index true⟩, .ok ())
            | _, _ => (state, .error (.panic "index out of bounds"))
    | _, _ => (state, .error (.panic "index out of bounds"))

/-- The loop of `resolve_placements` over the positions that are left. -/
def resolvePlacementsFrom (positions : Std.ExtTreeMap SceneText ℕ) (fuel : ℕ) :
    List ℕ → Placing → List UnresolvedConstraint →
      Exec CompileError (List EntityPlan × List UnresolvedConstraint)
  | [], state, unresolved => .ok (state.entities, unresolved)
  | index :: rest, state, unresolved =>
    match resolvePlacement positions fuel index state with
    | (state, .ok ()) => resolvePlacementsFrom positions fuel rest state unresolved
    | (state, .error (.error issue)) =>
      resolvePlacementsFrom positions fuel rest state (unresolved ++ [issue])
    | (_, .error (.panic message)) => .error (.panic message)
    | (_, .error .diverge) => .error .diverge

def resolvePlacements (positions : Std.ExtTreeMap SceneText ℕ) (entities : List EntityPlan) :
    Exec CompileError (List EntityPlan × List UnresolvedConstraint) :=
  resolvePlacementsFrom positions (entities.length + 1) (List.range entities.length)
    ⟨entities, List.replicate entities.length false⟩ []

/-- The decisions that one plan adds to `append_relation_decisions`. -/
def relationDecisions (entity : EntityPlan) : List CompilationDecision :=
  (entity.parentRelation.toList.map fun relationIndex =>
    ⟨.parentRelationApplied, entity.key, some relationIndex, none⟩)
  ++ entity.placement.toList.map fun placement =>
    ⟨match placement.kind with
      | .above _ => .aboveRelationApplied
      | .rightOf _ => .rightOfRelationApplied,
    entity.key, some placement.relationIndex, none⟩

def createOperation (entity : EntityPlan) : SceneOperation :=
  .create entity.entityId [.name ⟨entity.name⟩, .localTransform entity.transform,
    .primitive entity.primitive, .material entity.material]

def reparentOperation (entities : List EntityPlan) (entity : EntityPlan) :
    Exec CompileError (List SceneOperation) :=
  match entity.parent with
  | none => .ok []
  | some parent => do
    let candidate ← Exec.expect "validated parent key exists"
      (entities.find? fun candidate => candidate.key = parent)
    .ok [.reparent entity.entityId (some candidate.entityId)]

def buildPatch (imagination : ImaginationEnvelope) (entities : List EntityPlan) :
    Exec CompileError ScenePatch := do
  let reparents ← entities.mapM (reparentOperation entities)
  .ok {
    schemaVersion := imagination.schemaVersion
    transactionId := imagination.transactionId
    idempotencyKey := imagination.idempotencyKey
    baseRevision := imagination.baseRevision
    conflictPolicy := .requireExactBase
    delivery := imagination.delivery
    declaredBudget := imagination.declaredBudget.patch
    operations := entities.map createOperation ++ reparents.flatten }

structure Analysis where
  entities : List EntityPlan
  decisions : List CompilationDecision
  unresolved : List UnresolvedConstraint

namespace CompilerConfig

variable (sha256 : List UInt8 → Digest) (serde : SerdeWriter CompilationResult)
  (config : CompilerConfig)

/-- The passes of `compile`. -/
def analyze (imagination : ImaginationEnvelope) (scene : CompilationSceneView) :
    Exec CompileError Analysis := do
  let (entities, decisions) ← config.planEntities sha256 imagination scene
  let unmet := checkSceneConstraints imagination scene
  let positions := keyIndex entities
  let (entities, unassigned) ← assignRelations imagination.relations positions entities unmet
  let parented ← rejectParentedPlacementAnchors positions entities
  let cyclic ← markCycles positions entities
  let unresolved := unassigned ++ parented ++ cyclic
  if unresolved.isEmpty then
    let (entities, unplaced) ← resolvePlacements positions entities
    .ok ⟨entities, decisions, unplaced⟩
  else .ok ⟨entities, decisions, unresolved⟩

def validateCompletedResult (result : CompilationResult) : Exec CompileError CompilationResult :=
  match result.toCanonicalJson serde config.compilationLimits with
  | .ok _ => .ok result
  | .error (.invalidResult validation) => Exec.fail (.invalidCompilationResult validation)
  | .error error => Exec.fail (.invalidCompilationEncoding error)

/-- The end of `compile`: a report of what is unresolved, or the patch. -/
def finish (imagination : ImaginationEnvelope) (scene : CompilationSceneView)
    (analysis : Analysis) : Exec CompileError CompilationResult := do
  let canonical (decisions : List CompilationDecision) : List CompilationDecision :=
    decisions.insertionSort fun left right => (left.canonicalCmp right).isLE
  if analysis.unresolved.isEmpty then
    let patch ← buildPatch imagination analysis.entities
    (Exec.ofExcept (patch.validate config.runtimeLimits)).mapError .invalidNormalizedPatch
    config.validateCompletedResult serde
      ⟨.v1, imagination.imaginationId, scene.revision, some patch,
        canonical (analysis.decisions ++ analysis.entities.flatMap relationDecisions), []⟩
  else
    config.validateCompletedResult serde
      ⟨.v1, imagination.imaginationId, scene.revision, none, canonical analysis.decisions,
        (analysis.unresolved.insertionSort fun left right =>
          (left.canonicalCmp right).isLE).destutter (· ≠ ·)⟩

def compile : Compiler := fun imagination scene => do
  (Exec.ofExcept (imagination.validate config.runtimeLimits)).mapError .invalidImagination
  if imagination.baseRevision ≠ scene.revision then
    Exec.fail (.sceneRevisionMismatch imagination.baseRevision scene.revision)
  else
    let analysis ← config.analyze sha256 imagination scene
    config.finish serde imagination scene analysis

/-- A result that answers an imagination: it names it and the revision it was prepared for, its
patch is applied under its keys, and it can be encoded. -/
structure Answers (imagination : ImaginationEnvelope) (result : CompilationResult) : Prop where
  imaginationId : result.imaginationId = imagination.imaginationId
  sceneRevision : result.sceneRevision = imagination.baseRevision
  patch : ∀ patch, result.patch = some patch →
    patch.idempotencyKey = imagination.idempotencyKey ∧
      patch.transactionId = imagination.transactionId
  encodable : ∃ encoded, result.toCanonicalJson serde config.compilationLimits = .ok encoded

variable {sha256 serde config} {imagination : ImaginationEnvelope} {scene : CompilationSceneView}
  {result : CompilationResult}

theorem validateCompletedResult_eq_ok {completed : CompilationResult}
    (h : config.validateCompletedResult serde completed = .ok result) :
    result = completed ∧
      ∃ encoded, completed.toCanonicalJson serde config.compilationLimits = .ok encoded := by
  rw [validateCompletedResult] at h
  split at h
  · rename_i encoded hencoded
    cases h
    exact ⟨rfl, encoded, hencoded⟩
  · cases h
  · cases h

theorem buildPatch_keys {entities : List EntityPlan} {patch : ScenePatch}
    (h : buildPatch imagination entities = .ok patch) :
    patch.idempotencyKey = imagination.idempotencyKey ∧
      patch.transactionId = imagination.transactionId := by
  obtain ⟨reparents, -, h⟩ := Exec.bind_eq_ok.mp h
  cases h
  exact ⟨rfl, rfl⟩

theorem finish_answers {analysis : Analysis} (hrevision : imagination.baseRevision = scene.revision)
    (h : config.finish serde imagination scene analysis = .ok result) :
    config.Answers serde imagination result := by
  simp only [finish] at h
  split at h
  · obtain ⟨patch, hpatch, h⟩ := Exec.bind_eq_ok.mp h
    obtain ⟨⟨⟩, -, h⟩ := Exec.bind_eq_ok.mp h
    obtain ⟨rfl, hencoded⟩ := validateCompletedResult_eq_ok h
    refine ⟨rfl, hrevision.symm, fun other hother => ?_, hencoded⟩
    cases hother
    exact buildPatch_keys hpatch
  · obtain ⟨rfl, hencoded⟩ := validateCompletedResult_eq_ok h
    exact ⟨rfl, hrevision.symm, by simp, hencoded⟩

theorem compile_answers (h : config.compile sha256 serde imagination scene = .ok result) :
    config.Answers serde imagination result := by
  obtain ⟨⟨⟩, -, h⟩ := Exec.bind_eq_ok.mp h
  split at h
  · cases h
  · rename_i hrevision
    obtain ⟨analysis, -, h⟩ := Exec.bind_eq_ok.mp h
    exact finish_answers (not_not.mp hrevision) h

end CompilerConfig

def sampleFloats : FloatText := fun value =>
  if value = Binary.zero then ⟨asciiBytes "0.0", by decide, List.all_eq_true.mp (by decide)⟩
  else if value = .lit 0x3f333333 then
    ⟨asciiBytes "0.7", by decide, List.all_eq_true.mp (by decide)⟩
  else if value = .lit 0x3f4ccccd then
    ⟨asciiBytes "0.8", by decide, List.all_eq_true.mp (by decide)⟩
  else ⟨asciiBytes "1.0", by decide, List.all_eq_true.mp (by decide)⟩

def sampleEntity (key : SceneText) (entityId : StableEntityId) : ImaginedEntity where
  key := key
  preferredId := some entityId
  name := none
  primitive :=
    let one : PositiveF32 := .lit (.lit 0x3f800000)
    ⟨.cuboid, ⟨one, one, one⟩⟩
  transform := none
  material := none

def sampleImagination : ImaginationEnvelope where
  schemaVersion := .v1
  imaginationId := .lit 1
  transactionId := .lit 1
  idempotencyKey := .lit 1
  baseRevision := .initial
  delivery := .mustApply
  seed := 0
  declaredBudget := .default
  entities := [sampleEntity (.lit "c") (.lit 3), sampleEntity (.lit "b") (.lit 2),
    sampleEntity (.lit "a") (.lit 1)]
  relations := [.above (.lit "b") (.lit "a") (.lit Binary.zero),
    .parent (.lit "c") (.lit "a")]
  constraints := [.entityAbsent (.lit 9)]

theorem sampleImagination_compiles :
    sampleImagination.validate .default = .ok () ∧
      (∃ analysis, (CompilerConfig.new .default).analyze (fun _ => .replicate 32 0)
        sampleImagination ⟨.initial, ∅⟩ = .ok analysis) ∧
      ∃ result patch, (CompilerConfig.new .default).compile (fun _ => .replicate 32 0)
        (CompilationResult.serde sampleFloats) sampleImagination ⟨.initial, ∅⟩ = .ok result ∧
          result.patch = some patch := by
  obtain ⟨result, hresult, hsome⟩ := Exec.exists_ok_of_any
    (x := (CompilerConfig.new .default).compile (fun _ => .replicate 32 0)
      (CompilationResult.serde sampleFloats) sampleImagination ⟨.initial, ∅⟩)
    (p := fun result => result.patch.isSome) (by decide +kernel)
  obtain ⟨patch, hpatch⟩ := Option.isSome_iff_exists.mp hsome
  have h := hresult
  obtain ⟨⟨⟩, hvalid, h⟩ := Exec.bind_eq_ok.mp h
  rw [Exec.mapError_eq_ok, Exec.ofExcept_eq_ok] at hvalid
  split at h
  · cases h
  obtain ⟨analysis, hanalysis, -⟩ := Exec.bind_eq_ok.mp h
  exact ⟨hvalid, ⟨analysis, hanalysis⟩, result, patch, hresult, hpatch⟩

end Cogniform
