import Cogniform.Protocol.Imagination
import Cogniform.Protocol.Observation
import Cogniform.Protocol.Query

/-!
# How messages are written

The JSON value every protocol message is written as: the names of fields and tags, their order, and
which values are wrapped in objects. How a floating-point number is written is left to the
formatter, a `FloatText`. How deeply a message nests follows from its shape.
-/

namespace Cogniform

abbrev FloatText := F32 → NumberText

def maximum (numbers : List ℕ) : ℕ := numbers.foldr max 0

theorem maximum_le {numbers : List ℕ} {bound : ℕ} (h : ∀ n ∈ numbers, n ≤ bound) :
    maximum numbers ≤ bound := by
  induction numbers with
  | nil => exact Nat.zero_le _
  | cons n numbers ih =>
    obtain ⟨hn, hnumbers⟩ := List.forall_mem_cons.mp h
    exact max_le hn (ih hnumbers)

namespace Json

theorem depth_array_map {α : Type} (json : α → Json) (values : List α) :
    (array (values.map json)).depth = maximum (values.map fun value => (json value).depth) + 1 := by
  rw [depth, depthItems_eq, List.map_map]
  rfl

theorem depth_array_map_const {α : Type} {json : α → Json} {n : ℕ}
    (h : ∀ value, (json value).depth = n) (values : List α) :
    (array (values.map json)).depth = if values = [] then 1 else n + 1 := by
  rw [depth_array_map]
  split
  · rename_i hnil
    rw [hnil]
    rfl
  · rename_i hcons
    simp only [h]
    congr 1
    induction values with
    | nil => exact absurd rfl hcons
    | cons value values ih =>
      change max n (maximum (values.map fun _ => n)) = n
      exact max_eq_left (maximum_le fun m hm => by simp_all)

end Json

/-! ### Scalars -/

def OpaqueId.display {name : IdName} (id : OpaqueId name) : List UInt8 :=
  ((Nat.toDigits 16 id.get).leftpad 32 '0').map fun digit => UInt8.ofNat digit.toNat

def OpaqueId.serialize {name : IdName} (id : OpaqueId name) : Json := .string id.display

def displayDigest (digest : Digest) : List UInt8 :=
  digest.toList.flatMap fun byte => [hexDigit (byte.toNat / 16), hexDigit (byte.toNat % 16)]

def SceneRevision.serialize (revision : SceneRevision) : Json := .nat revision.get.toNat

def FrameId.serialize (frame : FrameId) : Json := .nat frame.get.toNat

def SchemaVersion.serialize (version : SchemaVersion) : Json := .nat version.get.toNat

def SceneText.serialize (text : SceneText) : Json := .text text.value

def NonZero.serialize {width : ℕ} (n : NonZero width) : Json := .nat n.get

def FloatValue.serialize {admits : F32 → Bool} (floats : FloatText) (value : FloatValue admits) :
    Json :=
  .number (floats value.get)

section Scalars

@[simp] theorem OpaqueId.depth_serialize {name : IdName} (id : OpaqueId name) :
    id.serialize.depth = 0 := rfl

@[simp] theorem SceneRevision.depth_serialize (revision : SceneRevision) :
    revision.serialize.depth = 0 := rfl

@[simp] theorem FrameId.depth_serialize (frame : FrameId) : frame.serialize.depth = 0 := rfl

@[simp] theorem SchemaVersion.depth_serialize (version : SchemaVersion) :
    version.serialize.depth = 0 := rfl

@[simp] theorem SceneText.depth_serialize (text : SceneText) : text.serialize.depth = 0 := rfl

@[simp] theorem NonZero.depth_serialize {width : ℕ} (n : NonZero width) :
    n.serialize.depth = 0 := rfl

@[simp] theorem FloatValue.depth_serialize {admits : F32 → Bool} (floats : FloatText)
    (value : FloatValue admits) : (value.serialize floats).depth = 0 := rfl

end Scalars

theorem hexDigits_unescaped (n : ℕ) :
    ∀ digit ∈ Nat.toDigits 16 n, isUnescaped (UInt8.ofNat digit.toNat) = true := by
  have hdigit : ∀ n < 16, isUnescaped (UInt8.ofNat (Nat.digitChar n).toNat) = true := by decide
  induction n using Nat.strongRecOn with
  | ind n ih =>
    intro digit hmem
    rw [Nat.toDigits_eq_if (by decide)] at hmem
    split at hmem
    · rename_i hlt
      rw [List.mem_singleton.mp hmem]
      exact hdigit n hlt
    · rcases List.mem_append.mp hmem with hmem | hmem
      · exact ih (n / 16) (by omega) digit hmem
      · rw [List.mem_singleton.mp hmem]
        exact hdigit _ (Nat.mod_lt _ (by decide))

theorem OpaqueId.length_display {name : IdName} (id : OpaqueId name) : id.display.length = 32 := by
  have hdigits : (Nat.toDigits 16 id.get).length ≤ 32 :=
    (Nat.length_toDigits_le_iff (by decide) (by decide)).mpr id.lt
  rw [display, List.length_map, List.leftpad, List.length_append, List.length_replicate]
  omega

theorem OpaqueId.display_unescaped {name : IdName} (id : OpaqueId name) :
    id.display.all isUnescaped = true := by
  rw [display, List.all_map, List.all_eq_true]
  intro digit hdigit
  rcases List.mem_append.mp hdigit with hpad | hdigit
  · rw [List.eq_of_mem_replicate hpad]
    decide
  · exact hexDigits_unescaped id.get digit hdigit

@[simp] theorem OpaqueId.length_write {name : IdName} (id : OpaqueId name) :
    id.serialize.write.length = 34 := by
  rw [serialize, Json.write, length_writeString id.display_unescaped, id.length_display]

theorem SceneRevision.length_write_le (revision : SceneRevision) :
    revision.serialize.write.length ≤ 20 :=
  NumberText.length_ofNat_le (by decide) (by have := revision.get.toNat_lt; omega)

/-! ### Components -/

section Components

variable (floats : FloatText)

def Vec3.serialize (v : Vec3) : Json :=
  .object [("x", v.x.serialize floats), ("y", v.y.serialize floats), ("z", v.z.serialize floats)]

def PositiveVec3.serialize (v : PositiveVec3) : Json :=
  .object [("x", v.x.serialize floats), ("y", v.y.serialize floats), ("z", v.z.serialize floats)]

def Quaternion.serialize (q : Quaternion) : Json :=
  .object [("x", q.x.serialize floats), ("y", q.y.serialize floats), ("z", q.z.serialize floats),
    ("w", q.w.serialize floats)]

def ColorRgb.serialize (color : ColorRgb) : Json :=
  .object [("r", color.r.serialize floats), ("g", color.g.serialize floats),
    ("b", color.b.serialize floats)]

def ColorRgba.serialize (color : ColorRgba) : Json :=
  .object [("r", color.r.serialize floats), ("g", color.g.serialize floats),
    ("b", color.b.serialize floats), ("a", color.a.serialize floats)]

def NameComponent.serialize (name : NameComponent) : Json :=
  .object [("value", name.value.serialize)]

def LocalTransform.serialize (transform : LocalTransform) : Json :=
  .object [("translation", transform.translation.serialize floats),
    ("rotation", transform.rotation.serialize floats), ("scale", transform.scale.serialize floats)]

def PrimitiveShape.serialize : PrimitiveShape → Json
  | .cuboid => .text "cuboid"
  | .plane => .text "plane"
  | .sphere => .text "sphere"

def PrimitiveComponent.serialize (primitive : PrimitiveComponent) : Json :=
  .object [("shape", primitive.shape.serialize),
    ("dimensions", primitive.dimensions.serialize floats)]

def MaterialComponent.serialize (material : MaterialComponent) : Json :=
  .object [("base_color", material.baseColor.serialize floats),
    ("metallic", material.metallic.serialize floats),
    ("roughness", material.roughness.serialize floats)]

def CameraComponent.serialize (camera : CameraComponent) : Json :=
  .object [("vertical_fov_radians", camera.verticalFovRadians.serialize floats),
    ("near", camera.near.serialize floats), ("far", camera.far.serialize floats)]

def LightKind.serialize : LightKind → Json
  | .directional => .text "directional"
  | .point => .text "point"

def LightComponent.serialize (light : LightComponent) : Json :=
  .object [("kind", light.kind.serialize), ("color", light.color.serialize floats),
    ("intensity", light.intensity.serialize floats)]

def AssetMeshComponent.serialize (mesh : AssetMeshComponent) : Json :=
  .object [("content_hash", .string (displayDigest mesh.contentHash)),
    ("mesh_index", .nat mesh.meshIndex.toNat)]

def ComponentKind.snakeName : ComponentKind → String
  | .name => "name"
  | .localTransform => "local_transform"
  | .primitive => "primitive"
  | .material => "material"
  | .camera => "camera"
  | .light => "light"
  | .assetMesh => "asset_mesh"

def ComponentKind.serialize (kind : ComponentKind) : Json := .text kind.snakeName

def ComponentValue.content : ComponentValue → Json
  | .name value => value.serialize
  | .localTransform value => value.serialize floats
  | .primitive value => value.serialize floats
  | .material value => value.serialize floats
  | .camera value => value.serialize floats
  | .light value => value.serialize floats
  | .assetMesh value => value.serialize

/-- `ComponentValue`, tagged. -/
def ComponentValue.serialize (component : ComponentValue) : Json :=
  .object [("component", component.kind.serialize), ("value", component.content floats)]

def ComponentValue.nesting : ComponentValue → ℕ
  | .name _ | .camera _ | .assetMesh _ => 2
  | .localTransform _ | .primitive _ | .material _ | .light _ => 3

variable {floats}

@[simp] theorem ComponentKind.depth_serialize (kind : ComponentKind) : kind.serialize.depth = 0 :=
  rfl

theorem PrimitiveComponent.depth_serialize (primitive : PrimitiveComponent) :
    (primitive.serialize floats).depth = 2 := by
  obtain ⟨shape, _⟩ := primitive
  cases shape <;> rfl

theorem ComponentValue.depth_serialize (component : ComponentValue) :
    (component.serialize floats).depth = component.nesting := by
  cases component with
  | name value => rfl
  | localTransform value => rfl
  | primitive value =>
    change max 0 (max (value.serialize floats).depth 0) + 1 = 3
    rw [value.depth_serialize]
    rfl
  | material value => rfl
  | camera value => rfl
  | light value =>
    obtain ⟨kind, _, _⟩ := value
    cases kind <;> rfl
  | assetMesh value => rfl

theorem ComponentValue.nesting_le (component : ComponentValue) : component.nesting ≤ 3 := by
  cases component <;> simp [ComponentValue.nesting]

end Components

/-! ### Patches and receipts -/

def ConflictPolicy.serialize : ConflictPolicy → Json
  | .requireExactBase => .text "require_exact_base"

/-- `DeliverySemantic`, with its tag among the fields. -/
def DeliverySemantic.serialize : DeliverySemantic → Json
  | .mustApply => .object [("mode", .text "must_apply")]
  | .latestWins key => .object [("mode", .text "latest_wins"), ("supersession_key", key.serialize)]
  | .bestEffort => .object [("mode", .text "best_effort")]

def PatchBudget.serialize (budget : PatchBudget) : Json :=
  .object [("max_operations", budget.maxOperations.serialize),
    ("max_components", budget.maxComponents.serialize),
    ("max_text_bytes", budget.maxTextBytes.serialize),
    ("max_decoded_bytes", budget.maxDecodedBytes.serialize)]

/-- `SceneOperation`, tagged. -/
def SceneOperation.serialize (floats : FloatText) : SceneOperation → Json
  | .create entityId components =>
    .object [("operation", .text "create"), ("value", .object [("entity_id", entityId.serialize),
      ("components", .array (components.map (ComponentValue.serialize floats)))])]
  | .delete entityId =>
    .object [("operation", .text "delete"), ("value", .object [("entity_id", entityId.serialize)])]
  | .setComponent entityId component =>
    .object [("operation", .text "set_component"), ("value", .object
      [("entity_id", entityId.serialize), ("component", component.serialize floats)])]
  | .removeComponent entityId component =>
    .object [("operation", .text "remove_component"), ("value", .object
      [("entity_id", entityId.serialize), ("component", component.serialize)])]
  | .reparent entityId parentId =>
    .object [("operation", .text "reparent"), ("value", .object
      [("entity_id", entityId.serialize), ("parent_id", .nullable OpaqueId.serialize parentId)])]

def ScenePatch.serialize (floats : FloatText) (patch : ScenePatch) : Json :=
  .object [("schema_version", patch.schemaVersion.serialize),
    ("transaction_id", patch.transactionId.serialize),
    ("idempotency_key", patch.idempotencyKey.serialize),
    ("base_revision", patch.baseRevision.serialize),
    ("conflict_policy", patch.conflictPolicy.serialize),
    ("delivery", patch.delivery.serialize),
    ("declared_budget", patch.declaredBudget.serialize),
    ("operations", .array (patch.operations.map (SceneOperation.serialize floats)))]

def ApplyStatus.serialize : ApplyStatus → Json
  | .applied => .text "applied"
  | .idempotentReplay => .text "idempotent_replay"

def ApplyTiming.serialize (timing : ApplyTiming) : Json :=
  .object [("decode_micros", .nat timing.decodeMicros.toNat),
    ("validate_micros", .nat timing.validateMicros.toNat),
    ("commit_micros", .nat timing.commitMicros.toNat)]

def DiagnosticCode.snakeName : DiagnosticCode → String
  | .unsupportedSchema => "unsupported_schema"
  | .emptyPatch => "empty_patch"
  | .operationLimitExceeded => "operation_limit_exceeded"
  | .componentLimitExceeded => "component_limit_exceeded"
  | .textLimitExceeded => "text_limit_exceeded"
  | .decodedSizeLimitExceeded => "decoded_size_limit_exceeded"
  | .diagnosticLimitExceeded => "diagnostic_limit_exceeded"
  | .queueCapacityExceeded => "queue_capacity_exceeded"
  | .emptyImagination => "empty_imagination"
  | .imaginationEntityLimitExceeded => "imagination_entity_limit_exceeded"
  | .imaginationRelationLimitExceeded => "imagination_relation_limit_exceeded"
  | .imaginationConstraintLimitExceeded => "imagination_constraint_limit_exceeded"
  | .duplicateImaginationEntity => "duplicate_imagination_entity"
  | .duplicateQueryFilter => "duplicate_query_filter"
  | .queryEntityLimitExceeded => "query_entity_limit_exceeded"
  | .nonCanonicalQueryResult => "non_canonical_query_result"
  | .invalidComponentValue => "invalid_component_value"
  | .duplicateComponent => "duplicate_component"
  | .selfParent => "self_parent"
  | .invalidReceiptRevision => "invalid_receipt_revision"
  | .invalidReceiptOperationCount => "invalid_receipt_operation_count"
  | .invalidObservationDimensions => "invalid_observation_dimensions"
  | .observationPixelLimitExceeded => "observation_pixel_limit_exceeded"
  | .invalidObservationStaleness => "invalid_observation_staleness"

def DiagnosticSeverity.serialize : DiagnosticSeverity → Json
  | .info => .text "info"
  | .warning => .text "warning"
  | .error => .text "error"

def Diagnostic.serialize (diagnostic : Diagnostic) : Json :=
  .object [("code", .text diagnostic.code.snakeName), ("severity", diagnostic.severity.serialize),
    ("message", diagnostic.message.serialize),
    ("operation_index", .nullable (fun index => .nat index.toNat) diagnostic.operationIndex),
    ("entity_id", .nullable OpaqueId.serialize diagnostic.entityId)]

def ApplyReceipt.serialize (receipt : ApplyReceipt) : Json :=
  .object [("schema_version", receipt.schemaVersion.serialize),
    ("transaction_id", receipt.transactionId.serialize),
    ("idempotency_key", receipt.idempotencyKey.serialize),
    ("status", receipt.status.serialize),
    ("previous_revision", receipt.previousRevision.serialize),
    ("new_revision", receipt.newRevision.serialize),
    ("operation_count", receipt.operationCount.serialize),
    ("diagnostics", .array (receipt.diagnostics.map Diagnostic.serialize)),
    ("timing", receipt.timing.serialize),
    ("estimated_visible_frame", receipt.estimatedVisibleFrame.serialize)]

def SceneOperation.nesting : SceneOperation → ℕ
  | .create _ components => maximum (components.map ComponentValue.nesting) + 3
  | .setComponent _ component => component.nesting + 2
  | .delete _ | .removeComponent _ _ | .reparent _ _ => 2

def ScenePatch.nesting (patch : ScenePatch) : ℕ :=
  maximum (patch.operations.map SceneOperation.nesting) + 2

def ApplyReceipt.nesting (receipt : ApplyReceipt) : ℕ := if receipt.diagnostics = [] then 2 else 3

section Patches

variable {floats : FloatText}

@[simp] theorem ConflictPolicy.depth_serialize (policy : ConflictPolicy) :
    policy.serialize.depth = 0 := by
  cases policy
  rfl

@[simp] theorem DeliverySemantic.depth_serialize (delivery : DeliverySemantic) :
    delivery.serialize.depth = 1 := by
  cases delivery <;> rfl

@[simp] theorem PatchBudget.depth_serialize (budget : PatchBudget) : budget.serialize.depth = 1 :=
  rfl

theorem SceneOperation.depth_serialize (operation : SceneOperation) :
    (operation.serialize floats).depth = operation.nesting := by
  cases operation with
  | create entityId components =>
    simp [serialize, nesting, Json.depth_array_map,
      ComponentValue.depth_serialize]
  | delete entityId => rfl
  | setComponent entityId component =>
    simp [serialize, nesting, ComponentValue.depth_serialize]
  | removeComponent entityId component => rfl
  | reparent entityId parentId => cases parentId <;> rfl

theorem ScenePatch.depth_serialize (patch : ScenePatch) :
    (patch.serialize floats).depth = patch.nesting := by
  simp [serialize, nesting, Json.depth_array_map,
    SceneOperation.depth_serialize]

theorem SceneOperation.nesting_le (operation : SceneOperation) : operation.nesting ≤ 6 := by
  cases operation with
  | create entityId components =>
    have h : maximum (components.map ComponentValue.nesting) ≤ 3 :=
      maximum_le (by simpa using fun component _ => component.nesting_le)
    simp only [nesting]
    omega
  | setComponent entityId component =>
    have h := component.nesting_le
    simp only [nesting]
    omega
  | _ => simp [nesting]

theorem ScenePatch.nesting_le (patch : ScenePatch) : patch.nesting ≤ 8 := by
  have h : maximum (patch.operations.map SceneOperation.nesting) ≤ 6 :=
    maximum_le (by simpa using fun operation _ => operation.nesting_le)
  rw [nesting]
  omega

theorem Diagnostic.depth_serialize (diagnostic : Diagnostic) : diagnostic.serialize.depth = 1 := by
  obtain ⟨code, severity, message, operationIndex, entityId⟩ := diagnostic
  cases severity <;> cases operationIndex <;> cases entityId <;> rfl

theorem ApplyReceipt.depth_serialize (receipt : ApplyReceipt) :
    receipt.serialize.depth = receipt.nesting := by
  have hstatus : receipt.status.serialize.depth = 0 := by cases receipt.status <;> rfl
  have htiming : receipt.timing.serialize.depth = 1 := rfl
  simp only [serialize, nesting, Json.depth_object, Json.depthFields_cons, Json.depthFields_nil, hstatus, htiming,
    Json.depth_array_map_const Diagnostic.depth_serialize, SchemaVersion.depth_serialize,
    OpaqueId.depth_serialize, SceneRevision.depth_serialize, NonZero.depth_serialize,
    FrameId.depth_serialize]
  split <;> rfl

end Patches

/-! ### Observations -/

def ObservationKind.serialize : ObservationKind → Json
  | .color => .text "color"
  | .depth => .text "depth"
  | .normal => .text "normal"
  | .entityId => .text "entity_id"
  | .visibility => .text "visibility"

def ObservationQuality.serialize : ObservationQuality → Json
  | .low => .text "low"
  | .medium => .text "medium"
  | .high => .text "high"

def ObservationRequest.serialize (request : ObservationRequest) : Json :=
  .object [("schema_version", request.schemaVersion.serialize),
    ("observation_id", request.observationId.serialize),
    ("scene_revision", request.sceneRevision.serialize),
    ("camera_id", request.cameraId.serialize),
    ("kind", request.kind.serialize), ("quality", request.quality.serialize)]

def ImageDimensions.serialize (dimensions : ImageDimensions) : Json :=
  .object [("width", dimensions.width.serialize), ("height", dimensions.height.serialize)]

def ObservationStaleness.serialize (staleness : ObservationStaleness) : Json :=
  .object [("latest_known_revision", staleness.latestKnownRevision.serialize),
    ("revisions_behind", .nat staleness.revisionsBehind.toNat)]

def ObservationMetadata.serialize (metadata : ObservationMetadata) : Json :=
  .object [("schema_version", metadata.schemaVersion.serialize),
    ("observation_id", metadata.observationId.serialize),
    ("scene_revision", metadata.sceneRevision.serialize),
    ("frame_id", metadata.frameId.serialize),
    ("camera_id", metadata.cameraId.serialize),
    ("kind", metadata.kind.serialize),
    ("dimensions", .nullable ImageDimensions.serialize metadata.dimensions),
    ("quality", metadata.quality.serialize),
    ("observed_at_unix_micros", .nat metadata.observedAtUnixMicros.toNat),
    ("production_latency_micros", .nat metadata.productionLatencyMicros.toNat),
    ("staleness", metadata.staleness.serialize)]

@[simp] theorem ObservationKind.depth_serialize (kind : ObservationKind) :
    kind.serialize.depth = 0 := by
  cases kind <;> rfl

@[simp] theorem ObservationQuality.depth_serialize (quality : ObservationQuality) :
    quality.serialize.depth = 0 := by
  cases quality <;> rfl

theorem ObservationRequest.depth_serialize (request : ObservationRequest) :
    request.serialize.depth = 1 := by
  simp [serialize]

theorem ObservationMetadata.depth_serialize (metadata : ObservationMetadata) :
    metadata.serialize.depth = 2 := by
  have hstaleness : metadata.staleness.serialize.depth = 1 := rfl
  have hdimensions : (Json.nullable ImageDimensions.serialize metadata.dimensions).depth ≤ 1 := by
    cases metadata.dimensions with
    | none => exact Nat.zero_le _
    | some dimensions => exact le_rfl
  simp only [serialize, Json.depth_object, Json.depthFields_cons, Json.depthFields_nil, hstaleness, ObservationKind.depth_serialize,
    ObservationQuality.depth_serialize, SchemaVersion.depth_serialize, OpaqueId.depth_serialize,
    SceneRevision.depth_serialize, FrameId.depth_serialize, Json.depth_nat]
  omega

/-! ### Queries -/

def SceneQuery.serialize (query : SceneQuery) : Json :=
  .object [("schema_version", query.schemaVersion.serialize),
    ("scene_revision", query.sceneRevision.serialize),
    ("entity_ids", .array (query.entityIds.map OpaqueId.serialize)),
    ("component_kinds", .array (query.componentKinds.map ComponentKind.serialize)),
    ("limit", query.limit.serialize)]

def SceneEntityView.serialize (floats : FloatText) (entity : SceneEntityView) : Json :=
  .object [("entity_id", entity.entityId.serialize),
    ("parent_id", .nullable OpaqueId.serialize entity.parentId),
    ("components", .array (entity.components.map (ComponentValue.serialize floats)))]

def SceneQueryResult.serialize (floats : FloatText) (result : SceneQueryResult) : Json :=
  .object [("schema_version", result.schemaVersion.serialize),
    ("scene_revision", result.sceneRevision.serialize),
    ("entities", .array (result.entities.map (SceneEntityView.serialize floats)))]

def SceneEntityView.nesting (entity : SceneEntityView) : ℕ :=
  maximum (entity.components.map ComponentValue.nesting) + 2

def SceneQueryResult.nesting (result : SceneQueryResult) : ℕ :=
  maximum (result.entities.map SceneEntityView.nesting) + 2

section Queries

variable {floats : FloatText}

theorem SceneQuery.depth_serialize (query : SceneQuery) : query.serialize.depth = 2 := by
  have hids : (Json.array (query.entityIds.map OpaqueId.serialize)).depth = 1 := by
    rw [Json.depth_array_map_const (n := 0) fun _ => rfl]
    split <;> rfl
  have hkinds : (Json.array (query.componentKinds.map ComponentKind.serialize)).depth = 1 := by
    rw [Json.depth_array_map_const (n := 0) fun _ => rfl]
    split <;> rfl
  simp [serialize, hids, hkinds]

theorem SceneEntityView.depth_serialize (entity : SceneEntityView) :
    (entity.serialize floats).depth = entity.nesting := by
  have hparent : (Json.nullable OpaqueId.serialize entity.parentId).depth = 0 := by
    cases entity.parentId <;> rfl
  simp [serialize, nesting, Json.depth_array_map, ComponentValue.depth_serialize, hparent]

theorem SceneQueryResult.depth_serialize (result : SceneQueryResult) :
    (result.serialize floats).depth = result.nesting := by
  simp [serialize, nesting, Json.depth_array_map,
    SceneEntityView.depth_serialize]

theorem SceneQueryResult.nesting_le (result : SceneQueryResult) : result.nesting ≤ 7 := by
  have hentity : ∀ entity ∈ result.entities, SceneEntityView.nesting entity ≤ 5 := by
    intro entity _
    have h : maximum (entity.components.map ComponentValue.nesting) ≤ 3 :=
      maximum_le (by simpa using fun component _ => component.nesting_le)
    rw [SceneEntityView.nesting]
    omega
  have h : maximum (result.entities.map SceneEntityView.nesting) ≤ 5 :=
    maximum_le (by simpa using hentity)
  rw [nesting]
  omega

end Queries

/-! ### Imaginations -/

def ImaginationBudget.serialize (budget : ImaginationBudget) : Json :=
  .object [("max_entities", budget.maxEntities.serialize),
    ("max_relations", budget.maxRelations.serialize),
    ("max_constraints", budget.maxConstraints.serialize), ("patch", budget.patch.serialize)]

def ImaginedEntity.serialize (floats : FloatText) (entity : ImaginedEntity) : Json :=
  .object [("key", entity.key.serialize),
    ("preferred_id", .nullable OpaqueId.serialize entity.preferredId),
    ("name", .nullable SceneText.serialize entity.name),
    ("primitive", entity.primitive.serialize floats),
    ("transform", .nullable (LocalTransform.serialize floats) entity.transform),
    ("material", .nullable (MaterialComponent.serialize floats) entity.material)]

/-- `ImaginationRelation`, tagged. -/
def ImaginationRelation.serialize (floats : FloatText) : ImaginationRelation → Json
  | .parent childKey parentKey =>
    .object [("relation", .text "parent"), ("value", .object
      [("child", childKey.serialize), ("parent", parentKey.serialize)])]
  | .above subject anchor clearance =>
    .object [("relation", .text "above"), ("value", .object [("subject", subject.serialize),
      ("anchor", anchor.serialize), ("clearance", clearance.serialize floats)])]
  | .rightOf subject anchor gap =>
    .object [("relation", .text "right_of"), ("value", .object [("subject", subject.serialize),
      ("anchor", anchor.serialize), ("gap", gap.serialize floats)])]

/-- `ImaginationConstraint`, tagged. -/
def ImaginationConstraint.serialize : ImaginationConstraint → Json
  | .entityExists entityId =>
    .object [("constraint", .text "entity_exists"),
      ("value", .object [("entity_id", entityId.serialize)])]
  | .entityAbsent entityId =>
    .object [("constraint", .text "entity_absent"),
      ("value", .object [("entity_id", entityId.serialize)])]

def ImaginationEnvelope.serialize (floats : FloatText) (imagination : ImaginationEnvelope) : Json :=
  .object [("schema_version", imagination.schemaVersion.serialize),
    ("imagination_id", imagination.imaginationId.serialize),
    ("transaction_id", imagination.transactionId.serialize),
    ("idempotency_key", imagination.idempotencyKey.serialize),
    ("base_revision", imagination.baseRevision.serialize),
    ("delivery", imagination.delivery.serialize),
    ("seed", .nat imagination.seed.toNat),
    ("declared_budget", imagination.declaredBudget.serialize),
    ("entities", .array (imagination.entities.map (ImaginedEntity.serialize floats))),
    ("relations", .array (imagination.relations.map (ImaginationRelation.serialize floats))),
    ("constraints", .array (imagination.constraints.map ImaginationConstraint.serialize))]

def ImaginationEnvelope.nesting (imagination : ImaginationEnvelope) : ℕ :=
  if imagination.entities ≠ [] then 5
  else if imagination.relations ≠ [] ∨ imagination.constraints ≠ [] then 4
  else 3

section Imaginations

variable {floats : FloatText}

theorem ImaginedEntity.depth_serialize (entity : ImaginedEntity) :
    (entity.serialize floats).depth = 3 := by
  obtain ⟨key, preferredId, name, ⟨shape, dimensions⟩, transform, material⟩ := entity
  cases preferredId <;> cases name <;> cases transform <;> cases material <;> cases shape <;> rfl

theorem ImaginationRelation.depth_serialize (relation : ImaginationRelation) :
    (relation.serialize floats).depth = 2 := by
  cases relation <;> rfl

theorem ImaginationConstraint.depth_serialize (constraint : ImaginationConstraint) :
    constraint.serialize.depth = 2 := by
  cases constraint <;> rfl

theorem ImaginationEnvelope.depth_serialize (imagination : ImaginationEnvelope) :
    (imagination.serialize floats).depth = imagination.nesting := by
  have hbudget : imagination.declaredBudget.serialize.depth = 2 := rfl
  simp only [serialize, nesting, Json.depth_object, Json.depthFields_cons, Json.depthFields_nil, hbudget,
    Json.depth_array_map_const ImaginedEntity.depth_serialize,
    Json.depth_array_map_const ImaginationRelation.depth_serialize,
    Json.depth_array_map_const ImaginationConstraint.depth_serialize,
    DeliverySemantic.depth_serialize, SchemaVersion.depth_serialize, OpaqueId.depth_serialize,
    SceneRevision.depth_serialize, Json.depth_nat]
  by_cases hentities : imagination.entities = [] <;>
    by_cases hrelations : imagination.relations = [] <;>
      by_cases hconstraints : imagination.constraints = [] <;>
        simp [hentities, hrelations, hconstraints]

end Imaginations

end Cogniform
