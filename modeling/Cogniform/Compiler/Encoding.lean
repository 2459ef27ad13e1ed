import Cogniform.Compiler.Admitted

/-!
# Encoded results

The limits of results are meant to admit whatever the compiler makes of a valid imagination. For the
bytes of the encoding they take the limit for messages and add room for decisions, entries and
escapes. A report of what is unresolved does fit. The patch, though, is accounted for by the limit
for messages alone: where that is low and there are many entities, the allowances run out.
-/

namespace Cogniform

/-! ### The draft -/

def draftId : StableEntityId := .lit 1

namespace ImaginationEnvelope

/-- The operations of the patch: one for each entity, which stands where it is told to, and one for
each parent. -/
def draftOperations (imagination : ImaginationEnvelope) (stand : ImaginedEntity → LocalTransform) :
    List SceneOperation :=
  (imagination.entities.map fun entity => createOperation (entity.standing (stand entity))) ++
    List.replicate imagination.reparentTotal (.reparent draftId (some draftId))

def draft (imagination : ImaginationEnvelope) (scene : CompilationSceneView)
    (decisions : List CompilationDecision) (stand : ImaginedEntity → LocalTransform) :
    CompilationResult :=
  ⟨.v1, imagination.imaginationId, scene.revision,
    some { builtPatch imagination [] with operations := imagination.draftOperations stand },
    decisions ++ imagination.relations.zipIdx.map fun (relation, index) => relation.decision index,
    []⟩

end ImaginationEnvelope

section Length

variable {floats : FloatText}

variable {imagination : ImaginationEnvelope} {scene : CompilationSceneView}
  {base plans final : List EntityPlan} {decisions : List CompilationDecision}
  (hplanned : Planned imagination scene base decisions)
  (h : Complete imagination scene base plans final)
  {stand : ImaginedEntity → LocalTransform}
  (hstands : ∀ entity ∈ imagination.entities, Stands imagination entity (stand entity))

include hplanned h hstands

end Length

section Outcome

variable {imagination : ImaginationEnvelope} {scene : CompilationSceneView}
  {base : List EntityPlan} {decisions : List CompilationDecision} {analysis : Analysis}
  (hplanned : Planned imagination scene base decisions)
  (h : Analysed imagination scene base decisions analysis)

include hplanned h

end Outcome

/-! ### Reports fit -/

section Report

theorem length_utf8 (text : String) : (utf8 text).length = text.utf8ByteSize := rfl

theorem SceneText.length_serialize_le (text : SceneText) :
    text.serialize.write.length ≤ 6 * text.lenBytes + 2 := by
  have h := length_writeString_le (utf8 text.value)
  rw [length_utf8] at h
  exact h

theorem length_nullable_text_le (text : Option SceneText) :
    (Json.nullable SceneText.serialize text).write.length ≤
      6 * text.elim 0 SceneText.lenBytes + 4 := by
  cases text with
  | none => decide
  | some text => exact text.length_serialize_le.trans (by simp)

theorem length_nullable_index_le (index : Option UInt32) :
    (Json.nullable (fun index : UInt32 => Json.nat index.toNat) index).write.length ≤ 10 := by
  cases index with
  | none => decide
  | some index =>
    exact NumberText.length_ofNat_le (by decide) (by have := index.toNat_lt; omega)

theorem length_nullable_id_le (entityId : Option StableEntityId) :
    (Json.nullable OpaqueId.serialize entityId).write.length ≤ 34 := by
  cases entityId with
  | none => decide
  | some entityId => exact entityId.length_write.le

theorem CompilationDecision.length_serialize (decision : CompilationDecision) :
    decision.serialize.write.length =
      (Json.text decision.code.snakeName).write.length +
        decision.entityKey.serialize.write.length +
        (Json.nullable (fun index : UInt32 => Json.nat index.toNat)
          decision.relationIndex).write.length +
        (Json.nullable OpaqueId.serialize decision.entityId).write.length + 54 := by
  have hcodeName : (writeString (utf8 "code")).length = 6 := rfl
  have hkeyName : (writeString (utf8 "entity_key")).length = 12 := rfl
  have hindexName : (writeString (utf8 "relation_index")).length = 16 := rfl
  have hidName : (writeString (utf8 "entity_id")).length = 11 := rfl
  simp only [serialize, Json.length_write_object, List.map_cons, List.map_nil, List.sum_cons,
    List.sum_nil, Json.fieldLength, hcodeName, hkeyName, hindexName, hidName]
  omega

theorem CompilationDecision.length_serialize_le (decision : CompilationDecision) :
    decision.serialize.write.length + 1 ≤ 6 * decision.entityKey.lenBytes + 192 := by
  have hcode : (Json.text decision.code.snakeName).write.length ≤ 33 := by
    cases decision.code <;> decide
  have hkey := decision.entityKey.length_serialize_le
  have hindex := length_nullable_index_le decision.relationIndex
  have hid := length_nullable_id_le decision.entityId
  rw [length_serialize]
  omega

theorem UnresolvedConstraint.length_serialize_le (entry : UnresolvedConstraint) :
    entry.serialize.write.length + 1 ≤ 6 * (entry.entityKey.elim 0 SceneText.lenBytes +
      entry.relatedKey.elim 0 SceneText.lenBytes) + 256 := by
  have hcode : (Json.text entry.code.snakeName).write.length ≤ 30 := by
    cases entry.code <;> decide
  have hrelation := length_nullable_index_le entry.relationIndex
  have hconstraint := length_nullable_index_le entry.constraintIndex
  have hkey := length_nullable_text_le entry.entityKey
  have hrelated := length_nullable_text_le entry.relatedKey
  have hid := length_nullable_id_le entry.entityId
  have hcodeName : (writeString (utf8 "code")).length = 6 := rfl
  have hrelationName : (writeString (utf8 "relation_index")).length = 16 := rfl
  have hconstraintName : (writeString (utf8 "constraint_index")).length = 18 := rfl
  have hkeyName : (writeString (utf8 "entity_key")).length = 12 := rfl
  have hrelatedName : (writeString (utf8 "related_key")).length = 13 := rfl
  have hidName : (writeString (utf8 "entity_id")).length = 11 := rfl
  simp only [serialize, Json.length_write_object, List.map_cons, List.map_nil, List.sum_cons,
    List.sum_nil, Json.fieldLength, hcodeName, hrelationName, hconstraintName, hkeyName,
    hrelatedName, hidName]
  omega

theorem length_array_le {α : Type} {json : α → Json} {size : α → ℕ} {each : ℕ} {items : List α}
    (h : ∀ item ∈ items, (json item).write.length + 1 ≤ 6 * size item + each) :
    (Json.array (items.map json)).write.length ≤
      6 * (items.map size).sum + each * items.length + 2 := by
  have hsum : ((items.map json).map fun item => item.write.length).sum + items.length ≤
      6 * (items.map size).sum + each * items.length := by
    induction items with
    | nil => simp
    | cons item items ih =>
      obtain ⟨hitem, hitems⟩ := List.forall_mem_cons.mp h
      have := ih hitems
      simp only [List.map_cons, List.sum_cons, List.length_cons, Nat.mul_add, Nat.mul_one]
      omega
  rw [Json.length_write_array, List.length_map]
  omega

theorem CompilationResult.length_serialize_le {result : CompilationResult} {floats : FloatText}
    (hschema : result.schemaVersion = .v1) (hpatch : result.patch = none)
    (htext : result.reportText < 2 ^ 60) :
    (result.serialize floats).write.length ≤
      6 * result.reportText + 192 * result.decisions.length + 256 * result.unresolved.length +
        1000 := by
  have hshort : ∀ text : SceneText, textLen text < 2 ^ 60 → text.lenBytes = textLen text := by
    intro text hlt
    rw [textLen, count64] at hlt ⊢
    omega
  have hdecisions : (Json.array (result.decisions.map
      CompilationDecision.serialize)).write.length ≤
      6 * (result.decisions.map fun decision => textLen decision.entityKey).sum +
        192 * result.decisions.length + 2 := by
    refine length_array_le fun decision hmem => ?_
    have hle : textLen decision.entityKey ≤
        (result.decisions.map fun decision => textLen decision.entityKey).sum :=
      List.le_sum_of_mem (List.mem_map_of_mem (f := fun decision : CompilationDecision =>
        textLen decision.entityKey) hmem)
    rw [reportText] at htext
    rw [← hshort _ (by omega)]
    exact decision.length_serialize_le
  have hunresolved : (Json.array (result.unresolved.map
      UnresolvedConstraint.serialize)).write.length ≤
      6 * (result.unresolved.map UnresolvedConstraint.textBytes).sum +
        256 * result.unresolved.length + 2 := by
    refine length_array_le fun entry hmem => ?_
    have hle : entry.textBytes ≤ (result.unresolved.map UnresolvedConstraint.textBytes).sum :=
      List.le_sum_of_mem (List.mem_map_of_mem hmem)
    rw [reportText] at htext
    have hsame : ∀ text : Option SceneText, optionalTextBytes text < 2 ^ 60 →
        text.elim 0 SceneText.lenBytes = optionalTextBytes text := by
      intro text hlt
      cases text with
      | none => rfl
      | some text => exact hshort text hlt
    rw [UnresolvedConstraint.textBytes] at hle ⊢
    rw [← hsame _ (by omega), ← hsame _ (by omega)]
    exact entry.length_serialize_le
  have hversion : SchemaVersion.v1.serialize.write.length = 1 := rfl
  have hrevision := result.sceneRevision.length_write_le
  have hversionName : (writeString (utf8 "schema_version")).length = 16 := rfl
  have hidName : (writeString (utf8 "imagination_id")).length = 16 := rfl
  have hrevisionName : (writeString (utf8 "scene_revision")).length = 16 := rfl
  have hpatchName : (writeString (utf8 "patch")).length = 7 := rfl
  have hdecisionsName : (writeString (utf8 "decisions")).length = 11 := rfl
  have hunresolvedName : (writeString (utf8 "unresolved")).length = 12 := rfl
  have hnull : Json.null.write.length = 4 := rfl
  simp only [serialize, hschema, hpatch, Json.nullable, Json.length_write_object, List.map_cons,
    List.map_nil, List.sum_cons, List.sum_nil, Json.fieldLength, OpaqueId.length_write, hversion,
    hversionName, hidName, hrevisionName, hpatchName, hdecisionsName, hunresolvedName, hnull,
    reportText]
  omega

end Report

theorem CompilationDecision.depth_serialize (decision : CompilationDecision) :
    decision.serialize.depth = 1 := by
  obtain ⟨code, entityKey, relationIndex, entityId⟩ := decision
  cases relationIndex <;> cases entityId <;> rfl

theorem UnresolvedConstraint.depth_serialize (entry : UnresolvedConstraint) :
    entry.serialize.depth = 1 := by
  obtain ⟨code, relationIndex, constraintIndex, entityKey, relatedKey, entityId⟩ := entry
  cases relationIndex <;> cases constraintIndex <;> cases entityKey <;> cases relatedKey <;>
    cases entityId <;> rfl

namespace CompilerConfig

variable {sha256 : List UInt8 → Digest} {serde : SerdeWriter CompilationResult}
  {floats : FloatText} {limits : RuntimeLimits} {imagination : ImaginationEnvelope}
  {scene : CompilationSceneView}

section Valid

variable (hvalid : imagination.validate limits = .ok ())
  (hentities : imagination.entities.length < 2 ^ 29)
  (hrelations : imagination.relations.length < 2 ^ 29)
  (hconstraints : imagination.constraints.length < 2 ^ 29)
  (htext : imagination.textTotal < 2 ^ 57)

include hvalid hentities hrelations hconstraints

end Valid

end CompilerConfig

end Cogniform
