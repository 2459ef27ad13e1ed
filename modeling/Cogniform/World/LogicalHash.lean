import Cogniform.Lib.Unambiguous
import Cogniform.World.State

/-!
# What the logical hash identifies

The hash of a world is taken of a text without separators: identities, an optional parent, counted
lists, a length before each name and a tag before each component. The text is unambiguous, part by
part, so two snapshots have the same one exactly when they agree on everything but the revision.
-/

namespace Cogniform

theorem unambiguous_bigEndian (width : ℕ) :
    Unambiguous fun (n : ℕ) u => n < 256 ^ width ∧ u = bigEndian width n := by
  refine @Unambiguous.of_length _ _ _ width (fun n u hn => ?_) fun m n u hm hn => ?_
  · rw [hn.2, length_bigEndian]
  · rw [← ofBigEndian_bigEndian hm.1, ← hm.2, hn.2, ofBigEndian_bigEndian hn.1]

theorem unambiguous_lengthBytes {ε : Type} (message : String) :
    Unambiguous fun (length : ℕ) u => (lengthBytes message length : Exec ε _) = .ok u := by
  intro m n u v x y hm hn heq
  rw [lengthBytes] at hm hn
  split at hm <;> cases hm
  rename_i hlt
  split at hn <;> cases hn
  rename_i hlt'
  exact unambiguous_bigEndian 4 ⟨hlt, rfl⟩ ⟨hlt', rfl⟩ heq

theorem unambiguous_entityIdBytes :
    Unambiguous fun (id : StableEntityId) u => entityIdBytes id = u := by
  intro left right u v x y hleft hright heq
  subst hleft hright
  obtain ⟨hget, heq⟩ := unambiguous_bigEndian 16 ⟨left.lt, rfl⟩ ⟨right.lt, rfl⟩ heq
  exact ⟨OpaqueId.get_injective hget, heq⟩

theorem unambiguous_f32Bytes : Unambiguous fun (value : F32) u => f32Bytes value = u := by
  intro left right u v x y hleft hright heq
  subst hleft hright
  obtain ⟨hbits, heq⟩ := unambiguous_bigEndian 4 ⟨left.toBits_lt, rfl⟩ ⟨right.toBits_lt, rfl⟩ heq
  exact ⟨by rw [← left.ofBits_toBits, hbits, right.ofBits_toBits], heq⟩

theorem flatMap_f32Bytes_inj {left right : List F32} {x y : List UInt8}
    (heq : left.flatMap f32Bytes ++ x = right.flatMap f32Bytes ++ y)
    (hlength : left.length = right.length) : left = right ∧ x = y := by
  have hwritten : ∀ numbers : List F32,
      List.Forall₂ (fun (value : F32) u => f32Bytes value = u) numbers (numbers.map f32Bytes) := by
    intro numbers
    rw [List.forall₂_map_right_iff, List.forall₂_same]
    exact fun _ _ => rfl
  rw [List.flatMap_def, List.flatMap_def] at heq
  exact unambiguous_f32Bytes.flatten (hwritten left) (hwritten right) hlength heq

theorem FloatValue.get_injective {admits : F32 → Bool} :
    Function.Injective (FloatValue.get : FloatValue admits → F32) := by
  rintro ⟨left, _, _, _⟩ ⟨right, _, _, _⟩ rfl
  rfl

theorem FloatValue.get_inj {admits : F32 → Bool} {left right : FloatValue admits} :
    left.get = right.get ↔ left = right := FloatValue.get_injective.eq_iff

/-! ### Components -/

def ComponentKind.tag : ComponentKind → UInt8
  | .name => 1
  | .localTransform => 2
  | .primitive => 3
  | .material => 4
  | .camera => 5
  | .light => 6
  | .assetMesh => 7

theorem ComponentKind.tag_injective : Function.Injective ComponentKind.tag := by
  intro left right h
  cases left <;> cases right <;> first | rfl | cases h

theorem PrimitiveShape.tag_injective : Function.Injective PrimitiveShape.tag := by
  intro left right h
  cases left <;> cases right <;> first | rfl | cases h

theorem LightKind.tag_injective : Function.Injective LightKind.tag := by
  intro left right h
  cases left <;> cases right <;> first | rfl | cases h

theorem LocalTransform.eq_of_numbers {left right : LocalTransform}
    (h : [left.translation.x.get, left.translation.y.get, left.translation.z.get,
        left.rotation.x.get, left.rotation.y.get, left.rotation.z.get, left.rotation.w.get,
        left.scale.x.get, left.scale.y.get, left.scale.z.get] =
      [right.translation.x.get, right.translation.y.get, right.translation.z.get,
        right.rotation.x.get, right.rotation.y.get, right.rotation.z.get, right.rotation.w.get,
        right.scale.x.get, right.scale.y.get, right.scale.z.get]) : left = right := by
  obtain ⟨⟨_, _, _⟩, ⟨_, _, _, _⟩, ⟨_, _, _⟩⟩ := left
  obtain ⟨⟨_, _, _⟩, ⟨_, _, _, _⟩, ⟨_, _, _⟩⟩ := right
  simp only [List.cons.injEq, FloatValue.get_inj, and_true] at h
  simp only [LocalTransform.mk.injEq, Vec3.mk.injEq, Quaternion.mk.injEq, PositiveVec3.mk.injEq]
  tauto

theorem PrimitiveComponent.eq_of_numbers {left right : PrimitiveComponent}
    (hshape : left.shape = right.shape)
    (h : [left.dimensions.x.get, left.dimensions.y.get, left.dimensions.z.get] =
      [right.dimensions.x.get, right.dimensions.y.get, right.dimensions.z.get]) :
    left = right := by
  obtain ⟨_, ⟨_, _, _⟩⟩ := left
  obtain ⟨_, ⟨_, _, _⟩⟩ := right
  simp only [List.cons.injEq, FloatValue.get_inj, and_true] at h
  simp only [PrimitiveComponent.mk.injEq, PositiveVec3.mk.injEq]
  exact ⟨hshape, h⟩

theorem MaterialComponent.eq_of_numbers {left right : MaterialComponent}
    (h : [left.baseColor.r.get, left.baseColor.g.get, left.baseColor.b.get, left.baseColor.a.get,
        left.metallic.get, left.roughness.get] =
      [right.baseColor.r.get, right.baseColor.g.get, right.baseColor.b.get, right.baseColor.a.get,
        right.metallic.get, right.roughness.get]) : left = right := by
  obtain ⟨⟨_, _, _, _⟩, _, _⟩ := left
  obtain ⟨⟨_, _, _, _⟩, _, _⟩ := right
  simp only [List.cons.injEq, FloatValue.get_inj, and_true] at h
  simp only [MaterialComponent.mk.injEq, ColorRgba.mk.injEq]
  tauto

theorem CameraComponent.eq_of_numbers {left right : CameraComponent}
    (h : [left.verticalFovRadians.get, left.near.get, left.far.get] =
      [right.verticalFovRadians.get, right.near.get, right.far.get]) : left = right := by
  obtain ⟨_, _, _⟩ := left
  obtain ⟨_, _, _⟩ := right
  simp only [List.cons.injEq, FloatValue.get_inj, and_true] at h
  simp only [CameraComponent.mk.injEq]
  exact h

theorem LightComponent.eq_of_numbers {left right : LightComponent}
    (hkind : left.kind = right.kind)
    (h : [left.color.r.get, left.color.g.get, left.color.b.get, left.intensity.get] =
      [right.color.r.get, right.color.g.get, right.color.b.get, right.intensity.get]) :
    left = right := by
  obtain ⟨_, ⟨_, _, _⟩, _⟩ := left
  obtain ⟨_, ⟨_, _, _⟩, _⟩ := right
  simp only [List.cons.injEq, FloatValue.get_inj, and_true] at h
  simp only [LightComponent.mk.injEq, ColorRgb.mk.injEq]
  tauto

namespace ComponentValue

theorem hashBytes_head {ε : Type} {value : ComponentValue} {u : List UInt8}
    (h : (value.hashBytes : Exec ε _) = .ok u) : ∃ rest, u = value.kind.tag :: rest := by
  cases value with
  | name value =>
    obtain ⟨length, -, h⟩ := Exec.bind_eq_ok.mp h
    cases h
    exact ⟨_, rfl⟩
  | _ =>
    cases h
    exact ⟨_, rfl⟩

/-- **One component**: the tag tells the kind, and the fields of a kind have fixed widths but for the
name, which carries its length. -/
theorem unambiguous_hashBytes {ε : Type} :
    Unambiguous fun (value : ComponentValue) u => (value.hashBytes : Exec ε _) = .ok u := by
  intro left right u v x y hleft hright heq
  have hkind : left.kind = right.kind := by
    obtain ⟨rest, rfl⟩ := hashBytes_head hleft
    obtain ⟨rest', rfl⟩ := hashBytes_head hright
    exact ComponentKind.tag_injective (List.cons.inj heq).1
  cases left with
  | name left =>
    cases right with
    | name right =>
      obtain ⟨length, hlength, hleft⟩ := Exec.bind_eq_ok.mp hleft
      obtain ⟨length', hlength', hright⟩ := Exec.bind_eq_ok.mp hright
      cases hleft
      cases hright
      simp only [List.cons_append, List.append_assoc, List.cons.injEq, true_and] at heq
      obtain ⟨hcount, heq⟩ := unambiguous_lengthBytes _ hlength hlength' heq
      obtain ⟨htext, hrest⟩ := List.append_inj heq hcount
      obtain ⟨left⟩ := left
      obtain ⟨right⟩ := right
      cases SceneText.value_injective (toUTF8_toList_injective htext)
      exact ⟨rfl, hrest⟩
    | _ => cases hkind
  | localTransform left =>
    cases right with
    | localTransform right =>
      cases hleft
      cases hright
      obtain ⟨hnumbers, heq⟩ := flatMap_f32Bytes_inj (List.cons.inj heq).2 rfl
      exact ⟨congrArg _ (LocalTransform.eq_of_numbers hnumbers), heq⟩
    | _ => cases hkind
  | primitive left =>
    cases right with
    | primitive right =>
      cases hleft
      cases hright
      obtain ⟨hshape, heq⟩ := List.cons.inj (List.cons.inj heq).2
      obtain ⟨hnumbers, heq⟩ := flatMap_f32Bytes_inj heq rfl
      exact ⟨congrArg _ (PrimitiveComponent.eq_of_numbers
        (PrimitiveShape.tag_injective hshape) hnumbers), heq⟩
    | _ => cases hkind
  | material left =>
    cases right with
    | material right =>
      cases hleft
      cases hright
      obtain ⟨hnumbers, heq⟩ := flatMap_f32Bytes_inj (List.cons.inj heq).2 rfl
      exact ⟨congrArg _ (MaterialComponent.eq_of_numbers hnumbers), heq⟩
    | _ => cases hkind
  | camera left =>
    cases right with
    | camera right =>
      cases hleft
      cases hright
      obtain ⟨hnumbers, heq⟩ := flatMap_f32Bytes_inj (List.cons.inj heq).2 rfl
      exact ⟨congrArg _ (CameraComponent.eq_of_numbers hnumbers), heq⟩
    | _ => cases hkind
  | light left =>
    cases right with
    | light right =>
      cases hleft
      cases hright
      obtain ⟨hlight, heq⟩ := List.cons.inj (List.cons.inj heq).2
      obtain ⟨hnumbers, heq⟩ := flatMap_f32Bytes_inj heq rfl
      exact ⟨congrArg _ (LightComponent.eq_of_numbers (LightKind.tag_injective hlight) hnumbers),
        heq⟩
    | _ => cases hkind
  | assetMesh left =>
    cases right with
    | assetMesh right =>
      cases hleft
      cases hright
      simp only [List.cons_append, List.append_assoc, List.cons.injEq, true_and] at heq
      obtain ⟨hhash, heq⟩ := List.append_inj heq (by simp)
      obtain ⟨hindex, hrest⟩ := unambiguous_bigEndian 4 ⟨left.meshIndex.toNat_lt, rfl⟩
        ⟨right.meshIndex.toNat_lt, rfl⟩ heq
      obtain ⟨_, _⟩ := left
      obtain ⟨_, _⟩ := right
      cases Vector.toList_inj.mp hhash
      cases UInt32.toNat_inj.mp hindex
      exact ⟨rfl, hrest⟩
    | _ => cases hkind

end ComponentValue

namespace EntitySnapshot

theorem unambiguous_parent : Unambiguous fun (parentId : Option StableEntityId) u =>
    (match parentId with
      | some parentId => 1 :: entityIdBytes parentId
      | none => [0]) = u := by
  intro left right u v x y hleft hright heq
  subst hleft hright
  match left, right with
  | none, none => exact ⟨rfl, (List.cons.inj heq).2⟩
  | none, some right => cases (List.cons.inj heq).1
  | some left, none => cases (List.cons.inj heq).1
  | some left, some right =>
    obtain ⟨rfl, hrest⟩ := unambiguous_entityIdBytes rfl rfl (List.cons.inj heq).2
    exact ⟨rfl, hrest⟩

theorem unambiguous_hashBytes {ε : Type} :
    Unambiguous fun (entity : EntitySnapshot) u => (entity.hashBytes : Exec ε _) = .ok u := by
  intro left right u v x y hleft hright heq
  obtain ⟨count, hcount, hleft⟩ := Exec.bind_eq_ok.mp hleft
  obtain ⟨components, hcomponents, hleft⟩ := Exec.bind_eq_ok.mp hleft
  obtain ⟨count', hcount', hright⟩ := Exec.bind_eq_ok.mp hright
  obtain ⟨components', hcomponents', hright⟩ := Exec.bind_eq_ok.mp hright
  obtain rfl := Except.ok.inj hleft
  obtain rfl := Except.ok.inj hright
  rw [Exec.mapM_eq_ok] at hcomponents hcomponents'
  simp only [List.append_assoc] at heq
  obtain ⟨hid, heq⟩ := @unambiguous_entityIdBytes left.entityId right.entityId _ _ _ _ rfl rfl heq
  obtain ⟨hparent, heq⟩ := @unambiguous_parent left.parentId right.parentId _ _ _ _ rfl rfl heq
  obtain ⟨hlength, heq⟩ := unambiguous_lengthBytes _ hcount hcount' heq
  obtain ⟨hvalues, hrest⟩ :=
    ComponentValue.unambiguous_hashBytes.flatten hcomponents hcomponents' hlength heq
  obtain ⟨_, _, _⟩ := left
  obtain ⟨_, _, _⟩ := right
  obtain rfl : _ = _ := hid
  obtain rfl : _ = _ := hparent
  obtain rfl : _ = _ := hvalues
  exact ⟨rfl, hrest⟩

end EntitySnapshot

namespace WorldSnapshot

theorem hashBytes_eq_iff {ε : Type} {left right : WorldSnapshot} {u v : List UInt8}
    (hleft : (left.hashBytes : Exec ε _) = .ok u) (hright : (right.hashBytes : Exec ε _) = .ok v) :
    u = v ↔ left.entities = right.entities := by
  constructor
  · intro heq
    obtain ⟨count, hcount, hleft⟩ := Exec.bind_eq_ok.mp hleft
    obtain ⟨entities, hentities, hleft⟩ := Exec.bind_eq_ok.mp hleft
    obtain ⟨count', hcount', hright⟩ := Exec.bind_eq_ok.mp hright
    obtain ⟨entities', hentities', hright⟩ := Exec.bind_eq_ok.mp hright
    obtain rfl := Except.ok.inj hleft
    obtain rfl := Except.ok.inj hright
    rw [Exec.mapM_eq_ok] at hentities hentities'
    simp only [List.append_assoc, List.append_cancel_left_eq] at heq
    obtain ⟨hlength, heq⟩ := unambiguous_lengthBytes _ hcount hcount' heq
    rw [← List.append_nil entities.flatten, ← List.append_nil entities'.flatten] at heq
    exact (EntitySnapshot.unambiguous_hashBytes.flatten hentities hentities' hlength heq).1
  · intro heq
    rw [hashBytes, heq] at hleft
    rw [hashBytes, hleft] at hright
    exact Except.ok.inj hright

/-- **The logical hash identifies the logical state.** The bytes given to the hash function are
equal exactly when two snapshots have the same identities, parents and component values, whatever
their revisions. So are the digests, unless the two texts collide. -/
theorem logicalHash_identifies (sha256 : List UInt8 → Digest) (left right : WorldSnapshot)
    (u v : List UInt8) (hleft : (left.hashBytes : Exec WorldInvariantError _) = .ok u)
    (hright : (right.hashBytes : Exec WorldInvariantError _) = .ok v) :
    (u = v ↔ left.entities = right.entities) ∧
    ((sha256 u = sha256 v → u = v) →
      (sha256 u = sha256 v ↔ left.entities = right.entities) ∧
      ∀ world world' : AuthoritativeWorld, world.snapshot = .ok left →
        world'.snapshot = .ok right →
        (world.logicalHash sha256 = world'.logicalHash sha256 ↔ left.entities = right.entities)) := by
  have htext := hashBytes_eq_iff hleft hright
  refine ⟨htext, fun hcollision => ?_⟩
  have hdigest : sha256 u = sha256 v ↔ left.entities = right.entities :=
    ⟨fun heq => htext.mp (hcollision heq), fun heq => congrArg sha256 (htext.mpr heq)⟩
  refine ⟨hdigest, fun world world' hworld hworld' => ?_⟩
  rw [AuthoritativeWorld.logicalHash, AuthoritativeWorld.logicalHash, hworld, hworld', Exec.ok_bind,
    Exec.ok_bind, hleft, hright, Exec.ok_bind, Exec.ok_bind, Except.ok.injEq]
  exact hdigest

def sampleEntity (text : SceneText) : EntitySnapshot :=
  ⟨.lit 2, some (.lit 1), [.name ⟨text⟩]⟩

theorem logicalHash_identifies_names :
    ∃ u v, (hashBytes ⟨⟨3⟩, [sampleEntity ⟨"left", by decide, by decide⟩]⟩ :
        Exec WorldInvariantError _) = .ok u ∧
      (hashBytes ⟨⟨3⟩, [sampleEntity ⟨"right", by decide, by decide⟩]⟩ :
        Exec WorldInvariantError _) = .ok v ∧ u ≠ v := by
  obtain ⟨u, hu⟩ : ∃ u, (hashBytes ⟨⟨3⟩, [sampleEntity ⟨"left", by decide, by decide⟩]⟩ :
      Exec WorldInvariantError _) = .ok u := by
    refine ⟨_, Exec.eq_ok_of_get ?_⟩
    decide +kernel
  obtain ⟨v, hv⟩ : ∃ v, (hashBytes ⟨⟨3⟩, [sampleEntity ⟨"right", by decide, by decide⟩]⟩ :
      Exec WorldInvariantError _) = .ok v := by
    refine ⟨_, Exec.eq_ok_of_get ?_⟩
    decide +kernel
  refine ⟨u, v, hu, hv, fun heq => ?_⟩
  have hentities := (logicalHash_identifies (fun _ => .replicate 32 0) _ _ u v hu hv).1.mp heq
  revert hentities
  decide

end WorldSnapshot

end Cogniform
