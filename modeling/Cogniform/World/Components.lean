import Cogniform.Protocol.Message
import Cogniform.Protocol.Render

/-!
# Component records

What the entity store keeps for one entity: at most one value of each of the seven component kinds,
and the private marker with the entity's stable identity. Preflight never looks at the values and
works with a mask instead, one bit a kind.
-/

namespace Cogniform

def ComponentKind.all : List ComponentKind :=
  [.name, .localTransform, .primitive, .material, .camera, .light, .assetMesh]

structure Components where
  name : Option NameComponent
  localTransform : Option LocalTransform
  primitive : Option PrimitiveComponent
  material : Option MaterialComponent
  camera : Option CameraComponent
  light : Option LightComponent
  assetMesh : Option AssetMeshComponent
  deriving DecidableEq

structure StoredRecord where
  stableId : Option StableEntityId
  components : Components
  deriving DecidableEq

namespace Components

def empty : Components := ⟨none, none, none, none, none, none, none⟩

def set (components : Components) : ComponentValue → Components
  | .name value => { components with name := some value }
  | .localTransform value => { components with localTransform := some value }
  | .primitive value => { components with primitive := some value }
  | .material value => { components with material := some value }
  | .camera value => { components with camera := some value }
  | .light value => { components with light := some value }
  | .assetMesh value => { components with assetMesh := some value }

def has (components : Components) : ComponentKind → Bool
  | .name => components.name.isSome
  | .localTransform => components.localTransform.isSome
  | .primitive => components.primitive.isSome
  | .material => components.material.isSome
  | .camera => components.camera.isSome
  | .light => components.light.isSome
  | .assetMesh => components.assetMesh.isSome

def remove (components : Components) : ComponentKind → Components
  | .name => { components with name := none }
  | .localTransform => { components with localTransform := none }
  | .primitive => { components with primitive := none }
  | .material => { components with material := none }
  | .camera => { components with camera := none }
  | .light => { components with light := none }
  | .assetMesh => { components with assetMesh := none }

def ofValues (values : List ComponentValue) : Components := values.foldl set empty

def values (components : Components) : List ComponentValue :=
  (components.name.map .name).toList ++ (components.localTransform.map .localTransform).toList ++
    (components.primitive.map .primitive).toList ++ (components.material.map .material).toList ++
    (components.camera.map .camera).toList ++ (components.light.map .light).toList ++
    (components.assetMesh.map .assetMesh).toList

def render (components : Components) : RenderComponents where
  primitive := components.primitive
  material := components.material
  camera := components.camera
  light := components.light
  assetMesh := components.assetMesh

@[simp] theorem has_empty (kind : ComponentKind) : empty.has kind = false := by cases kind <;> rfl

@[simp] theorem has_set (components : Components) (value : ComponentValue) (kind : ComponentKind) :
    (components.set value).has kind = (decide (value.kind = kind) || components.has kind) := by
  cases value <;> cases kind <;> simp [set, has, ComponentValue.kind]

@[simp] theorem has_remove (components : Components) (kind other : ComponentKind) :
    (components.remove kind).has other = (decide (kind ≠ other) && components.has other) := by
  cases kind <;> cases other <;> simp [remove, has]

theorem localTransform_set {components : Components} {value : ComponentValue}
    (h : value.kind ≠ .localTransform) :
    (components.set value).localTransform = components.localTransform := by
  cases value <;> first | rfl | exact absurd rfl h

theorem localTransform_remove {components : Components} {kind : ComponentKind}
    (h : kind ≠ .localTransform) :
    (components.remove kind).localTransform = components.localTransform := by
  cases kind <;> first | rfl | exact absurd rfl h

theorem render_set_name {components : Components} {value : ComponentValue}
    (h : value.kind = .name) : (components.set value).render = components.render := by
  cases value <;> first | rfl | cases h

theorem render_remove_name (components : Components) :
    (components.remove .name).render = components.render := rfl

end Components

def StoredRecord.insertOne (component : ComponentValue) (record : StoredRecord) :
    Option StoredRecord :=
  some { record with components := record.components.set component }

def StoredRecord.removeOne (component : ComponentKind) (record : StoredRecord) :
    Option StoredRecord :=
  if record.components.has component then
    some { record with components := record.components.remove component }
  else none

def findLocalTransform (values : List ComponentValue) : Option LocalTransform :=
  values.findSome? fun
    | .localTransform value => some value
    | _ => none

namespace Components

theorem localTransform_foldl_set {values : List ComponentValue} :
    ∀ {components : Components}, (values.map ComponentValue.kind).Nodup →
      (values.foldl set components).localTransform =
        (findLocalTransform values).or components.localTransform := by
  induction values with
  | nil => intro components _; simp [findLocalTransform]
  | cons value values ih =>
    intro components hnodup
    rw [List.map_cons, List.nodup_cons] at hnodup
    rw [List.foldl_cons, ih hnodup.2]
    by_cases hkind : value.kind = .localTransform
    · -- no later value is a transform, so this one survives
      have hrest : findLocalTransform values = none := by
        rw [findLocalTransform, List.findSome?_eq_none_iff]
        intro other hother
        cases other with
        | localTransform => exact absurd (hkind ▸ List.mem_map_of_mem hother) hnodup.1
        | _ => rfl
      cases value with
      | localTransform value => rw [hrest]; rfl
      | _ => cases hkind
    · rw [localTransform_set hkind]
      congr 1
      cases value with
      | localTransform => exact absurd rfl hkind
      | _ => simp [findLocalTransform]

theorem localTransform_ofValues {values : List ComponentValue}
    (h : (values.map ComponentValue.kind).Nodup) :
    (ofValues values).localTransform = findLocalTransform values := by
  rw [ofValues, localTransform_foldl_set h]
  exact Option.or_none

end Components

/-! ### Component masks -/

structure ComponentMask where
  bits : BitVec 8
  deriving DecidableEq

namespace ComponentMask

def empty : ComponentMask := ⟨0⟩

def bit : ComponentKind → BitVec 8
  | .name => 1 <<< 0
  | .localTransform => 1 <<< 1
  | .primitive => 1 <<< 2
  | .material => 1 <<< 3
  | .camera => 1 <<< 4
  | .light => 1 <<< 5
  | .assetMesh => 1 <<< 6

def contains (mask : ComponentMask) (kind : ComponentKind) : Bool := mask.bits &&& bit kind ≠ 0

def insert (mask : ComponentMask) (kind : ComponentKind) : ComponentMask := ⟨mask.bits ||| bit kind⟩

def remove (mask : ComponentMask) (kind : ComponentKind) : ComponentMask :=
  ⟨mask.bits &&& ~~~bit kind⟩

def fromValues (values : List ComponentValue) : ComponentMask :=
  values.foldl (fun mask value => mask.insert value.kind) empty

def ofComponents (components : Components) : ComponentMask :=
  ComponentKind.all.foldl
    (fun mask kind => if components.has kind then mask.insert kind else mask) empty

def position : ComponentKind → ℕ
  | .name => 0 | .localTransform => 1 | .primitive => 2 | .material => 3
  | .camera => 4 | .light => 5 | .assetMesh => 6

theorem position_lt (kind : ComponentKind) : position kind < 8 := by cases kind <;> decide

theorem position_inj {kind other : ComponentKind} : position kind = position other ↔ kind = other := by
  cases kind <;> cases other <;> decide

theorem bit_eq_twoPow (kind : ComponentKind) : bit kind = BitVec.twoPow 8 (position kind) := by
  cases kind <;> rfl

theorem contains_eq_getLsbD (mask : ComponentMask) (kind : ComponentKind) :
    mask.contains kind = mask.bits.getLsbD (position kind) := by
  rw [contains, bit_eq_twoPow, BitVec.and_twoPow]
  cases mask.bits.getLsbD (position kind) with
  | false => simp
  | true =>
    have hne : BitVec.twoPow 8 (position kind) ≠ 0#8 := by cases kind <;> decide
    simpa using hne

@[simp] theorem contains_empty (kind : ComponentKind) : empty.contains kind = false := by
  simp [contains_eq_getLsbD, empty]

@[simp] theorem contains_insert (mask : ComponentMask) (kind other : ComponentKind) :
    (mask.insert kind).contains other = (decide (kind = other) || mask.contains other) := by
  simp only [contains_eq_getLsbD, insert, BitVec.getLsbD_or, bit_eq_twoPow, BitVec.getLsbD_twoPow,
    position_lt, decide_true, Bool.true_and, position_inj]
  rw [Bool.or_comm]

@[simp] theorem contains_remove (mask : ComponentMask) (kind other : ComponentKind) :
    (mask.remove kind).contains other = (decide (kind ≠ other) && mask.contains other) := by
  simp only [contains_eq_getLsbD, remove, BitVec.getLsbD_and, BitVec.getLsbD_not, bit_eq_twoPow,
    BitVec.getLsbD_twoPow, position_lt, decide_true, Bool.true_and, position_inj, ne_eq,
    decide_not]
  rw [Bool.and_comm]

theorem contains_ofComponents (components : Components) (kind : ComponentKind) :
    (ofComponents components).contains kind = components.has kind := by
  have hfold : ∀ (kinds : List ComponentKind) (mask : ComponentMask),
      (kinds.foldl (fun mask kind => if components.has kind then mask.insert kind else mask)
        mask).contains kind =
          (mask.contains kind || (decide (kind ∈ kinds) && components.has kind)) := by
    intro kinds
    induction kinds with
    | nil => simp
    | cons first kinds ih =>
      intro mask
      rw [List.foldl_cons, ih]
      rcases eq_or_ne first kind with rfl | hne
      · by_cases hhas : components.has first = true <;> simp [hhas]
      · by_cases hhas : components.has first = true <;> simp [hhas, hne, hne.symm]
  rw [ofComponents, hfold]
  cases kind <;> simp [ComponentKind.all]

theorem contains_fromValues (values : List ComponentValue) (kind : ComponentKind) :
    (fromValues values).contains kind = (Components.ofValues values).has kind := by
  have hfold : ∀ (values : List ComponentValue) (mask : ComponentMask) (components : Components),
      mask.contains kind = components.has kind →
        (values.foldl (fun mask value => mask.insert value.kind) mask).contains kind =
          (values.foldl Components.set components).has kind := by
    intro values
    induction values with
    | nil => intro _ _ h; exact h
    | cons value values ih => intro _ _ h; exact ih _ _ (by simp [h])
  exact hfold values _ _ (by simp)

end ComponentMask

end Cogniform
