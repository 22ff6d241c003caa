import ExpressModel.Descriptor.Names
import ExpressModel.Schema

/-! # Dictionaries

A dictionary holds descriptors and schemas, each denoted by the handle of its position, and the
settings by which new ones are laid out.  The first descriptors are the built-in types.

Links between descriptors are handles and may dangle: `find?` answers none where a handle denotes
nothing, `require` refuses, and `follow?` takes a link that denotes nothing for one that is not
there. -/

namespace ExpressModel

/-- The descriptors and schemas of a model, with its settings. -/
structure Dictionary where
  config : Config
  descriptors : Array Descriptor
  schemas : Array Schema

namespace Dictionary

def new (config : Config) : Dictionary where
  config := config
  descriptors := (PrimitiveKind.builtins.map fun k =>
    (Descriptor.builtin k).applyOptions config.registry).toArray
  schemas := #[]

instance : Inhabited Dictionary := ⟨new {}⟩

/-! ### Counting -/

def typeCount (d : Dictionary) : Nat :=
  d.descriptors.size

def schemaCount (d : Dictionary) : Nat :=
  d.schemas.size

/-- The handles of the descriptors, in order. -/
def typeIds (d : Dictionary) : List TypeId :=
  (List.range d.typeCount).map TypeId.mk

/-- The handles of the schemas, in order. -/
def schemaIds (d : Dictionary) : List SchemaId :=
  (List.range d.schemaCount).map SchemaId.mk

def inspect (d : Dictionary) : String :=
  "Dictionary \x7b types: " ++ toString d.typeCount ++ ", schemas: " ++ toString d.schemaCount ++
    " \x7d"

/-! ### Descriptors -/

def find? (d : Dictionary) (id : TypeId) : Option Descriptor :=
  d.descriptors[id.index]?

/-- The descriptor of a handle that has to denote one. -/
def require (d : Dictionary) (id : TypeId) : Except Error Descriptor :=
  match d.find? id with
  | some t => .ok t
  | none => .error (.unknownType id)

def entity? (d : Dictionary) (e : EntityId) : Option Descriptor :=
  (d.find? e.toType).filter Descriptor.isEntity

/-- The entity of a handle that has to denote one. -/
def requireEntity (d : Dictionary) (e : EntityId) : Except Error Descriptor :=
  match d.find? e.toType with
  | some t => if t.isEntity then .ok t else .error (.kindMismatch t.name .entity)
  | none => .error (.unknownType e.toType)

/-- The entity handle of a descriptor that is an entity. -/
def entityId? (d : Dictionary) (id : TypeId) : Option EntityId :=
  (d.entity? ⟨id⟩).map fun _ => ⟨id⟩

def builtin? (kind : PrimitiveKind) : Option TypeId :=
  kind.builtinPosition?.map TypeId.mk

theorem mem_typeIds {d : Dictionary} {id : TypeId} : id ∈ d.typeIds ↔ (d.find? id).isSome := by
  rcases id with ⟨n⟩
  simp [typeIds, find?, typeCount]

theorem require_eq_ok_iff {d : Dictionary} {id : TypeId} {t : Descriptor} :
    d.require id = .ok t ↔ d.find? id = some t := by
  unfold require; split <;> simp_all

/-- An entity is required like any descriptor, and then has to be one. -/
theorem requireEntity_eq (d : Dictionary) (e : EntityId) :
    d.requireEntity e = (d.require e.toType >>= fun t =>
      if t.isEntity then .ok t else .error (.kindMismatch t.name .entity)) := by
  unfold requireEntity require
  cases d.find? e.toType <;> rfl

theorem requireEntity_eq_ok_iff {d : Dictionary} {e : EntityId} {t : Descriptor} :
    d.requireEntity e = .ok t ↔ d.find? e.toType = some t ∧ t.isEntity = true := by
  unfold requireEntity
  cases d.find? e.toType with
  | none => simp
  | some u =>
    by_cases hu : u.isEntity = true
    · simp only [hu, if_true, Except.ok.injEq, Option.some.injEq]
      exact ⟨fun h => ⟨h, h ▸ hu⟩, And.left⟩
    · simp only [hu, if_false, reduceCtorEq, Option.some.injEq, false_iff]
      rintro ⟨rfl, h⟩
      exact hu h

theorem find?_of_requireEntity {d : Dictionary} {e : EntityId} {t : Descriptor}
    (h : d.requireEntity e = .ok t) : d.find? e.toType = some t :=
  (requireEntity_eq_ok_iff.mp h).1

/-- The descriptor that a referent denotes, with its handle. -/
def follow? (d : Dictionary) (t : Descriptor) : Option (TypeId × Descriptor) :=
  t.referent?.bind fun next => (d.find? next).map fun found => (next, found)

theorem find?_of_follow? {d : Dictionary} {t u : Descriptor} {id : TypeId}
    (h : d.follow? t = some (id, u)) : d.find? id = some u := by
  simp only [follow?, Option.bind_eq_some_iff, Option.map_eq_some_iff, Prod.mk.injEq] at h
  obtain ⟨next, -, found, hf, rfl, rfl⟩ := h
  exact hf

/-! ### Schemas -/

def schema? (d : Dictionary) (id : SchemaId) : Option Schema :=
  d.schemas[id.index]?

/-- The schema of a handle that has to denote one. -/
def requireSchema (d : Dictionary) (id : SchemaId) : Except Error Schema :=
  match d.schema? id with
  | some s => .ok s
  | none => .error (.unknownSchema id)

theorem requireSchema_eq_ok_iff {d : Dictionary} {id : SchemaId} {s : Schema} :
    d.requireSchema id = .ok s ↔ d.schema? id = some s := by
  unfold requireSchema; split <;> simp_all

/-- The global rule of a handle in a schema. -/
def rule? (d : Dictionary) (schema : SchemaId) (id : RuleId) : Option GlobalRule :=
  (d.schema? schema).bind (·.rule? id)

/-- The first schema of a name, letter case ignored. -/
def schemaByName? (d : Dictionary) (name : String) : Option SchemaId :=
  (d.schemas.findIdx? fun s => Text.sameName s.name name).map SchemaId.mk

/-- Does the handle denote a descriptor with that name of its own? -/
def isNamedBy (d : Dictionary) (name : String) (id : TypeId) : Bool :=
  (d.find? id).any fun t => t.ownName name

/-- The first declaration of a name in a schema, its types before its entities. -/
def findType? (d : Dictionary) (schema : SchemaId) (name : String) : Option TypeId :=
  (d.schema? schema).bind fun s =>
    (s.types.live ++ s.entities.live.map EntityId.toType).find? (d.isNamedBy name)

/-! ### Changing in place -/

def modifyType (id : TypeId) (f : Descriptor → Descriptor) (d : Dictionary) : Dictionary :=
  { d with descriptors := d.descriptors.modify id.index f }

def modifySchema (id : SchemaId) (f : Schema → Schema) (d : Dictionary) : Dictionary :=
  { d with schemas := d.schemas.modify id.index f }

@[simp] theorem typeCount_modifyType (id : TypeId) (f : Descriptor → Descriptor)
    (d : Dictionary) : (d.modifyType id f).typeCount = d.typeCount := by
  simp [modifyType, typeCount]

theorem find?_modifyType (id other : TypeId) (f : Descriptor → Descriptor) (d : Dictionary) :
    (d.modifyType id f).find? other = if id = other then (d.find? other).map f
      else d.find? other := by
  rcases id with ⟨i⟩
  rcases other with ⟨j⟩
  simp [modifyType, find?, Array.getElem?_modify]

@[simp] theorem schema?_modifyType (id : TypeId) (f : Descriptor → Descriptor) (schema : SchemaId)
    (d : Dictionary) : (d.modifyType id f).schema? schema = d.schema? schema := rfl

theorem schema?_modifySchema (id other : SchemaId) (f : Schema → Schema) (d : Dictionary) :
    (d.modifySchema id f).schema? other = if id = other then (d.schema? other).map f
      else d.schema? other := by
  rcases id with ⟨i⟩
  rcases other with ⟨j⟩
  simp [modifySchema, schema?, Array.getElem?_modify]

@[simp] theorem find?_modifySchema (id : SchemaId) (f : Schema → Schema) (type : TypeId)
    (d : Dictionary) : (d.modifySchema id f).find? type = d.find? type := rfl

end Dictionary

end ExpressModel
