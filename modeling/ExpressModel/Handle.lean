/-! # Handles

A dictionary refers to its descriptors and schemas by handles: positions in the order of
insertion, one type per noun so that they cannot be confused.  An entity handle is a type handle
that is meant to denote an entity.  A handle is only a number: it may denote nothing.

Each handle has two texts: `display` in messages and `inspect` in listings. -/

namespace ExpressModel

/-- A handle of a descriptor. -/
structure TypeId where
  index : Nat
  deriving DecidableEq, Inhabited

/-- A handle of a descriptor that is used as an entity. -/
structure EntityId where
  toType : TypeId
  deriving DecidableEq, Inhabited

/-- A handle of a schema. -/
structure SchemaId where
  index : Nat
  deriving DecidableEq, Inhabited

namespace TypeId

def display (id : TypeId) : String :=
  "type#" ++ toString id.index

def inspect (id : TypeId) : String :=
  "TypeId(" ++ toString id.index ++ ")"

end TypeId

namespace EntityId

def index (id : EntityId) : Nat :=
  id.toType.index

def display (id : EntityId) : String :=
  "entity#" ++ toString id.index

def inspect (id : EntityId) : String :=
  "EntityId(" ++ id.toType.inspect ++ ")"

end EntityId

namespace SchemaId

def display (id : SchemaId) : String :=
  "schema#" ++ toString id.index

def inspect (id : SchemaId) : String :=
  "SchemaId(" ++ toString id.index ++ ")"

end SchemaId

/-- A handle that a registry can list. -/
class Handle (η : Type) where
  /-- The handle in a listing. -/
  inspect : η → String

instance : Handle TypeId := ⟨TypeId.inspect⟩

instance : Handle EntityId := ⟨EntityId.inspect⟩

instance : Handle SchemaId := ⟨SchemaId.inspect⟩

end ExpressModel
