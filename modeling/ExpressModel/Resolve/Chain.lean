import ExpressModel.Dictionary.Basic

/-! # Referent chains

From a descriptor a chain of referents leads on, through aliases and from collections to their
elements, until a descriptor has no referent that denotes anything.  Since a chain may come back
to itself, a walk takes as many steps as there are descriptors and refuses after that
(`walk`): a chain that ends has ended by then.

The queries differ in where they stop: at the end (`base`), at the first type that is no alias
(`unalias`), or at the first unnamed descriptor or the first of a given name (`isANamed`). -/

namespace ExpressModel

/-- The refusal of a search that came back to a descriptor. -/
def Descriptor.cyclic (t : Descriptor) : Error :=
  .cyclicTypeGraph t.name

namespace Dictionary

variable (d : Dictionary)

/-! ### Walking -/

/-- Follows referents from a descriptor to the first that is to be stopped at, or to the end of
the chain; refuses when that takes as many steps as the bound says. -/
def walk (stop : Descriptor → Bool) : Nat → TypeId × Descriptor →
    Except Error (TypeId × Descriptor)
  | 0, (_, t) => .error t.cyclic
  | bound + 1, (id, t) =>
    if stop t then .ok (id, t)
    else match d.follow? t with
      | none => .ok (id, t)
      | some next => walk stop bound next

/-- Walks the chain of a handle with a step for every descriptor there is. -/
def walkFrom (stop : Descriptor → Bool) (id : TypeId) : Except Error (TypeId × Descriptor) := do
  let t ← d.require id
  d.walk stop (d.typeCount + 1) (id, t)

/-! ### Aliases and bases -/

/-- The first descriptor of a chain that is no alias, or its end. -/
def unalias (id : TypeId) : Except Error (TypeId × Descriptor) :=
  d.walkFrom (fun t => t.kind ≠ .reference) id

/-- The handle of the type behind aliases. -/
def unaliased (id : TypeId) : Except Error TypeId :=
  (d.unalias id).map Prod.fst

/-- The kind of the type behind aliases, unknown when aliases are all there is. -/
def unaliasedKind (id : TypeId) : Except Error PrimitiveKind :=
  (d.unalias id).map fun found => found.2.fundamentalKind

def chainEnd (id : TypeId) : Except Error (TypeId × Descriptor) :=
  d.walkFrom (fun _ => false) id

def base (id : TypeId) : Except Error TypeId :=
  (d.chainEnd id).map Prod.fst

/-- The kind at the end of a chain, unknown when that is an alias. -/
def baseKind (id : TypeId) : Except Error PrimitiveKind :=
  (d.chainEnd id).map fun found => found.2.fundamentalKind

/-! ### Collections -/

/-- Is the type behind aliases a collection? -/
def isAggregate (id : TypeId) : Except Error Bool :=
  (d.unaliasedKind id).map PrimitiveKind.isAggregate

/-- The element type of a collection, behind aliases on both sides; none when it is no
collection or its element is not set. -/
def element? (id : TypeId) : Except Error (Option TypeId) := do
  let (_, t) ← d.unalias id
  if t.kind.isAggregate then
    match d.follow? t with
    | some (element, _) => (d.unaliased element).map some
    | none => return none
  else
    return none

/-- The kind of the element type, unknown when there is none. -/
def elementKind (id : TypeId) : Except Error PrimitiveKind := do
  match ← d.element? id with
  | some element => (d.require element).map Descriptor.kind
  | none => return .unknown

/-! ### Names along a chain -/

/-- The first descriptor of a chain that has the name, provided that no unnamed one comes before
it. -/
def isANamed? (id : TypeId) (name : String) : Except Error (Option TypeId) :=
  (d.walkFrom (fun t => !t.isNamed || t.ownName name) id).map fun (found, t) =>
    if t.ownName name then some found else none

end Dictionary

end ExpressModel
