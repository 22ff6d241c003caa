import ExpressModel.Handle
import ExpressModel.Kind

/-! # Attributes

An attribute of an entity has a name, a domain and a role: it is explicit, derived from an
initializer, or the inverse of another attribute. -/

namespace ExpressModel

/-- How an attribute gets its value. -/
inductive AttributeRole where
  | explicit
  /-- Computed from the initializer, when there is one. -/
  | derived (initializer : Option String)
  /-- Found through the named attribute of the domain. -/
  | inverse (inverted : String)
  deriving DecidableEq

/-- An attribute of an entity. -/
structure Attribute where
  name : String
  role : AttributeRole := .explicit
  domain? : Option TypeId := none
  optional : Logical := .false
  /-- The entity the attribute was added to. -/
  owner? : Option EntityId := none
  deriving DecidableEq

namespace Attribute

def isDerived (a : Attribute) : Bool :=
  match a.role with
  | .derived _ => true
  | _ => false

def isInverse (a : Attribute) : Bool :=
  match a.role with
  | .inverse _ => true
  | _ => false

/-- The attribute that an inverse inverts. -/
def inverted? (a : Attribute) : Option String :=
  match a.role with
  | .inverse inverted => some inverted
  | _ => none

/-- The initializer of a derived attribute. -/
def initializer? (a : Attribute) : Option String :=
  match a.role with
  | .derived initializer => initializer
  | _ => none

end Attribute

end ExpressModel
