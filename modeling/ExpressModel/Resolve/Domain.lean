import ExpressModel.Resolve.TypeString

/-! # Domains of attributes

What the resolution of an attribute's domain says about the attribute.  An attribute without a
domain is of unknown kind and has no type name. -/

namespace ExpressModel.Attribute

variable (a : Attribute) (d : Dictionary)

/-- The kind of the domain behind aliases. -/
def unaliasedKind : Except Error PrimitiveKind :=
  a.domain?.elim (.ok .unknown) d.unaliasedKind

/-- The kind at the end of the domain's chain. -/
def baseKind : Except Error PrimitiveKind :=
  a.domain?.elim (.ok .unknown) d.baseKind

def isAggregate : Except Error Bool :=
  (a.unaliasedKind d).map PrimitiveKind.isAggregate

/-- The element type of a domain that is a collection. -/
def element? : Except Error (Option TypeId) :=
  a.domain?.elim (.ok none) d.element?

/-- The domain as a declaration in the schema writes it. -/
def domainText (schema? : Option String) : Except Error String :=
  a.domain?.elim (.ok "") fun id => (d.require id).map (·.domainText schema?)

/-- The description of the domain in full, marked where the attribute is derived. -/
def expandedText : Except Error String :=
  (a.domain?.elim (.ok "") d.typeString).map fun domain =>
    if a.isDerived then "DERIVE  " ++ domain else domain

end ExpressModel.Attribute
