import ExpressModel.Aggregate
import ExpressModel.Attribute
import ExpressModel.Rule.Basic
import ExpressModel.Rule.RuleSet

/-! # Entity bodies

The body of an entity holds its direct supertypes, its attributes in two lists (inverse ones
apart, derived ones among the explicit) and its uniqueness rules. -/

namespace ExpressModel

/-- The body of an entity type. -/
structure EntityBody where
  isAbstract : Logical := .unknown
  extMapping : Logical := .unknown
  supertypeStatement? : Option String := none
  supertypes : Registry EntityId
  explicitAttrs : OwnedRegistry Attribute
  inverseAttrs : OwnedRegistry Attribute
  uniqueness : RuleSet UniquenessRule
  factory? : Option Factory := none

namespace EntityBody

/-- A body without supertypes and attributes, laid out by the options. -/
def ofOptions (options : RegistryOptions) : EntityBody where
  supertypes := .ofOptions options
  explicitAttrs := .ofOptions options
  inverseAttrs := .ofOptions options
  uniqueness := { options }

/-- Takes over the options, in every registry of the body. -/
def applyOptions (options : RegistryOptions) (b : EntityBody) : EntityBody :=
  { b with
    supertypes := b.supertypes.applyOptions options
    explicitAttrs := b.explicitAttrs.applyOptions options
    inverseAttrs := b.inverseAttrs.applyOptions options
    uniqueness := b.uniqueness.applyOptions options }

/-- Puts an attribute at the end of its list; the answer is the element it became. -/
def addAttribute (a : Attribute) (b : EntityBody) : Element Attribute × EntityBody :=
  if a.isInverse then
    let (e, inverseAttrs) := b.inverseAttrs.append a
    (e, { b with inverseAttrs })
  else
    let (e, explicitAttrs) := b.explicitAttrs.append a
    (e, { b with explicitAttrs })

/-- Puts a supertype at the end; the answer is its index. -/
def addSupertype (e : EntityId) (b : EntityBody) : Nat × EntityBody :=
  (b.supertypes.count, { b with supertypes := b.supertypes.append e })

def addUniqueness (rule : UniquenessRule) (b : EntityBody) : EntityBody :=
  { b with uniqueness := (b.uniqueness.push rule).2 }

end EntityBody

end ExpressModel
