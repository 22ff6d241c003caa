import ExpressModel.Handle

/-! # Rules of a type

A WHERE rule constrains the values of a type and a uniqueness rule the population of an entity.
Both are kept as written: a label, which holds the rule's text, and a comment, either of which
may be empty. -/

namespace ExpressModel

/-- What every rule has for a declaration to print. -/
class RuleText (ρ : Type) where
  label : ρ → String
  comment : ρ → String

/-- A constraint on the values of a type. -/
structure WhereRule where
  label : String := ""
  comment : String := ""
  deriving DecidableEq, Inhabited

/-- A constraint on the instances of an entity. -/
structure UniquenessRule where
  label : String := ""
  comment : String := ""
  /-- The entity the rule was added to. -/
  parent : Option EntityId := none
  deriving DecidableEq, Inhabited

instance : RuleText WhereRule := ⟨WhereRule.label, WhereRule.comment⟩

instance : RuleText UniquenessRule := ⟨UniquenessRule.label, UniquenessRule.comment⟩

end ExpressModel
