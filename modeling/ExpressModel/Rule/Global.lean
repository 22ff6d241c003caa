import ExpressModel.Rule.Basic
import ExpressModel.Rule.RuleSet

/-! # Global rules

A global rule is kept as raw text with the entities it ranges over and its WHERE rules.  Its
entity set is replaced as a whole; whoever kept the former set keeps it. -/

namespace ExpressModel

/-- A rule of a schema over the populations of some entities. -/
structure GlobalRule where
  name : String
  comment : String
  text : String
  /-- The schema the rule was added to. -/
  parent : Option SchemaId
  entitySets : Versioned (Registry EntityId)
  whereRules : RuleSet WhereRule

namespace GlobalRule

/-- A rule without entities, laid out by the options. -/
def new (name text : String) (options : RegistryOptions) : GlobalRule where
  name := name
  comment := ""
  text := text
  parent := none
  entitySets := Versioned.first (Registry.ofOptions options)
  whereRules := { options }

instance : Inhabited GlobalRule := ⟨new "" "" {}⟩

instance : RuleText GlobalRule := ⟨GlobalRule.name, GlobalRule.comment⟩

/-- The entities the rule ranges over now. -/
def entities (g : GlobalRule) : Registry EntityId :=
  g.entitySets.current

/-- Takes over the options, for the entities and for the WHERE rules. -/
def applyOptions (options : RegistryOptions) (g : GlobalRule) : GlobalRule :=
  { g with
    entitySets := g.entitySets.modify (·.applyOptions options)
    whereRules := g.whereRules.applyOptions options }

/-- Puts another entity set in force; the answer is the former one, with a warning when it had
slots. -/
def setEntities (entities : Registry EntityId) (g : GlobalRule) :
    (Registry EntityId × Option Warning) × GlobalRule :=
  let previous := g.entities
  let warning? :=
    if previous.isEmpty then none else some (.entitiesDiscarded g.name previous.count)
  ((previous, warning?), { g with entitySets := g.entitySets.replace entities })

/-- Puts other WHERE rules in force; the answer is the former ones, with a warning when they had
slots. -/
def setWhereRules (rules : OwnedRegistry WhereRule) (g : GlobalRule) :
    (Option (OwnedRegistry WhereRule) × Option Warning) × GlobalRule :=
  let (previous, whereRules) := g.whereRules.replace rules
  (previous, { g with whereRules })

end GlobalRule

end ExpressModel
