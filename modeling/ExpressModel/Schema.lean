import ExpressModel.Interface
import ExpressModel.Rule.Global

/-! # Schemas

A schema lists the types and the entities declared in it, its interfaces to other schemas, its
global rules, and the raw texts of its functions and procedures.

Global rules live in the schema's store under handles of their own, and the rule set lists the
handles: a rule that leaves the set is still there for whoever kept its entities or rules. -/

namespace ExpressModel

/-- A handle of a global rule within its schema. -/
structure RuleId where
  index : Nat
  deriving DecidableEq, Inhabited

/-- A namespace of declarations. -/
structure Schema where
  name : String
  types : Registry TypeId
  entities : Registry EntityId
  useInterfaces : OwnedRegistry Interface
  referenceInterfaces : OwnedRegistry Interface
  ruleStore : Array GlobalRule := #[]
  globalRules : RuleSet RuleId
  functions : Array String := #[]
  procedures : Array String := #[]
  /-- The options by which interfaces are adopted. -/
  options : RegistryOptions

namespace Schema

/-- A schema without declarations, laid out by the options. -/
def new (name : String) (options : RegistryOptions) : Schema where
  name := name
  types := .ofOptions options
  entities := .ofOptions options
  useInterfaces := .ofOptions options
  referenceInterfaces := .ofOptions options
  globalRules := { options }
  options := options

instance : Inhabited Schema := ⟨new "" {}⟩

/-! ### Interfaces -/

def interfaces (kind : InterfaceKind) (s : Schema) : OwnedRegistry Interface :=
  match kind with
  | .use => s.useInterfaces
  | .reference => s.referenceInterfaces

/-- Puts other interfaces of a kind in place. -/
def withInterfaces (kind : InterfaceKind) (interfaces : OwnedRegistry Interface) (s : Schema) :
    Schema :=
  match kind with
  | .use => { s with useInterfaces := interfaces }
  | .reference => { s with referenceInterfaces := interfaces }

/-- Adopts an interface: its items take over the schema's options and it goes to the end of its
list. -/
def addInterface (kind : InterfaceKind) (i : Interface) (s : Schema) :
    Element Interface × Schema :=
  let (e, interfaces) := (s.interfaces kind).append (i.applyOptions s.options)
  (e, s.withInterfaces kind interfaces)

/-! ### Global rules -/

def rule? (s : Schema) (id : RuleId) : Option GlobalRule :=
  s.ruleStore[id.index]?

/-- The rule of a handle that has to denote one. -/
def requireRule (id : RuleId) (s : Schema) : Except Error GlobalRule :=
  (s.rule? id).elim (.error (.indexOutOfRange id.index s.ruleStore.size)) .ok

/-- The handle at an index of the rule set, which has to hold one. -/
def requireRuleAt (i : Nat) (s : Schema) : Except Error RuleId :=
  match s.globalRules.current? with
  | some rules => (rules.requireAt i).map Element.value
  | none => .error (.indexOutOfRange i 0)

/-- The global rules in force, in order. -/
def liveRules (s : Schema) : List GlobalRule :=
  s.globalRules.values.filterMap s.rule?

/-- Takes a rule into the store, without listing it yet. -/
def storeRule (rule : GlobalRule) (s : Schema) : RuleId × Schema :=
  (⟨s.ruleStore.size⟩, { s with ruleStore := s.ruleStore.push rule })

/-- Puts a rule at the end of the rule set. -/
def pushRule (rule : GlobalRule) (s : Schema) : RuleId × Schema :=
  let (id, s) := s.storeRule rule
  (id, { s with globalRules := (s.globalRules.push id).2 })

/-- Changes the rule of a handle in place. -/
def modifyRule (id : RuleId) (f : GlobalRule → GlobalRule) (s : Schema) : Schema :=
  { s with ruleStore := s.ruleStore.modify id.index f }

/-! ### Algorithms -/

def addFunction (text : String) (s : Schema) : Schema :=
  { s with functions := s.functions.push text }

def addProcedure (text : String) (s : Schema) : Schema :=
  { s with procedures := s.procedures.push text }

end Schema

end ExpressModel
