import ExpressModel.Declaration.EntityText
import ExpressModel.Declaration.TypeText

/-! # Schema texts

The text of a schema opens with a comment that names it, if so configured, and gives its
interfaces, its types, its entities, and its rules, functions and procedures, in the order in
which they were listed.  A listed handle that denotes nothing, or among the entities anything but
an entity, is refused. -/

namespace ExpressModel

namespace Declaration

/-! ### Interfaces -/

def itemText (item : ImportItem) : String :=
  match item.newName? with
  | some newName => Text.lower item.name ++ " AS " ++ Text.lower newName
  | none => Text.lower item.name

/-- The clause of an interface: its items, or the whole schema where it imports everything and
lists nothing. -/
def interfaceText (kind : InterfaceKind) (i : Interface) : String :=
  let opening := "\n    " ++ kind.keyword ++ " FROM " ++ Text.lower i.foreign
  let items := i.items.values.map itemText
  if !items.isEmpty then
    opening ++ "\n       (" ++ String.intercalate ",\n\t" items ++ ");\n"
  else if i.importsAll then opening ++ ";\n"
  else ""

/-- The clauses of all interfaces, USE before REFERENCE. -/
def interfacesText (s : Schema) : String :=
  String.join (InterfaceKind.all.flatMap fun kind =>
    (s.interfaces kind).values.map (interfaceText kind))

/-! ### Algorithms -/

/-- Raw texts under a heading, left out when there are none. -/
def rawSection (heading : String) (texts : List String) : String :=
  if texts.isEmpty then ""
  else heading ++ String.join (texts.map fun text => "\n" ++ text ++ "\n")

/-- The global rules, functions and procedures. -/
def algorithmsText (s : Schema) : String :=
  rawSection "\n(* *************RULES************* *)\n" (s.liveRules.map GlobalRule.text) ++
    rawSection "(* *************FUNCTIONS************* *)\n" s.functions.toList ++
    rawSection "(* *************PROCEDURES************* *)\n" s.procedures.toList

/-! ### Declarations -/

def typesText (d : Dictionary) (types : List TypeId) : Except Error String := do
  let texts ← types.mapM fun id => (d.require id).map typeText
  return String.join (texts.map ("\n" ++ ·))

/-- The declarations of a list of entities. -/
def entitiesText (d : Dictionary) (schema : String) (entities : List EntityId) :
    Except Error String := do
  let texts ← entities.mapM fun e => do entityText d (some schema) (← d.requireEntity e)
  return String.join (texts.map ("\n" ++ ·))

def bannerText (options : GenerationOptions) (name : String) : String :=
  if options.headerComment then "\n(* Generating: " ++ name ++ " *)\n" else ""

end Declaration

/-- The text of a schema with the numbers of declarations in it. -/
structure SchemaText where
  text : String
  typeCount : Nat
  entityCount : Nat
  ruleCount : Nat
  deriving DecidableEq

namespace Dictionary

open Declaration

variable (d : Dictionary)

def schemaText (schema : SchemaId) : Except Error SchemaText := do
  let s ← d.requireSchema schema
  let types ← typesText d s.types.live
  let entities ← entitiesText d s.name s.entities.live
  return {
    text := bannerText d.config.generation s.name ++
      "\nSCHEMA " ++ Text.lower s.name ++ ";\n" ++ interfacesText s ++
      "\n(* ////////////// TYPE Definitions *)\n" ++ types ++
      "\n(* ////////////// ENTITY Definitions *)\n" ++ entities ++
      algorithmsText s ++ "\nEND_SCHEMA;\n"
    typeCount := s.types.live.length
    entityCount := s.entities.live.length
    ruleCount := s.liveRules.length }

def expressText (schema : SchemaId) : Except Error String :=
  (d.schemaText schema).map SchemaText.text

/-- The declaration of a type that is no entity. -/
def typeText (id : TypeId) : Except Error String := do
  let t ← d.require id
  if t.isEntity then throw (.kindMismatch t.name .nonEntity)
  return Declaration.typeText t

/-- The declaration of an entity, as the schema it was declared in has it. -/
def entityText (e : EntityId) : Except Error String := do
  let t ← d.requireEntity e
  Declaration.entityText d ((t.origin?.bind d.schema?).map Schema.name) t

end Dictionary

end ExpressModel
