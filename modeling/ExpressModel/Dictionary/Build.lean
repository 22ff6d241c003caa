import ExpressModel.Dictionary.Basic

/-! # Building a dictionary

Declarations are added to the end of the dictionary and listed in their schema; a descriptor that
enters takes over the dictionary's registry options, whatever it was made with.  Links, names and
rules can be set at any time, so types may refer to types that are declared later.

Each edit says what it refuses; the order of its checks decides between two refusals. -/

namespace ExpressModel.Dictionary

variable {β : Type}

/-! ### Declarations -/

/-- Adds a schema; the answer is its handle. -/
def addSchema (name : String) (d : Dictionary) : SchemaId × Dictionary :=
  (⟨d.schemaCount⟩, { d with schemas := d.schemas.push (Schema.new name d.config.registry) })

/-- Adds a descriptor, listed nowhere; the answer is its handle. -/
def addUnnamed (origin? : Option SchemaId) (t : Descriptor) (d : Dictionary) :
    TypeId × Dictionary :=
  let t := { t with origin? }.applyOptions d.config.registry
  (⟨d.typeCount⟩, { d with descriptors := d.descriptors.push t })

theorem find?_addUnnamed (origin? : Option SchemaId) (t : Descriptor) (d : Dictionary)
    (id : TypeId) :
    (addUnnamed origin? t d).2.find? id =
      if id = ⟨d.typeCount⟩ then some ({ t with origin? }.applyOptions d.config.registry)
      else d.find? id := by
  rcases id with ⟨n⟩
  simp [addUnnamed, find?, typeCount, Array.getElem?_push]

/-- Declares a type in a schema: anything but an entity. -/
def insertType (schema : SchemaId) (t : Descriptor) : Edit Dictionary TypeId := do
  if t.isEntity then
    Edit.refuse (.kindMismatch t.name .nonEntity)
  let _ ← Edit.query (·.requireSchema schema)
  let id ← modifyGet (addUnnamed (some schema) t)
  modify (modifySchema schema fun s => { s with types := s.types.append id })
  return id

def insertEntity (schema : SchemaId) (t : Descriptor) : Edit Dictionary EntityId := do
  if !t.isEntity then
    Edit.refuse (.kindMismatch t.name .entity)
  let _ ← Edit.query (·.requireSchema schema)
  let id ← modifyGet (addUnnamed (some schema) t)
  modify (modifySchema schema fun s => { s with entities := s.entities.append ⟨id⟩ })
  return ⟨id⟩

/-! ### Parts of descriptors -/

def editType (id : TypeId) (e : Edit Descriptor β) : Edit Dictionary β :=
  Edit.focus (·.require id) (fun t => modifyType id fun _ => t) e

/-- Edits the WHERE rules of a descriptor. -/
def editWhereRules (id : TypeId) (e : Edit (RuleSet WhereRule) β) : Edit Dictionary β :=
  editType id (Edit.within Descriptor.whereRules (fun whereRules t => { t with whereRules }) e)

def editEntity (id : EntityId) (e : Edit EntityBody β) : Edit Dictionary β :=
  editType id.toType (Edit.focus Descriptor.requireEntity (fun b t => t.modifyEntity fun _ => b) e)

def editChoices (id : TypeId) (e : Edit (Registry TypeId) β) : Edit Dictionary β :=
  editType id (Edit.focus Descriptor.requireChoices (fun c t => t.modifyChoices fun _ => c) e)

/-- Sets or removes the referent of a descriptor. -/
def setReferent (id : TypeId) (referent? : Option TypeId) : Edit Dictionary Unit :=
  editType id (modify fun t => { t with referent? })

/-- Adds a supertype to an entity; the answer is its index. -/
def addSupertype (id supertype : EntityId) : Edit Dictionary Nat :=
  editEntity id (modifyGet (·.addSupertype supertype))

/-- Adds a choice to a select type; the answer is its index. -/
def addChoice (id choice : TypeId) : Edit Dictionary Nat :=
  editChoices id (modifyGet fun choices => (choices.count, choices.append choice))

/-- Adds an attribute to an entity, which becomes its owner; the answer is the element it
became. -/
def addAttribute (id : EntityId) (a : Attribute) : Edit Dictionary (Element Attribute) :=
  editEntity id (modifyGet (·.addAttribute { a with owner? := some id }))

/-- Adds a uniqueness rule to an entity, which becomes its parent. -/
def addUniqueness (id : EntityId) (rule : UniquenessRule) : Edit Dictionary Unit :=
  editEntity id (modify (·.addUniqueness { rule with parent := some id }))

/-- Gives a descriptor a name in a schema. -/
def addAltName (id : TypeId) (schema name : String) : Edit Dictionary Unit :=
  editType id (modify (·.addAltName schema name))

/-- Applies registry options to a descriptor. -/
def applyOptions (id : TypeId) (options : RegistryOptions) : Edit Dictionary Unit :=
  editType id (modify (·.applyOptions options))

/-! ### Parts of schemas -/

def editSchema (schema : SchemaId) (e : Edit Schema β) : Edit Dictionary β :=
  Edit.focus (·.requireSchema schema) (fun s => modifySchema schema fun _ => s) e

/-- Edits the interfaces of a kind in a schema. -/
def editInterfaces (schema : SchemaId) (kind : InterfaceKind)
    (e : Edit (OwnedRegistry Interface) β) : Edit Dictionary β :=
  editSchema schema (Edit.within (Schema.interfaces kind) (Schema.withInterfaces kind) e)

/-- Edits the items of the interface at an index. -/
def editItems (schema : SchemaId) (kind : InterfaceKind) (i : Nat)
    (e : Edit (OwnedRegistry ImportItem) β) : Edit Dictionary β :=
  editInterfaces schema kind (Edit.focus (fun r => (r.requireAt i).map (·.value.items))
    (fun items r => r.modifyAt i fun interface => { interface with items }) e)

/-- Edits the global rule of a handle in a schema. -/
def editRule (schema : SchemaId) (id : RuleId) (e : Edit GlobalRule β) : Edit Dictionary β :=
  editSchema schema (Edit.focus (·.requireRule id) (fun g => Schema.modifyRule id fun _ => g) e)

/-- Adopts an interface into a schema; the answer is the element it became. -/
def addInterface (schema : SchemaId) (kind : InterfaceKind) (i : Interface) :
    Edit Dictionary (Element Interface) :=
  editSchema schema (modifyGet (·.addInterface kind i))

/-- Adds a global rule to a schema, which becomes its parent; the rule takes over the
dictionary's registry options. -/
def addGlobalRule (schema : SchemaId) (rule : GlobalRule) : Edit Dictionary RuleId := do
  let options := (← get).config.registry
  editSchema schema
    (modifyGet (·.pushRule { rule.applyOptions options with parent := some schema }))

/-- Pushes a global rule into the rule set of a schema as it is. -/
def pushGlobalRule (schema : SchemaId) (rule : GlobalRule) : Edit Dictionary RuleId :=
  editSchema schema (modifyGet (·.pushRule rule))

/-- Adds the text of a function to a schema. -/
def addFunction (schema : SchemaId) (text : String) : Edit Dictionary Unit :=
  editSchema schema (modify (·.addFunction text))

/-- Adds the text of a procedure to a schema. -/
def addProcedure (schema : SchemaId) (text : String) : Edit Dictionary Unit :=
  editSchema schema (modify (·.addProcedure text))

/-! ### Renames -/

/-- The renames that an interface asks for: the descriptor that each renamed item denotes in the
foreign schema, with its new name.  Nothing is asked for while that schema is not there. -/
def interfaceRenames (d : Dictionary) (i : Interface) : List (TypeId × String) :=
  match d.schemaByName? i.foreign with
  | none => []
  | some foreign =>
    i.items.values.filterMap fun item => do
      let newName ← item.newName?
      let id ← d.findType? foreign item.name
      return (id, newName)

/-- The renames that the interfaces of a schema ask for, USE before REFERENCE. -/
def renames (d : Dictionary) (s : Schema) : List (TypeId × String) :=
  InterfaceKind.all.flatMap fun kind => (s.interfaces kind).values.flatMap d.interfaceRenames

/-- Records names that descriptors go by in a schema, in order. -/
def recordRenames (schema : String) (renames : List (TypeId × String)) (d : Dictionary) :
    Dictionary :=
  renames.foldl (fun d rename => d.modifyType rename.1 (·.addAltName schema rename.2)) d

/-- Records the renames of a schema's interfaces as names that the descriptors go by there; the
answer is their number. -/
def registerRenames (schema : SchemaId) : Edit Dictionary Nat := do
  let s ← Edit.query (·.requireSchema schema)
  let renames := (← get).renames s
  modify (recordRenames s.name renames)
  return renames.length

end ExpressModel.Dictionary
