import ExpressModel.Entity
import ExpressModel.Text.Reflow

/-! # Descriptors

A descriptor stands for a type: a name (empty for an inline type), the text of its underlying
type, the schema it was declared in, a link to the type it refers to, the names it goes by in
other schemas, its WHERE rules and a body that depends on its kind. -/

namespace ExpressModel

/-- The body of a select type. -/
structure SelectBody where
  choices : Registry TypeId := .empty
  factory? : Option Factory := none

/-- What a descriptor holds beyond what all descriptors hold. -/
inductive Body where
  | plain (kind : PlainKind)
  | enumeration (factory? : Option Factory)
  | select (body : SelectBody)
  | aggregate (body : AggregateBody)
  | entity (body : EntityBody)

/-- The name of a type in another schema. -/
structure AltName where
  schema : String
  name : String
  deriving DecidableEq

/-- A type of a dictionary. -/
structure Descriptor where
  name : String
  /-- The text of the underlying type. -/
  description : String
  /-- The schema the type was declared in. -/
  origin? : Option SchemaId := none
  /-- The type this one refers to: the aliased type, or the element type of a collection. -/
  referent? : Option TypeId := none
  altNames : List AltName := []
  whereRules : RuleSet WhereRule := {}
  body : Body

instance : Inhabited Descriptor := ⟨{ name := "", description := "", body := .plain .unknown }⟩

namespace Body

/-- The kind of type the body belongs to. -/
def kind : Body → PrimitiveKind
  | .plain kind => kind.primitive
  | .enumeration _ => .enumeration
  | .select _ => .select
  | .aggregate body => body.kind.primitive
  | .entity _ => .entity

/-- The hook that makes values of the type. -/
def factory? : Body → Option Factory
  | .plain _ => none
  | .enumeration factory? => factory?
  | .select body => body.factory?
  | .aggregate body => body.factory?
  | .entity body => body.factory?

/-- Takes over the options, in every registry of the body. -/
def applyOptions (options : RegistryOptions) : Body → Body
  | .entity body => .entity (body.applyOptions options)
  | .select body => .select { body with choices := body.choices.applyOptions options }
  | body => body

end Body

namespace Descriptor

/-! ### Construction -/

/-- A type that its kind describes in full; the other kinds need a body. -/
def plain (name : String) (kind : PrimitiveKind) (description : String) :
    Except Error Descriptor :=
  match kind.plain? with
  | some kind => .ok { name, description, body := .plain kind }
  | none => .error (.kindMismatch name .plain)

/-- A built-in type, which its keyword names and describes. -/
def builtin (kind : PlainKind) : Descriptor :=
  let keyword := kind.primitive.keyword?.getD "UNKNOWN"
  { name := keyword, description := keyword, body := .plain kind }

/-- An entity, which its name describes. -/
def entity (name : String) (body : EntityBody) : Descriptor :=
  { name, description := name, body := .entity body }

/-- Takes over the options, in every registry of the descriptor. -/
def applyOptions (options : RegistryOptions) (t : Descriptor) : Descriptor :=
  { t with whereRules := t.whereRules.applyOptions options, body := t.body.applyOptions options }

/-! ### Reading -/

def isNamed (t : Descriptor) : Bool :=
  !t.name.isEmpty

def kind (t : Descriptor) : PrimitiveKind :=
  t.body.kind

/-- The kind of the type, or unknown for an alias, which has none of its own. -/
def fundamentalKind (t : Descriptor) : PrimitiveKind :=
  if t.kind = .reference then .unknown else t.kind

def entity? (t : Descriptor) : Option EntityBody :=
  match t.body with
  | .entity body => some body
  | _ => none

def isEntity (t : Descriptor) : Bool :=
  t.entity?.isSome

def select? (t : Descriptor) : Option SelectBody :=
  match t.body with
  | .select body => some body
  | _ => none

/-- The body of a type that has to be an entity. -/
def requireEntity (t : Descriptor) : Except Error EntityBody :=
  t.entity?.elim (.error (.kindMismatch t.name .entity)) .ok

/-- The choices of a type that has to be a select type. -/
def requireChoices (t : Descriptor) : Except Error (Registry TypeId) :=
  t.select?.elim (.error (.kindMismatch t.name .select)) fun b => .ok b.choices

/-- The direct supertypes, of an entity; other types have none. -/
def supertypes (t : Descriptor) : List EntityId :=
  t.entity?.elim [] (·.supertypes.live)

/-- The choices, of a select type; other types have none. -/
def choices (t : Descriptor) : List TypeId :=
  t.select?.elim [] (·.choices.live)

def aggregate? (t : Descriptor) : Option AggregateBody :=
  match t.body with
  | .aggregate body => some body
  | _ => none

def isEnumeration (t : Descriptor) : Bool :=
  match t.body with
  | .enumeration _ => true
  | _ => false

theorem kind_eq_entity_iff {t : Descriptor} : t.kind = .entity ↔ t.isEntity = true := by
  rcases t with ⟨_, _, _, _, _, _, body⟩
  cases body with
  | plain k => cases k <;> simp [kind, Body.kind, isEntity, entity?, PlainKind.primitive]
  | aggregate b =>
    cases h : b.kind <;> simp [kind, Body.kind, isEntity, entity?, AggregateKind.primitive, h]
  | _ => simp [kind, Body.kind, isEntity, entity?]

/-- A runtime value of the type, where there is a hook to make one. -/
def create? (t : Descriptor) : Option Nat :=
  t.body.factory?.map fun f => f.create ()

/-- The literals of an enumeration, read off its description. -/
def literals (t : Descriptor) : List String :=
  if t.isEnumeration then Text.literals t.description else []

/-! ### Changing the body -/

/-- Changes the body of an entity; other types stay as they are. -/
def modifyEntity (f : EntityBody → EntityBody) (t : Descriptor) : Descriptor :=
  match t.body with
  | .entity body => { t with body := .entity (f body) }
  | _ => t

/-- Changes the choices of a select type; other types stay as they are. -/
def modifyChoices (f : Registry TypeId → Registry TypeId) (t : Descriptor) : Descriptor :=
  match t.body with
  | .select body => { t with body := .select { body with choices := f body.choices } }
  | _ => t

end Descriptor

end ExpressModel
