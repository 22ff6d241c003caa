import ExpressModel.Resolve.Selection
import ExpressModel.Resolve.TypeString

/-! # Queries

The questions that can be asked of a dictionary about a type: what is behind its aliases and at
the end of its chain, what its elements are, what it is a kind of, what it may hold and how its
values may be tagged.  `Query` lists them with their arguments and `Dictionary.ask` answers them,
so that a statement about every question is one statement. -/

namespace ExpressModel

/-- A question about a type. -/
inductive Query where
  | unaliased (id : TypeId)
  | unaliasedKind (id : TypeId)
  | base (id : TypeId)
  | baseKind (id : TypeId)
  | isAggregate (id : TypeId)
  | element (id : TypeId)
  | elementKind (id : TypeId)
  | isA (this other : TypeId)
  | isANamed (this : TypeId) (name : String)
  | entityIsA (this other : EntityId)
  | typeString (id : TypeId)
  | canBe (this other : TypeId)
  | canBeNamed (this : TypeId) (name : String)
  | canBeSet (this : TypeId) (name : String) (schema? : Option String)

/-- The handles that a question is about. -/
def Query.handles : Query → List TypeId
  | .unaliased id | .unaliasedKind id | .base id | .baseKind id | .isAggregate id | .element id
  | .elementKind id | .isANamed id _ | .typeString id | .canBeNamed id _ | .canBeSet id _ _ =>
    [id]
  | .isA this other | .canBe this other => [this, other]
  | .entityIsA this other => [this.toType, other.toType]

/-- The answer to a question about a type. -/
inductive Answer where
  | type (id : TypeId)
  | type? (id? : Option TypeId)
  | entity? (id? : Option EntityId)
  | kind (kind : PrimitiveKind)
  | flag (b : Bool)
  | text (s : String)
  deriving DecidableEq

def Dictionary.ask (d : Dictionary) : Query → Except Error Answer
  | .unaliased id => (d.unaliased id).map .type
  | .unaliasedKind id => (d.unaliasedKind id).map .kind
  | .base id => (d.base id).map .type
  | .baseKind id => (d.baseKind id).map .kind
  | .isAggregate id => (d.isAggregate id).map .flag
  | .element id => (d.element? id).map .type?
  | .elementKind id => (d.elementKind id).map .kind
  | .isA this other => (d.isA? this other).map .type?
  | .isANamed this name => (d.isANamed? this name).map .type?
  | .entityIsA this other => (d.entityIsA? this other).map .entity?
  | .typeString id => (d.typeString id).map .text
  | .canBe this other => (d.canBe? this other).map .type?
  | .canBeNamed this name => (d.canBeNamed? this name).map .type?
  | .canBeSet this name schema? => (d.canBeSet? this name schema?).map .type?

end ExpressModel
