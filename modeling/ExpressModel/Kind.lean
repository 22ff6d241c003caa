/-! # Kinds of types

`PrimitiveKind` classifies every descriptor by the shape of its type.  Ten kinds are *plain*:
a descriptor of such a kind needs no more data than the kind itself (`PlainKind`); the other
eight come with a body of their own.  `PrimitiveKind.plain?` is the partial inverse of the
inclusion (`PlainKind.plain?_primitive`, `PrimitiveKind.plain?_eq_some_iff`).  `AggregateKind`
lists the five collection kinds and `Logical` the three truth values of the language. -/

namespace ExpressModel

/-! ### Truth values -/

/-- A truth value of the language: known to be false, known to be true, or not known. -/
inductive Logical where
  | false
  | true
  | unknown
  deriving DecidableEq

namespace Logical

/-- What nobody has stated is not known. -/
instance : Inhabited Logical := ⟨.unknown⟩

/-- The value of a two-valued condition. -/
def ofBool (b : Bool) : Logical :=
  if b then .true else .false

def isTrue (l : Logical) : Bool :=
  l == .true

def name : Logical → String
  | .false => "False"
  | .true => "True"
  | .unknown => "Unknown"

end Logical

/-! ### Primitive kinds -/

/-- What kind of type a descriptor stands for. -/
inductive PrimitiveKind where
  | integer
  | real
  | number
  | string
  | binary
  | boolean
  | logical
  | entity
  | enumeration
  | select
  | aggregate
  | array
  | bag
  | set
  | list
  | reference
  | generic
  | unknown
  deriving DecidableEq, Inhabited

/-- A kind that says all there is to say about the type's shape. -/
inductive PlainKind where
  | integer
  | real
  | number
  | string
  | binary
  | boolean
  | logical
  | reference
  | generic
  | unknown
  deriving DecidableEq, Inhabited

/-- A plain kind among the primitive kinds. -/
def PlainKind.primitive : PlainKind → PrimitiveKind
  | .integer => .integer
  | .real => .real
  | .number => .number
  | .string => .string
  | .binary => .binary
  | .boolean => .boolean
  | .logical => .logical
  | .reference => .reference
  | .generic => .generic
  | .unknown => .unknown

namespace PrimitiveKind

def all : List PrimitiveKind :=
  [.integer, .real, .number, .string, .binary, .boolean, .logical, .entity, .enumeration, .select,
    .aggregate, .array, .bag, .set, .list, .reference, .generic, .unknown]

def plain? : PrimitiveKind → Option PlainKind
  | .integer => some .integer
  | .real => some .real
  | .number => some .number
  | .string => some .string
  | .binary => some .binary
  | .boolean => some .boolean
  | .logical => some .logical
  | .reference => some .reference
  | .generic => some .generic
  | .unknown => some .unknown
  | .entity | .enumeration | .select | .aggregate | .array | .bag | .set | .list => none

theorem plain?_eq_some_iff {k : PrimitiveKind} {p : PlainKind} :
    k.plain? = some p ↔ p.primitive = k := by
  cases k <;> cases p <;> decide

/-- Is it one of the five collection kinds? -/
def isAggregate : PrimitiveKind → Bool
  | .aggregate | .array | .bag | .set | .list => true
  | _ => false

/-- Does a type of the kind carry a body of its own? -/
def hasOwnBody (k : PrimitiveKind) : Bool :=
  k.isAggregate || k == .entity || k == .enumeration || k == .select

/-- The kinds of the built-in types, in the order of their handles. -/
def builtins : List PlainKind :=
  [.integer, .real, .number, .string, .binary, .boolean, .logical, .generic]

def keyword? : PrimitiveKind → Option String
  | .integer => some "INTEGER"
  | .real => some "REAL"
  | .number => some "NUMBER"
  | .string => some "STRING"
  | .binary => some "BINARY"
  | .boolean => some "BOOLEAN"
  | .logical => some "LOGICAL"
  | .generic => some "GENERIC"
  | _ => none

def name : PrimitiveKind → String
  | .integer => "Integer"
  | .real => "Real"
  | .number => "Number"
  | .string => "String"
  | .binary => "Binary"
  | .boolean => "Boolean"
  | .logical => "Logical"
  | .entity => "Entity"
  | .enumeration => "Enumeration"
  | .select => "Select"
  | .aggregate => "Aggregate"
  | .array => "Array"
  | .bag => "Bag"
  | .set => "Set"
  | .list => "List"
  | .reference => "Reference"
  | .generic => "Generic"
  | .unknown => "Unknown"

/-- The position of a kind among the built-in types. -/
def builtinPosition? (k : PrimitiveKind) : Option Nat :=
  builtins.findIdx? (·.primitive == k)

end PrimitiveKind

theorem PlainKind.plain?_primitive (p : PlainKind) : p.primitive.plain? = some p :=
  PrimitiveKind.plain?_eq_some_iff.mpr rfl

/-! ### Collections -/

/-- A collection kind. -/
inductive AggregateKind where
  | aggregate
  | array
  | bag
  | set
  | list
  deriving DecidableEq, Inhabited

namespace AggregateKind

def all : List AggregateKind :=
  [.aggregate, .array, .bag, .set, .list]

/-- A collection kind among the primitive kinds. -/
def primitive : AggregateKind → PrimitiveKind
  | .aggregate => .aggregate
  | .array => .array
  | .bag => .bag
  | .set => .set
  | .list => .list

def keyword : AggregateKind → String
  | .aggregate => "AGGREGATE"
  | .array => "ARRAY"
  | .bag => "BAG"
  | .set => "SET"
  | .list => "LIST"

end AggregateKind

end ExpressModel
