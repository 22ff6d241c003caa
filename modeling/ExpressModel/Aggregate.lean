import ExpressModel.Kind

/-! # Collection types

A collection type has a kind, two bounds and a statement on the uniqueness of its elements; the
type of the elements is the referent of the descriptor.  A bound is a number or open; as a raw
number an open bound is -1.

Every type but a plain one may carry a factory, a hook that makes a runtime value for it. -/

namespace ExpressModel

/-- A hook that makes a runtime value; values are known by their numbers. -/
structure Factory where
  create : Unit → Nat

/-- A hook in a listing, where its workings are not shown. -/
def Factory.inspect (_ : Factory) : String :=
  "FactoryHook(..)"

/-! ### Bounds -/

/-- A bound on the number of elements. -/
inductive Bound where
  | fixed (n : Int)
  | unbounded
  deriving DecidableEq, Inhabited

namespace Bound

def ofRaw (raw : Int) : Bound :=
  if raw = -1 then .unbounded else .fixed raw

def toRaw : Bound → Int
  | .fixed n => n
  | .unbounded => -1

/-- The bound as a declaration writes it. -/
def text : Bound → String
  | .fixed n => toString n
  | .unbounded => "?"

def inspect : Bound → String
  | .fixed n => "Fixed(" ++ toString n ++ ")"
  | .unbounded => "Unbounded"

theorem toRaw_ofRaw (raw : Int) : (ofRaw raw).toRaw = raw := by
  unfold ofRaw; split
  · simp [toRaw, *]
  · rfl

end Bound

/-! ### Bodies -/

/-- The body of a collection type. -/
structure AggregateBody where
  kind : AggregateKind
  lower : Bound := .unbounded
  upper : Bound := .unbounded
  uniqueElements : Logical := .unknown
  factory? : Option Factory := none

namespace AggregateBody

/-- The body with bounds given as raw numbers. -/
def withBounds (lower upper : Int) (b : AggregateBody) : AggregateBody :=
  { b with lower := .ofRaw lower, upper := .ofRaw upper }

/-- The bounds as a declaration writes them; none when both are open. -/
def boundsText? (b : AggregateBody) : Option String :=
  if b.lower = .unbounded ∧ b.upper = .unbounded then none
  else some ("[" ++ b.lower.text ++ ":" ++ b.upper.text ++ "]")

def inspect (b : AggregateBody) : String :=
  let hook := match b.factory? with
    | none => "None"
    | some f => "Some(" ++ f.inspect ++ ")"
  "AggrBody \x7b kind: " ++ b.kind.primitive.name ++ ", lower: " ++ b.lower.inspect ++
    ", upper: " ++ b.upper.inspect ++ ", unique_elements: " ++ b.uniqueElements.name ++
    ", factory: " ++ hook ++ " \x7d"

end AggregateBody

end ExpressModel
