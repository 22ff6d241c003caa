import ExpressModel.Registry.Owned

/-! # Registries in listings

A registry of values is listed by its size, its capacity and its policy; a registry of handles
by the handles it holds. -/

namespace ExpressModel

def Registry.inspect {α : Type} (r : Registry α) : String :=
  "InstanceRegistry \x7b count: " ++ toString r.count ++ ", capacity: " ++ toString r.capacity ++
    ", policy: " ++ r.policy.name ++ " \x7d"

def OwnedRegistry.inspect {α : Type} (r : OwnedRegistry α) : String :=
  "OwningRegistry(" ++ r.registry.inspect ++ ")"

namespace Registry

variable {η : Type}

/-- The first index that holds the handle. -/
def indexOf? [DecidableEq η] (r : Registry η) (h : η) : Option Nat :=
  r.position? fun held => held == h

def contains [DecidableEq η] (r : Registry η) (h : η) : Bool :=
  (r.indexOf? h).isSome

def inspectHandles [Handle η] (r : Registry η) : String :=
  "RefRegistry([" ++ String.intercalate ", " (r.live.map Handle.inspect) ++ "])"

end Registry

end ExpressModel
