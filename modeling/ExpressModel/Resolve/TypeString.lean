import ExpressModel.Resolve.Chain

/-! # Types in full

A type is described in full by the segments of its chain, joined by dashes.  A segment says what
one descriptor is (`Descriptor.segment`); behind an alias or a collection the description goes on
with what it refers to (`Descriptor.continues`), and every other type ends it. -/

namespace ExpressModel

namespace Descriptor

def opening (t : Descriptor) : String :=
  "TYPE " ++ t.name ++ " = "

/-- The opening, for a type with a name. -/
def openingIfNamed (t : Descriptor) : String :=
  if t.isNamed then t.opening else ""

/-- The opening, for a type that refers to another. -/
def openingIfLinked (t : Descriptor) : String :=
  if t.referent?.isSome then t.opening else ""

/-- What a descriptor says about itself. -/
def segment (t : Descriptor) : String :=
  match t.kind with
  | .reference => t.openingIfNamed ++ t.description
  | .integer => t.openingIfLinked ++ "Integer"
  | .real => t.openingIfLinked ++ "Real"
  | .number => t.openingIfLinked ++ "Number"
  | .string => t.openingIfLinked ++ "String"
  | .binary => t.openingIfLinked ++ "Binary"
  | .boolean => t.openingIfLinked ++ "Boolean: F, T"
  | .logical => t.openingIfLinked ++ "Logical: F, T, U"
  | .enumeration => "Enumeration: " ++ t.openingIfNamed ++ t.description
  | .entity => "Entity: " ++ t.name
  | .aggregate | .array | .bag | .set | .list | .select => t.description
  | .generic | .unknown => "Unknown"

/-- Does the description go on with what the type refers to? -/
def continues (t : Descriptor) : Bool :=
  t.kind == .reference || t.kind.isAggregate

end Descriptor

namespace Dictionary

variable (d : Dictionary)

/-- What the description of a type goes on with. -/
def continuation? (t : Descriptor) : Option Descriptor :=
  if t.continues then (d.follow? t).map Prod.snd else none

theorem exists_follow?_of_continuation? {d : Dictionary} {t u : Descriptor}
    (h : d.continuation? t = some u) : ∃ next, d.follow? t = some (next, u) := by
  unfold continuation? at h
  split at h
  · obtain ⟨⟨next, v⟩, hf, hv⟩ := Option.map_eq_some_iff.mp h
    exact ⟨next, by rw [hf, ← hv]⟩
  · simp at h

/-- The description in full from a descriptor on; refuses where it would take more further
segments than the budget allows. -/
def describe : Nat → Descriptor → Except Error String
  | budget, t =>
    match d.continuation? t, budget with
    | none, _ => .ok t.segment
    | some _, 0 => .error t.cyclic
    | some next, budget + 1 => do
      let rest ← describe budget next
      return t.segment ++ " -- " ++ rest

theorem describe_of_none {d : Dictionary} {t : Descriptor} (h : d.continuation? t = none)
    (budget : Nat) : d.describe budget t = .ok t.segment := by
  unfold describe
  rw [h]

theorem describe_succ_of_some {d : Dictionary} {t next : Descriptor}
    (h : d.continuation? t = some next) (budget : Nat) :
    d.describe (budget + 1) t =
      (d.describe budget next).map fun rest => t.segment ++ " -- " ++ rest := by
  rw [describe.eq_def]
  simp only [h]
  rfl

def typeString (id : TypeId) : Except Error String := do
  let t ← d.require id
  d.describe d.typeCount t

end Dictionary

end ExpressModel
