import ExpressModel.Resolve.Chain
import ExpressModel.Resolve.Path

/-! # Membership

An entity is a kind of another when supertype links lead from the one to the other.  The search
is depth first along the live supertypes and refuses to enter an entity that it is inside of; an
entity shared by several branches is no such case.

`isA?` extends this to all types: an alias on the right stands for the type behind it, and a type
that is no entity is only itself. -/

namespace ExpressModel.Dictionary

variable (d : Dictionary)

/-! ### Supertypes -/

mutual

/-- Is the other entity this one or above it?  The path holds the entities the search is inside
of. -/
def isBelow (other : EntityId) (path : List TypeId) (this : EntityId) : Except Error Bool :=
  if this = other then .ok true
  else match _h : d.requireEntity this with
    | .error e => .error e
    | .ok t =>
      if _hp : this.toType ∈ path then .error t.cyclic
      else isAnyBelow other (this.toType :: path) t.supertypes
termination_by (d.offPath path, 0)
decreasing_by exact Prod.Lex.left _ _ (offPath_cons_lt (find?_of_requireEntity _h) _hp)

/-- Is the other entity among these or above one of them?  They are tried in order. -/
def isAnyBelow (other : EntityId) (path : List TypeId) : List EntityId → Except Error Bool
  | [] => .ok false
  | this :: rest =>
    match isBelow other path this with
    | .error e => .error e
    | .ok true => .ok true
    | .ok false => isAnyBelow other path rest
termination_by entities => (d.offPath path, entities.length + 1)
decreasing_by
  · exact Prod.Lex.right _ (by simp)
  · exact Prod.Lex.right _ (by simp)

end

theorem isBelow_eq (other : EntityId) (path : List TypeId) (this : EntityId) :
    d.isBelow other path this =
      if this = other then .ok true
      else d.requireEntity this >>= fun t =>
        if this.toType ∈ path then .error t.cyclic
        else d.isAnyBelow other (this.toType :: path) t.supertypes := by
  rw [isBelow]
  split
  · rfl
  · split <;> next h => rw [h]; rfl

@[simp] theorem isAnyBelow_nil (other : EntityId) (path : List TypeId) :
    d.isAnyBelow other path [] = .ok false := by
  rw [isAnyBelow]

theorem isAnyBelow_cons (other : EntityId) (path : List TypeId) (this : EntityId)
    (rest : List EntityId) :
    d.isAnyBelow other path (this :: rest) =
      d.isBelow other path this >>= fun below =>
        if below then .ok true else d.isAnyBelow other path rest := by
  rw [isAnyBelow]
  split <;> next h => rw [h]; rfl

/-- The other entity, where this one is a kind of it. -/
def entityIsA? (this other : EntityId) : Except Error (Option EntityId) :=
  (d.isBelow other [] this).map fun below => if below then some other else none

/-! ### All types -/

/-- The entity that the other type stands for, where this entity is a kind of it; the other type
itself, where the two are the same and no entities. -/
def isA? (this other : TypeId) : Except Error (Option TypeId) := do
  let t ← d.require this
  if t.isEntity then
    let target ← d.unaliased other
    match d.entityId? this, d.entityId? target with
    | some this, some target => (d.entityIsA? this target).map (·.map EntityId.toType)
    | _, _ => return none
  else
    return if this = other then some other else none

/-! ### Qualified names -/

/-- The names of the direct supertypes and of the entity itself, joined by ampersands. -/
def qualifiedName (e : EntityId) : Except Error String := do
  let t ← d.requireEntity e
  let above ← t.supertypes.mapM fun s => (d.require s.toType).map Descriptor.name
  return String.intercalate "&" (above ++ [t.name])

end ExpressModel.Dictionary
