import ExpressModel.Links.Basic

/-! # Cycles of links

A descriptor lies on a cycle when links lead from it back to itself, and two lie on the same
cycle when links lead from each to the other.  `reachable` collects what links lead to, by taking
each descriptor at most once, and `cycles` reads the cycles off what lies beyond each descriptor:
a cycle is listed where its smallest handle comes up. -/

namespace ExpressModel

/-! ### Reachability in a finite graph -/

theorem length_erase_lt {α : Type} [DecidableEq α] {l : List α} {a : α} (h : a ∈ l) :
    (l.erase a).length < l.length := by
  rw [List.length_erase_of_mem h]
  have := List.length_pos_of_mem h
  omega

/-- What can be reached from the pending nodes, the pending ones included, through nodes that
remain; each node is taken from the remaining ones when it is first come to. -/
def reachable {α : Type} [DecidableEq α] (next : α → List α) (remaining : List α) :
    List α → List α
  | [] => []
  | a :: pending =>
    if _h : a ∈ remaining then
      a :: reachable next (remaining.erase a) (next a ++ pending)
    else
      reachable next remaining pending
termination_by pending => (remaining.length, pending.length)
decreasing_by
  · exact Prod.Lex.left _ _ (length_erase_lt _h)
  · exact Prod.Lex.right _ (by simp)

/-- A cycle of links. -/
structure Cycle where
  /-- The descriptors on the cycle, by handle. -/
  members : List TypeId
  /-- Is it a descriptor linked to itself and to no other on a cycle with it? -/
  isSelfReferential : Bool
  deriving DecidableEq

namespace Dictionary

variable (d : Dictionary)

/-- What one link or more lead to from a descriptor. -/
def beyond (id : TypeId) : List TypeId :=
  reachable d.successors d.typeIds (d.successors id)

/-- For every descriptor, in order, what one link or more lead to from it. -/
def beyondTable : List (TypeId × List TypeId) :=
  d.typeIds.map fun id => (id, d.beyond id)

/-- The descriptors on a cycle with this one, by handle. -/
def cycleMembers (table : List (TypeId × List TypeId)) (id : TypeId) (ahead : List TypeId) :
    List TypeId :=
  (table.filter fun entry => decide (entry.1 ∈ ahead) && decide (id ∈ entry.2)).map Prod.fst

/-- The cycles, by their smallest handles. -/
def cycles : List Cycle :=
  let table := d.beyondTable
  table.filterMap fun (id, ahead) =>
    let members := cycleMembers table id ahead
    if members.head? = some id then some ⟨members, members.length == 1⟩ else none

def isAcyclic : Bool :=
  d.cycles.isEmpty

/-- Refuses when there is a cycle, with the names on the first one. -/
def checkAcyclic : Except Error Unit :=
  match d.cycles with
  | [] => .ok ()
  | cycle :: _ =>
    let names := cycle.members.map fun id => (d.find? id).elim id.display Descriptor.name
    .error (.cyclicTypeGraph (String.intercalate ", " names))

end Dictionary

end ExpressModel
