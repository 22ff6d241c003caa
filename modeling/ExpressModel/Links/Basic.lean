import ExpressModel.Dictionary.Basic

/-! # Links

The descriptors of a dictionary are joined by links of three kinds: a descriptor to its referent,
an entity to its live supertypes and a select type to its live choices.  Links to handles that
denote nothing are no links.

`linksOut` lists the links of a descriptor in that order and `linksIn` the links to it, by
handle and then by kind; both are read off the same `targets`, and `mem_linksIn_iff` says that
each is the other read backwards. -/

namespace ExpressModel

/-- What joins two descriptors. -/
inductive LinkKind where
  | referent
  | supertype
  | choice
  deriving DecidableEq, Inhabited

/-- The links that a descriptor states, whether or not they denote anything. -/
def Descriptor.targets (t : Descriptor) : List (TypeId × LinkKind) :=
  t.referent?.toList.map (·, .referent) ++ t.supertypes.map (·.toType, .supertype) ++
    t.choices.map (·, .choice)

namespace Dictionary

variable (d : Dictionary)

/-- The links from a descriptor, each with the handle it leads to. -/
def linksOut (id : TypeId) : List (TypeId × LinkKind) :=
  match d.find? id with
  | none => []
  | some t => t.targets.filter fun link => (d.find? link.1).isSome

/-- The links to a descriptor, each with the handle it comes from. -/
def linksIn (id : TypeId) : List (TypeId × LinkKind) :=
  if (d.find? id).isSome then
    d.typeIds.flatMap fun source =>
      ((d.linksOut source).filter (·.1 = id)).map fun link => (source, link.2)
  else []

theorem mem_linksOut_iff {id : TypeId} {link : TypeId × LinkKind} :
    link ∈ d.linksOut id ↔
      (d.find? link.1).isSome ∧ ∃ t, d.find? id = some t ∧ link ∈ t.targets := by
  unfold linksOut
  split
  · next h => simp [h]
  · next t h => simp [h, and_comm]

theorem mem_linksIn_iff {id source : TypeId} {kind : LinkKind} :
    (source, kind) ∈ d.linksIn id ↔ (id, kind) ∈ d.linksOut source := by
  have hid : (id, kind) ∈ d.linksOut source → (d.find? id).isSome :=
    fun h => (d.mem_linksOut_iff.mp h).1
  have hsource : (id, kind) ∈ d.linksOut source → source ∈ d.typeIds := by
    intro h
    obtain ⟨-, t, ht, -⟩ := d.mem_linksOut_iff.mp h
    exact mem_typeIds.mpr (by simp [ht])
  unfold linksIn
  split
  · simp only [List.mem_flatMap, List.mem_map, List.mem_filter, decide_eq_true_eq]
    constructor
    · rintro ⟨s, -, ⟨target, k⟩, ⟨hlink, rfl⟩, he⟩
      obtain ⟨rfl, rfl⟩ := Prod.mk.inj he
      exact hlink
    · intro h
      exact ⟨source, hsource h, (id, kind), ⟨h, rfl⟩, rfl⟩
  · next hnot => exact ⟨fun h => absurd h (by simp), fun h => absurd (hid h) hnot⟩

def linkCount : Nat :=
  (d.typeIds.flatMap d.linksOut).length

/-- The entities directly below an entity. -/
def subtypes (e : EntityId) : List EntityId :=
  ((d.linksIn e.toType).filter (·.2 = .supertype)).map fun link => ⟨link.1⟩

/-- The descriptors that a descriptor is linked to. -/
def successors (id : TypeId) : List TypeId :=
  (d.linksOut id).map Prod.fst

end Dictionary

end ExpressModel
