import Mathlib.Logic.Relation
import ExpressModel.Links.Cycles

/-! # Reachability along links

`reachable` takes every node from the remaining ones at most once, so it may seem to lose paths
through nodes it has taken.  It does not: what it collects is closed under steps that stay among
the remaining nodes (`reachable_closed`), hence it collects exactly the ends of paths among them
that start at a pending node (`mem_reachable_iff`).

For the links of a dictionary all nodes remain at first, and `mem_beyond_iff` says that `beyond`
is the transitive closure of the link relation `Linked`. -/

namespace ExpressModel

open Relation (ReflTransGen TransGen)

/-! ### The search -/

section search

variable {α : Type} [DecidableEq α] {next : α → List α}

/-- What is collected contains the pending nodes that remain and is closed under steps to nodes
that remain. -/
theorem reachable_closed (next : α → List α) (remaining pending : List α) :
    (∀ a ∈ pending, a ∈ remaining → a ∈ reachable next remaining pending) ∧
      ∀ a ∈ reachable next remaining pending, ∀ b ∈ next a, b ∈ remaining →
        b ∈ reachable next remaining pending := by
  fun_induction reachable next remaining pending with
  | case1 => simp
  | case2 remaining a pending ha ih =>
      obtain ⟨hpending, hclosed⟩ := ih
      have step : ∀ b, b ∈ remaining → b ∈ next a ++ pending →
          b ∈ a :: reachable next (remaining.erase a) (next a ++ pending) := by
        intro b hb hmem
        by_cases hba : b = a
        · rw [hba]; exact List.mem_cons_self
        · exact List.mem_cons_of_mem _ (hpending b hmem ((List.mem_erase_of_ne hba).mpr hb))
      constructor
      · intro b hb hrem
        rcases List.mem_cons.mp hb with rfl | hb
        · exact List.mem_cons_self
        · exact step b hrem (List.mem_append_right _ hb)
      · intro b hb c hc hrem
        rcases List.mem_cons.mp hb with rfl | hb
        · exact step c hrem (List.mem_append_left _ hc)
        · by_cases hca : c = a
          · rw [hca]; exact List.mem_cons_self
          · exact List.mem_cons_of_mem _
              (hclosed b hb c hc ((List.mem_erase_of_ne hca).mpr hrem))
  | case3 remaining a pending ha ih =>
      refine ⟨?_, ih.2⟩
      intro b hb hrem
      rcases List.mem_cons.mp hb with rfl | hb
      · exact absurd hrem ha
      · exact ih.1 b hb hrem

theorem exists_path_of_mem_reachable {remaining pending : List α} {b : α}
    (h : b ∈ reachable next remaining pending) :
    ∃ a ∈ pending, ReflTransGen (fun x y => y ∈ next x) a b := by
  fun_induction reachable next remaining pending with
  | case1 => simp at h
  | case2 remaining a pending ha ih =>
      rcases List.mem_cons.mp h with rfl | h
      · exact ⟨b, List.mem_cons_self, .refl⟩
      · obtain ⟨c, hc, hpath⟩ := ih h
        rcases List.mem_append.mp hc with hc | hc
        · exact ⟨a, List.mem_cons_self, .head hc hpath⟩
        · exact ⟨c, List.mem_cons_of_mem _ hc, hpath⟩
  | case3 remaining a pending ha ih =>
      obtain ⟨c, hc, hpath⟩ := ih h
      exact ⟨c, List.mem_cons_of_mem _ hc, hpath⟩

/-- When no step leaves the remaining nodes, the search collects all that paths from the pending
nodes lead to. -/
theorem mem_reachable_iff {remaining pending : List α} {b : α}
    (hpending : ∀ a ∈ pending, a ∈ remaining) (hnext : ∀ a, ∀ c ∈ next a, c ∈ remaining) :
    b ∈ reachable next remaining pending ↔
      ∃ a ∈ pending, ReflTransGen (fun x y => y ∈ next x) a b := by
  constructor
  · exact exists_path_of_mem_reachable
  · rintro ⟨a, ha, hpath⟩
    have hclosed := reachable_closed next remaining pending
    induction hpath with
    | refl => exact hclosed.1 a ha (hpending a ha)
    | tail _ hstep ih => exact hclosed.2 _ ih _ hstep (hnext _ _ hstep)

end search

/-! ### Links -/

namespace Dictionary

variable (d : Dictionary)

/-- A link leads from the one descriptor to the other. -/
def Linked (a b : TypeId) : Prop :=
  b ∈ d.successors a

variable {d}

theorem linked_iff {a b : TypeId} :
    d.Linked a b ↔
      (d.find? b).isSome ∧ ∃ t, d.find? a = some t ∧ ∃ kind, (b, kind) ∈ t.targets := by
  simp only [Linked, successors, List.mem_map, Prod.exists, exists_and_right, exists_eq_right]
  constructor
  · rintro ⟨kind, h⟩
    obtain ⟨hb, t, ht, hmem⟩ := d.mem_linksOut_iff.mp h
    exact ⟨hb, t, ht, kind, hmem⟩
  · rintro ⟨hb, t, ht, kind, hmem⟩
    exact ⟨kind, d.mem_linksOut_iff.mpr ⟨hb, t, ht, hmem⟩⟩

theorem Linked.mem_typeIds {a b : TypeId} (h : d.Linked a b) : b ∈ d.typeIds :=
  Dictionary.mem_typeIds.mpr (linked_iff.mp h).1

theorem Linked.source_mem_typeIds {a b : TypeId} (h : d.Linked a b) : a ∈ d.typeIds := by
  obtain ⟨-, t, ht, -⟩ := linked_iff.mp h
  exact Dictionary.mem_typeIds.mpr (by rw [ht]; rfl)

theorem linked_of_follow? {a b : TypeId} {t u : Descriptor} (ha : d.find? a = some t)
    (h : d.follow? t = some (b, u)) : d.Linked a b := by
  have hb := find?_of_follow? h
  simp only [follow?, Option.bind_eq_some_iff, Option.map_eq_some_iff, Prod.mk.injEq] at h
  obtain ⟨next, hnext, -, -, rfl, -⟩ := h
  refine linked_iff.mpr ⟨by rw [hb]; rfl, t, ha, .referent, ?_⟩
  simp [Descriptor.targets, hnext]

theorem linked_of_mem_supertypes {a : TypeId} {e : EntityId} {t : Descriptor}
    (ha : d.find? a = some t) (h : e ∈ t.supertypes) (he : (d.find? e.toType).isSome) :
    d.Linked a e.toType := by
  refine linked_iff.mpr ⟨he, t, ha, .supertype, ?_⟩
  simp only [Descriptor.targets, List.mem_append, List.mem_map, Prod.mk.injEq, and_true]
  exact Or.inl (Or.inr ⟨e, h, rfl⟩)

theorem linked_of_mem_choices {a c : TypeId} {t : Descriptor} (ha : d.find? a = some t)
    (h : c ∈ t.choices) (hc : (d.find? c).isSome) : d.Linked a c := by
  refine linked_iff.mpr ⟨hc, t, ha, .choice, ?_⟩
  simp only [Descriptor.targets, List.mem_append, List.mem_map, Prod.mk.injEq, and_true]
  exact Or.inr ⟨c, h, rfl⟩

/-- What lies beyond a descriptor is what one link or more lead to from it. -/
theorem mem_beyond_iff {a b : TypeId} : b ∈ d.beyond a ↔ TransGen d.Linked a b := by
  have hnext : ∀ x, ∀ y ∈ d.successors x, y ∈ d.typeIds := fun x y h => Linked.mem_typeIds h
  rw [beyond, mem_reachable_iff (hnext a) hnext]
  constructor
  · rintro ⟨c, hc, hpath⟩
    exact TransGen.head' hc hpath
  · intro h
    obtain ⟨c, hc, hpath⟩ := TransGen.head'_iff.mp h
    exact ⟨c, hc, hpath⟩

end Dictionary

end ExpressModel
