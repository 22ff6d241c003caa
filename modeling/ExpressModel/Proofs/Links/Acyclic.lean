import ExpressModel.Proofs.Links.Reachability
import ExpressModel.Resolve.Path

/-! # Acyclic dictionaries

The cycles of a dictionary are read off a table of what lies beyond each descriptor.  Two
descriptors have the same cycle when each lies beyond the other, so a cycle that exists at all is
listed at its first member, and `checkAcyclic` succeeds exactly when no descriptor lies beyond
itself (`checkAcyclic_eq_ok_iff`).

In an acyclic dictionary every descriptor has a height, the number of descriptors beyond it.  A
link leads to a smaller height (`height_lt_of_linked`) and every height is below the number of
descriptors (`height_lt_typeCount`): the walks that count their steps are bounded by it. -/

namespace ExpressModel.Dictionary

open Relation (TransGen)

variable {d : Dictionary}

/-! ### Members of cycles -/

/-- The members of the cycle of a descriptor, as they stand in the table. -/
def onCycleWith (d : Dictionary) (id : TypeId) : List TypeId :=
  cycleMembers d.beyondTable id (d.beyond id)

theorem onCycleWith_eq (id : TypeId) :
    d.onCycleWith id =
      d.typeIds.filter fun x => decide (x ∈ d.beyond id) && decide (id ∈ d.beyond x) := by
  simp only [onCycleWith, cycleMembers, beyondTable, List.filter_map, List.map_map]
  exact List.map_id _

theorem mem_onCycleWith_iff {id x : TypeId} :
    x ∈ d.onCycleWith id ↔ TransGen d.Linked id x ∧ TransGen d.Linked x id := by
  rw [onCycleWith_eq, List.mem_filter, Bool.and_eq_true, decide_eq_true_eq, decide_eq_true_eq,
    mem_beyond_iff, mem_beyond_iff]
  constructor
  · exact And.right
  · intro h
    obtain ⟨y, hy, -⟩ := TransGen.head'_iff.mp h.2
    exact ⟨hy.source_mem_typeIds, h⟩

/-- Descriptors on a cycle with each other have the same cycle. -/
theorem onCycleWith_eq_of_mem {id x : TypeId} (h : x ∈ d.onCycleWith id) :
    d.onCycleWith x = d.onCycleWith id := by
  obtain ⟨hto, hfrom⟩ := mem_onCycleWith_iff.mp h
  rw [onCycleWith_eq, onCycleWith_eq]
  apply List.filter_congr
  intro y _
  simp only [Bool.and_eq_decide, decide_eq_true_eq, decide_eq_decide, mem_beyond_iff]
  constructor
  · rintro ⟨hxy, hyx⟩
    exact ⟨hto.trans hxy, hyx.trans hfrom⟩
  · rintro ⟨hxy, hyx⟩
    exact ⟨hfrom.trans hxy, hyx.trans hto⟩

theorem cycles_eq (d : Dictionary) :
    d.cycles = d.typeIds.filterMap fun id =>
      if (d.onCycleWith id).head? = some id then
        some ⟨d.onCycleWith id, (d.onCycleWith id).length == 1⟩
      else none :=
  List.filterMap_map ..

theorem mem_cycles_iff {c : Cycle} :
    c ∈ d.cycles ↔ ∃ id, (d.onCycleWith id).head? = some id ∧
      c = ⟨d.onCycleWith id, (d.onCycleWith id).length == 1⟩ := by
  rw [cycles_eq, List.mem_filterMap]
  constructor
  · rintro ⟨id, -, h⟩
    split at h
    · next hhead => exact ⟨id, hhead, (Option.some.inj h).symm⟩
    · simp at h
  · rintro ⟨id, hhead, rfl⟩
    have hmem := List.mem_of_mem_head? (Option.mem_def.mpr hhead)
    rw [onCycleWith_eq] at hmem
    exact ⟨id, (List.mem_filter.mp hmem).1, if_pos hhead⟩

/-! ### The check -/

theorem cycles_eq_nil_iff : d.cycles = [] ↔ ∀ id, ¬ TransGen d.Linked id id := by
  rw [List.eq_nil_iff_forall_not_mem]
  constructor
  · intro h id hloop
    have hid : id ∈ d.onCycleWith id := mem_onCycleWith_iff.mpr ⟨hloop, hloop⟩
    obtain ⟨m, hm⟩ := Option.ne_none_iff_exists'.mp
      (mt List.head?_eq_none_iff.mp (List.ne_nil_of_mem hid))
    have hsame := onCycleWith_eq_of_mem (List.mem_of_mem_head? (Option.mem_def.mpr hm))
    exact h _ (mem_cycles_iff.mpr ⟨m, by rw [hsame]; exact hm, rfl⟩)
  · intro h c hc
    obtain ⟨id, hhead, -⟩ := mem_cycles_iff.mp hc
    exact h id (mem_onCycleWith_iff.mp (List.mem_of_mem_head? (Option.mem_def.mpr hhead))).1

/-- The check succeeds exactly when no descriptor is linked back to itself. -/
theorem checkAcyclic_eq_ok_iff : d.checkAcyclic = .ok () ↔ ∀ id, ¬ TransGen d.Linked id id := by
  rw [← cycles_eq_nil_iff]
  unfold checkAcyclic
  split
  · next h => simp [h]
  · next h => simp [h]

/-! ### Heights -/

/-- The number of descriptors that lie beyond this one. -/
def height (d : Dictionary) (id : TypeId) : Nat :=
  d.typeIds.countP fun x => decide (x ∈ d.beyond id)

theorem length_typeIds (d : Dictionary) : d.typeIds.length = d.typeCount := by
  simp [typeIds]

theorem height_lt_of_linked (hac : d.checkAcyclic = .ok ()) {a b : TypeId} (h : d.Linked a b) :
    d.height b < d.height a := by
  refine countP_lt_countP ?_ h.mem_typeIds ?_ ?_
  · intro x hx
    rw [decide_eq_true_eq, mem_beyond_iff] at hx ⊢
    exact TransGen.head h hx
  · rw [decide_eq_true_eq, mem_beyond_iff]
    exact TransGen.single h
  · rw [decide_eq_false_iff_not, mem_beyond_iff]
    exact checkAcyclic_eq_ok_iff.mp hac b

theorem height_lt_typeCount (hac : d.checkAcyclic = .ok ()) {id : TypeId} {t : Descriptor}
    (h : d.find? id = some t) : d.height id < d.typeCount := by
  have hid : id ∈ d.typeIds := mem_typeIds.mpr (by rw [h]; rfl)
  have hlt : d.height id < d.typeIds.countP fun _ => true := by
    refine countP_lt_countP (fun _ _ => rfl) hid rfl ?_
    rw [decide_eq_false_iff_not, mem_beyond_iff]
    exact checkAcyclic_eq_ok_iff.mp hac id
  rwa [List.countP_true, length_typeIds] at hlt

end ExpressModel.Dictionary
