import Mathlib
import ExpressModel.Proofs.Links.Acyclic

/-! # Cycles and strongly connected components

The cycles of a dictionary are the strongly connected components of its links, those left out
that are a single descriptor without a link to itself.  `ExactCycles` says what that means for a
list of cycles: which descriptors are on one, which of them share one, and in what order members
and cycles come.

Cycles can be had from any list of the components (`StrongComponents`): every component with a
cycle is sorted by handle, and the cycles by their smallest members (`cyclesOf`).  However the
components are ordered, and the descriptors in them, the outcome is `cycles`
(`cyclesOf_eq_cycles`), and it is exact (`cycles_exact`). -/

namespace ExpressModel

open Relation (ReflTransGen TransGen)

/-- The cycle lists its descriptors by handle, so that the first is the smallest. -/
def Cycle.smallest (c : Cycle) : Nat :=
  c.members.head?.elim 0 TypeId.index

/-- Sorting a list by a key gives the list of the same elements whose keys ascend. -/
theorem mergeSort_eq_of_ascending {α : Type} {key : α → Nat} {l l' : List α} (hperm : l.Perm l')
    (hasc : l'.Pairwise fun a b => key a < key b) :
    l.mergeSort (fun a b => decide (key a ≤ key b)) = l' := by
  have hsorted : (l.mergeSort fun a b => decide (key a ≤ key b)).Pairwise
      fun a b => decide (key a ≤ key b) = true := by
    refine List.pairwise_mergeSort ?_ ?_ l
    · intro a b c hab hbc
      exact decide_eq_true (Nat.le_trans (of_decide_eq_true hab) (of_decide_eq_true hbc))
    · intro a b
      rw [Bool.or_eq_true, decide_eq_true_iff, decide_eq_true_iff]
      exact Nat.le_total _ _
  have hnodup : (l'.map key).Nodup := List.pairwise_map.mpr (hasc.imp Nat.ne_of_lt)
  refine List.Perm.eq_of_pairwise ?_ hsorted
    (hasc.imp fun hlt => decide_eq_true (Nat.le_of_lt hlt)) ((List.mergeSort_perm l _).trans hperm)
  intro a b ha hb hab hba
  have ha' := hperm.mem_iff.mp (List.mem_mergeSort.mp ha)
  have hkey := Nat.le_antisymm (of_decide_eq_true hab) (of_decide_eq_true hba)
  exact List.inj_on_of_nodup_map hnodup ha' hb hkey

namespace Dictionary

variable {d : Dictionary}

/-- Links lead from the descriptor back to itself. -/
def OnCycle (d : Dictionary) (id : TypeId) : Prop :=
  TransGen d.Linked id id

/-! ### Components -/

/-- The strongly connected components of the links: each descriptor is in one of them and in no
other, together with the descriptors that it leads to and that lead to it. -/
structure StrongComponents (d : Dictionary) (components : List (List TypeId)) : Prop where
  nonempty : ∀ component ∈ components, component ≠ []
  nodup : components.flatten.Nodup
  complete : ∀ id ∈ d.typeIds, id ∈ components.flatten
  mem_iff : ∀ component ∈ components, ∀ a ∈ component, ∀ b,
    b ∈ component ↔ ReflTransGen d.Linked a b ∧ ReflTransGen d.Linked b a

/-- The cycle that a component is: none for a descriptor on its own that is not linked to
itself. -/
def cycleOf? (d : Dictionary) : List TypeId → Option Cycle
  | [id] => if id ∈ d.successors id then some ⟨[id], true⟩ else none
  | component => some ⟨component.mergeSort fun a b => decide (a.index ≤ b.index), false⟩

theorem cycleOf?_singleton (d : Dictionary) (id : TypeId) :
    d.cycleOf? [id] = if id ∈ d.successors id then some ⟨[id], true⟩ else none := rfl

theorem cycleOf?_cons_cons (d : Dictionary) (a b : TypeId) (rest : List TypeId) :
    d.cycleOf? (a :: b :: rest) =
      some ⟨(a :: b :: rest).mergeSort fun a b => decide (a.index ≤ b.index), false⟩ := rfl

/-- The cycles among the components, by their smallest members. -/
def cyclesOf (d : Dictionary) (components : List (List TypeId)) : List Cycle :=
  (components.filterMap d.cycleOf?).mergeSort fun c c' => decide (c.smallest ≤ c'.smallest)

/-! ### The cycle of a descriptor -/

/-- The cycle of a descriptor, as it is listed. -/
def cycleWith (d : Dictionary) (id : TypeId) : Cycle :=
  ⟨d.onCycleWith id, (d.onCycleWith id).length == 1⟩

theorem typeIds_ascending (d : Dictionary) : d.typeIds.Pairwise fun a b => a.index < b.index :=
  List.pairwise_map.mpr List.pairwise_lt_range

theorem onCycleWith_ascending (id : TypeId) :
    (d.onCycleWith id).Pairwise fun a b => a.index < b.index := by
  rw [onCycleWith_eq]
  exact d.typeIds_ascending.filter _

theorem nodup_of_ascending {l : List TypeId} (h : l.Pairwise fun a b => a.index < b.index) :
    l.Nodup := by
  refine h.imp ?_
  rintro a _ hlt rfl
  exact Nat.lt_irrefl _ hlt

theorem OnCycle.mem_typeIds {id : TypeId} (h : d.OnCycle id) : id ∈ d.typeIds := by
  obtain ⟨_, hlink, -⟩ := TransGen.head'_iff.mp h
  exact hlink.source_mem_typeIds

theorem OnCycle.of_mem {id x : TypeId} (h : x ∈ d.onCycleWith id) : d.OnCycle x := by
  obtain ⟨hto, hfrom⟩ := mem_onCycleWith_iff.mp h
  exact hfrom.trans hto

theorem OnCycle.mem_onCycleWith {id : TypeId} (h : d.OnCycle id) : id ∈ d.onCycleWith id :=
  mem_onCycleWith_iff.mpr ⟨h, h⟩

theorem cycleWith_eq_of_mem {id x : TypeId} (h : x ∈ d.onCycleWith id) :
    d.cycleWith x = d.cycleWith id := by
  unfold cycleWith
  rw [onCycleWith_eq_of_mem h]

/-- The cycle of a descriptor has a smallest member, which has the same cycle. -/
theorem OnCycle.exists_smallest {id : TypeId} (h : d.OnCycle id) :
    ∃ m rest, d.onCycleWith id = m :: rest ∧ d.onCycleWith m = d.onCycleWith id := by
  cases hm : d.onCycleWith id with
  | nil => exact absurd (hm ▸ h.mem_onCycleWith) List.not_mem_nil
  | cons m rest =>
      refine ⟨m, rest, rfl, ?_⟩
      rw [onCycleWith_eq_of_mem (hm ▸ List.mem_cons_self : m ∈ d.onCycleWith id), hm]

/-- The list of cycles has the cycle of every descriptor that is on one, and no other. -/
theorem mem_cycles_iff_onCycle {c : Cycle} :
    c ∈ d.cycles ↔ ∃ id, d.OnCycle id ∧ c = d.cycleWith id := by
  rw [mem_cycles_iff]
  constructor
  · rintro ⟨id, hhead, rfl⟩
    exact ⟨id, .of_mem (List.mem_of_mem_head? (Option.mem_def.mpr hhead)), rfl⟩
  · rintro ⟨id, hid, rfl⟩
    obtain ⟨m, rest, hm, hsame⟩ := hid.exists_smallest
    refine ⟨m, ?_, ?_⟩
    · rw [hsame, hm]
      rfl
    · rw [hsame]
      rfl

theorem smallest_of_members {c : Cycle} {m : TypeId} {rest : List TypeId}
    (h : c.members = m :: rest) : c.smallest = m.index := by
  unfold Cycle.smallest
  rw [h]
  rfl

theorem cycles_ascending (d : Dictionary) :
    d.cycles.Pairwise fun c c' => c.smallest < c'.smallest := by
  rw [cycles_eq, List.pairwise_filterMap]
  refine d.typeIds_ascending.imp ?_
  intro a b hlt c hc c' hc'
  have hfirst : ∀ {id : TypeId} {c : Cycle},
      (if (d.onCycleWith id).head? = some id then some (d.cycleWith id) else none) = some c →
        c.smallest = id.index := by
    intro id c hc
    split at hc
    · next hhead =>
      cases hc
      unfold Cycle.smallest cycleWith
      dsimp only
      rw [hhead]
      rfl
    · cases hc
  rw [hfirst hc, hfirst hc']
  exact hlt

theorem eq_of_mem_members {c c' : Cycle} {id : TypeId} (hc : c ∈ d.cycles) (hc' : c' ∈ d.cycles)
    (h : id ∈ c.members) (h' : id ∈ c'.members) : c = c' := by
  obtain ⟨a, -, rfl⟩ := mem_cycles_iff_onCycle.mp hc
  obtain ⟨b, -, rfl⟩ := mem_cycles_iff_onCycle.mp hc'
  rw [← cycleWith_eq_of_mem h, ← cycleWith_eq_of_mem h']

/-! ### Components as cycles -/

namespace StrongComponents

variable {components : List (List TypeId)} {component : List TypeId} {a b : TypeId}

theorem nodup_component (h : d.StrongComponents components) (hc : component ∈ components) :
    component.Nodup :=
  (List.nodup_flatten.mp h.nodup).1 component hc

/-- A component with a second descriptor is a cycle through every descriptor in it. -/
theorem onCycle_of_ne (h : d.StrongComponents components) (hc : component ∈ components)
    (ha : a ∈ component) (hb : b ∈ component) (hne : b ≠ a) : d.OnCycle a := by
  obtain ⟨hto, hfrom⟩ := (h.mem_iff component hc a ha b).mp hb
  exact ((Relation.reflTransGen_iff_eq_or_transGen.mp hto).resolve_left hne).trans_left hfrom

/-- A component that is one descriptor is a cycle when the descriptor is linked to itself. -/
theorem onCycle_iff_of_singleton (h : d.StrongComponents components) (hc : [a] ∈ components) :
    d.OnCycle a ↔ d.Linked a a := by
  constructor
  · intro hloop
    obtain ⟨b, hlink, hback⟩ := TransGen.head'_iff.mp hloop
    have hb : b ∈ [a] := (h.mem_iff _ hc a (List.mem_singleton_self a) b).mpr ⟨.single hlink, hback⟩
    rwa [List.mem_singleton.mp hb] at hlink
  · exact .single

theorem mem_iff_mem_onCycleWith (h : d.StrongComponents components) (hc : component ∈ components)
    (ha : a ∈ component) (hloop : d.OnCycle a) : b ∈ component ↔ b ∈ d.onCycleWith a := by
  rw [h.mem_iff component hc a ha b, mem_onCycleWith_iff]
  constructor
  · rintro ⟨hto, hfrom⟩
    exact ⟨hloop.trans_left hto, hloop.trans_right hfrom⟩
  · rintro ⟨hto, hfrom⟩
    exact ⟨hto.to_reflTransGen, hfrom.to_reflTransGen⟩

/-- A component, sorted by handle, is the cycle of each descriptor in it. -/
theorem mergeSort_eq (h : d.StrongComponents components) (hc : component ∈ components)
    (ha : a ∈ component) (hloop : d.OnCycle a) :
    component.mergeSort (fun a b => decide (a.index ≤ b.index)) = d.onCycleWith a := by
  have hperm : component.Perm (d.onCycleWith a) :=
    (List.perm_ext_iff_of_nodup (h.nodup_component hc)
      (nodup_of_ascending (onCycleWith_ascending a))).mpr
        fun _ => h.mem_iff_mem_onCycleWith hc ha hloop
  exact mergeSort_eq_of_ascending hperm (onCycleWith_ascending a)

/-- What a component is made into: the cycle of its descriptors, if they have one. -/
theorem cycleOf?_eq_some_iff (h : d.StrongComponents components) (hc : component ∈ components)
    (ha : a ∈ component) {c : Cycle} :
    d.cycleOf? component = some c ↔ d.OnCycle a ∧ c = d.cycleWith a := by
  rcases component with _ | ⟨b, _ | ⟨b', rest⟩⟩
  · exact absurd rfl (h.nonempty _ hc)
  · obtain rfl := List.mem_singleton.mp ha
    have hiff : d.OnCycle a ↔ a ∈ d.successors a := h.onCycle_iff_of_singleton hc
    rw [cycleOf?_singleton, hiff]
    by_cases hself : a ∈ d.successors a
    · have hsingle := h.mergeSort_eq hc ha (hiff.mpr hself)
      rw [List.mergeSort_singleton] at hsingle
      unfold cycleWith
      rw [if_pos hself, ← hsingle, Option.some.injEq, eq_comm]
      exact (and_iff_right hself).symm
    · rw [if_neg hself]
      exact ⟨fun hnone => (nomatch hnone), fun hself' => absurd hself'.1 hself⟩
  · have hne : b ≠ b' := by
      rintro rfl
      exact (List.nodup_cons.mp (h.nodup_component hc)).1 List.mem_cons_self
    have hloop : d.OnCycle a := by
      by_cases hab : a = b
      · refine h.onCycle_of_ne hc ha (List.mem_cons_of_mem b List.mem_cons_self) ?_
        rw [hab]
        exact hne.symm
      · exact h.onCycle_of_ne hc ha List.mem_cons_self (fun hba => hab hba.symm)
    have hsort := h.mergeSort_eq hc ha hloop
    have hlength : (d.onCycleWith a).length ≠ 1 := by
      rw [← hsort, List.length_mergeSort]
      simp
    unfold cycleWith
    rw [cycleOf?_cons_cons, hsort, Option.some.injEq, eq_comm, beq_false_of_ne hlength]
    exact (and_iff_right hloop).symm

theorem mem_filterMap_cycleOf?_iff (h : d.StrongComponents components) {c : Cycle} :
    c ∈ components.filterMap d.cycleOf? ↔ c ∈ d.cycles := by
  rw [List.mem_filterMap, mem_cycles_iff_onCycle]
  constructor
  · rintro ⟨component, hc, hsome⟩
    obtain ⟨a, ha⟩ := List.exists_mem_of_ne_nil component (h.nonempty component hc)
    exact ⟨a, (h.cycleOf?_eq_some_iff hc ha).mp hsome⟩
  · rintro ⟨a, hloop, rfl⟩
    obtain ⟨component, hc, ha⟩ := List.mem_flatten.mp (h.complete a hloop.mem_typeIds)
    exact ⟨component, hc, (h.cycleOf?_eq_some_iff hc ha).mpr ⟨hloop, rfl⟩⟩

theorem nodup_filterMap_cycleOf? (h : d.StrongComponents components) :
    (components.filterMap d.cycleOf?).Nodup := by
  refine List.pairwise_filterMap.mpr ?_
  refine (List.nodup_flatten.mp h.nodup).2.imp_of_mem ?_
  rintro component component' hc hc' hdisjoint c hsome _ hsome' rfl
  obtain ⟨a, ha⟩ := List.exists_mem_of_ne_nil component (h.nonempty component hc)
  obtain ⟨b, hb⟩ := List.exists_mem_of_ne_nil component' (h.nonempty component' hc')
  obtain ⟨hloop, hca⟩ := (h.cycleOf?_eq_some_iff hc ha).mp hsome
  obtain ⟨hloop', hcb⟩ := (h.cycleOf?_eq_some_iff hc' hb).mp hsome'
  have hmem : a ∈ d.onCycleWith b := by
    have hsame : d.onCycleWith a = d.onCycleWith b := congrArg Cycle.members (hca.symm.trans hcb)
    rw [← hsame]
    exact hloop.mem_onCycleWith
  exact hdisjoint ha ((h.mem_iff_mem_onCycleWith hc' hb hloop').mpr hmem)

/-- The cycles among the components are the cycles, in whatever order the components come. -/
theorem cyclesOf_eq_cycles (h : d.StrongComponents components) :
    d.cyclesOf components = d.cycles := by
  have hnodup : d.cycles.Nodup := by
    refine d.cycles_ascending.imp ?_
    rintro c _ hlt rfl
    exact Nat.lt_irrefl _ hlt
  have hperm : (components.filterMap d.cycleOf?).Perm d.cycles :=
    (List.perm_ext_iff_of_nodup h.nodup_filterMap_cycleOf? hnodup).mpr
      fun _ => h.mem_filterMap_cycleOf?_iff
  exact mergeSort_eq_of_ascending hperm d.cycles_ascending

end StrongComponents

/-! ### Exactness -/

/-- The list has the cycles of the links: what is on one, what is on the same one, and all of it
once and in order. -/
structure ExactCycles (d : Dictionary) (cycles : List Cycle) : Prop where
  /-- The members are the descriptors that links lead back to. -/
  mem_iff : ∀ id, (∃ c ∈ cycles, id ∈ c.members) ↔ TransGen d.Linked id id
  /-- Members of one cycle lead to each other, and such members are of one cycle. -/
  same_iff : ∀ a b, TransGen d.Linked a a → TransGen d.Linked b b →
    ((∃ c ∈ cycles, a ∈ c.members ∧ b ∈ c.members) ↔
      a = b ∨ TransGen d.Linked a b ∧ TransGen d.Linked b a)
  /-- No descriptor is a member twice. -/
  nodup : (cycles.flatMap Cycle.members).Nodup
  /-- Members are listed by handle, so that the first is the smallest. -/
  ascending : ∀ c ∈ cycles, c.members ≠ [] ∧ c.members.Pairwise fun a b => a.index < b.index
  /-- Cycles are listed by their smallest members. -/
  ordered : cycles.Pairwise fun c c' =>
    ∃ a b, c.members.head? = some a ∧ c'.members.head? = some b ∧ a.index < b.index
  isSelfReferential_iff : ∀ c ∈ cycles, c.isSelfReferential = true ↔ c.members.length = 1

theorem exactCycles_cycles (d : Dictionary) : d.ExactCycles d.cycles := by
  have hmembers : ∀ c ∈ d.cycles, ∃ m rest, c.members = m :: rest := by
    intro c hc
    obtain ⟨id, hid, rfl⟩ := mem_cycles_iff_onCycle.mp hc
    obtain ⟨m, rest, hm, -⟩ := hid.exists_smallest
    exact ⟨m, rest, hm⟩
  refine ⟨?_, ?_, ?_, ?_, ?_, ?_⟩
  · intro id
    constructor
    · rintro ⟨c, hc, hmem⟩
      obtain ⟨x, -, rfl⟩ := mem_cycles_iff_onCycle.mp hc
      exact OnCycle.of_mem hmem
    · intro hid
      exact ⟨_, mem_cycles_iff_onCycle.mpr ⟨id, hid, rfl⟩, OnCycle.mem_onCycleWith hid⟩
  · intro a b ha hb
    constructor
    · rintro ⟨c, hc, hmem, hmem'⟩
      obtain ⟨x, -, rfl⟩ := mem_cycles_iff_onCycle.mp hc
      obtain ⟨hto, hfrom⟩ := mem_onCycleWith_iff.mp hmem
      obtain ⟨hto', hfrom'⟩ := mem_onCycleWith_iff.mp hmem'
      exact .inr ⟨hfrom.trans hto', hfrom'.trans hto⟩
    · intro h
      refine ⟨_, mem_cycles_iff_onCycle.mpr ⟨a, ha, rfl⟩, OnCycle.mem_onCycleWith ha, ?_⟩
      rcases h with rfl | ⟨hto, hfrom⟩
      · exact OnCycle.mem_onCycleWith ha
      · exact mem_onCycleWith_iff.mpr ⟨hto, hfrom⟩
  · refine List.nodup_flatMap.mpr ⟨?_, ?_⟩
    · intro c hc
      obtain ⟨x, -, rfl⟩ := mem_cycles_iff_onCycle.mp hc
      exact nodup_of_ascending (onCycleWith_ascending x)
    · refine d.cycles_ascending.imp_of_mem ?_
      intro c c' hc hc' hlt id hmem hmem'
      rw [eq_of_mem_members hc hc' hmem hmem'] at hlt
      exact Nat.lt_irrefl _ hlt
  · intro c hc
    obtain ⟨m, rest, hm⟩ := hmembers c hc
    refine ⟨by rw [hm]; exact List.cons_ne_nil m rest, ?_⟩
    obtain ⟨x, -, rfl⟩ := mem_cycles_iff_onCycle.mp hc
    exact onCycleWith_ascending x
  · refine d.cycles_ascending.imp_of_mem ?_
    intro c c' hc hc' hlt
    obtain ⟨m, rest, hm⟩ := hmembers c hc
    obtain ⟨m', rest', hm'⟩ := hmembers c' hc'
    rw [smallest_of_members hm, smallest_of_members hm'] at hlt
    exact ⟨m, m', by rw [hm]; rfl, by rw [hm']; rfl, hlt⟩
  · intro c hc
    obtain ⟨x, -, rfl⟩ := mem_cycles_iff_onCycle.mp hc
    exact beq_iff_eq

/-! ### The check -/

/-- The descriptors of a list of handles, all of which denote something. -/
theorem exists_forall₂_find? {ids : List TypeId} (h : ∀ id ∈ ids, id ∈ d.typeIds) :
    ∃ ts, List.Forall₂ (fun id t => d.find? id = some t) ids ts := by
  induction ids with
  | nil => exact ⟨[], .nil⟩
  | cons id ids ih =>
      obtain ⟨t, ht⟩ := Option.isSome_iff_exists.mp (mem_typeIds.mp (h id List.mem_cons_self))
      obtain ⟨ts, hts⟩ := ih fun x hx => h x (List.mem_cons_of_mem id hx)
      exact ⟨t :: ts, .cons ht hts⟩

theorem map_name_of_forall₂ {ids : List TypeId} {ts : List Descriptor}
    (h : List.Forall₂ (fun id t => d.find? id = some t) ids ts) :
    ids.map (fun id => (d.find? id).elim id.display Descriptor.name) = ts.map Descriptor.name := by
  induction h with
  | nil => rfl
  | cons ht _ ih =>
      rw [List.map_cons, List.map_cons, ih, ht]
      rfl

/-- The check names the descriptors on the first cycle. -/
theorem checkAcyclic_eq_error {c : Cycle} {rest : List Cycle} (h : d.cycles = c :: rest)
    {ts : List Descriptor} (hts : List.Forall₂ (fun id t => d.find? id = some t) c.members ts) :
    d.checkAcyclic =
      .error (.cyclicTypeGraph (String.intercalate ", " (ts.map Descriptor.name))) := by
  unfold checkAcyclic
  rw [h]
  dsimp only
  rw [map_name_of_forall₂ hts]

/-- Of the descriptors on cycles, if there are any, one has the smallest handle. -/
theorem exists_smallest_onCycle (h : ∃ id, d.OnCycle id) :
    ∃ m, d.OnCycle m ∧ ∀ id, d.OnCycle id → m.index ≤ id.index := by
  obtain ⟨m, hm, hleast⟩ := (measure TypeId.index).wf.has_min {id | d.OnCycle id} h
  exact ⟨m, hm, fun id hid => Nat.le_of_not_lt (hleast id hid)⟩

/-- The first cycle is that of the smallest descriptor that is on one. -/
theorem cycles_eq_cons_of_smallest {m : TypeId} (hm : d.OnCycle m)
    (hleast : ∀ id, d.OnCycle id → m.index ≤ id.index) :
    ∃ rest, d.cycles = d.cycleWith m :: rest := by
  have hmem : d.cycleWith m ∈ d.cycles := mem_cycles_iff_onCycle.mpr ⟨m, hm, rfl⟩
  obtain ⟨x, tail, hx, -⟩ := hm.exists_smallest
  have hle : (d.cycleWith m).smallest ≤ m.index := by
    rw [smallest_of_members hx]
    have hpair := onCycleWith_ascending (d := d) m
    have hself := hm.mem_onCycleWith
    rw [hx] at hpair hself
    rcases List.mem_cons.mp hself with hmx | htail
    · exact Nat.le_of_eq (congrArg TypeId.index hmx.symm)
    · exact Nat.le_of_lt (List.rel_of_pairwise_cons hpair htail)
  cases hcycles : d.cycles with
  | nil => exact absurd (hcycles ▸ hmem) List.not_mem_nil
  | cons c rest =>
      have hc : c ∈ d.cycles := hcycles ▸ List.mem_cons_self
      obtain ⟨y, hy, rfl⟩ := mem_cycles_iff_onCycle.mp hc
      obtain ⟨z, tail', hz, -⟩ := hy.exists_smallest
      have hfirst : m.index ≤ (d.cycleWith y).smallest := by
        rw [smallest_of_members hz]
        exact hleast z (.of_mem (hz ▸ List.mem_cons_self : z ∈ d.onCycleWith y))
      have hmem' := hmem
      have hpair := d.cycles_ascending
      rw [hcycles] at hmem' hpair
      rcases List.mem_cons.mp hmem' with hsame | hlater
      · exact ⟨rest, by rw [hsame]⟩
      · have hlt := List.rel_of_pairwise_cons hpair hlater
        omega

/-- The cycles of a dictionary are exact, and they are those of any list of its strongly connected
components.  The check of the links succeeds when no descriptor leads to itself; otherwise it
names the members, by handle, of the cycle of the smallest descriptor that is on one. -/
theorem cycles_exact (d : Dictionary) :
    d.ExactCycles d.cycles ∧
      (∀ components, d.StrongComponents components → d.cyclesOf components = d.cycles) ∧
      (d.checkAcyclic = .ok () ↔ ∀ id, ¬ TransGen d.Linked id id) ∧
      ((∃ id, TransGen d.Linked id id) → ∃ m, TransGen d.Linked m m ∧
        (∀ id, TransGen d.Linked id id → m.index ≤ id.index) ∧
        ∃ c ∈ d.cycles, m ∈ c.members ∧
          ∃ ts, List.Forall₂ (fun id t => d.find? id = some t) c.members ts ∧
            d.checkAcyclic =
              .error (.cyclicTypeGraph (String.intercalate ", " (ts.map Descriptor.name)))) := by
  refine ⟨d.exactCycles_cycles, fun _ h => h.cyclesOf_eq_cycles, checkAcyclic_eq_ok_iff, ?_⟩
  intro hexists
  obtain ⟨m, hm, hleast⟩ := exists_smallest_onCycle hexists
  obtain ⟨rest, hcycles⟩ := cycles_eq_cons_of_smallest hm hleast
  have hmembers : ∀ id ∈ (d.cycleWith m).members, id ∈ d.typeIds := by
    intro id hid
    exact OnCycle.mem_typeIds (.of_mem hid)
  obtain ⟨ts, hts⟩ := exists_forall₂_find? hmembers
  refine ⟨m, hm, hleast, d.cycleWith m, ?_, OnCycle.mem_onCycleWith hm, ts, hts,
    checkAcyclic_eq_error hcycles hts⟩
  rw [hcycles]
  exact List.mem_cons_self

/-- Components by what lies beyond the descriptors, of which the links show no more than the
handles that there are. -/
theorem strongComponents_of_beyond {components : List (List TypeId)}
    (hnonempty : ∀ component ∈ components, component ≠ [])
    (hperm : components.flatten.Perm d.typeIds)
    (hmem : ∀ component ∈ components, ∀ a ∈ component, ∀ b ∈ d.typeIds,
      (b ∈ component ↔ b = a ∨ b ∈ d.beyond a ∧ a ∈ d.beyond b)) :
    d.StrongComponents components := by
  have hnodup := nodup_of_ascending d.typeIds_ascending
  refine ⟨hnonempty, hperm.nodup_iff.mpr hnodup, fun id hid => hperm.mem_iff.mpr hid, ?_⟩
  intro component hc a ha b
  have haIds : a ∈ d.typeIds := hperm.mem_iff.mp (List.mem_flatten.mpr ⟨component, hc, ha⟩)
  have hiff : ReflTransGen d.Linked a b ∧ ReflTransGen d.Linked b a ↔
      b = a ∨ b ∈ d.beyond a ∧ a ∈ d.beyond b := by
    rw [mem_beyond_iff, mem_beyond_iff, Relation.reflTransGen_iff_eq_or_transGen,
      Relation.reflTransGen_iff_eq_or_transGen]
    by_cases hba : b = a
    · simp [hba]
    · simp [hba, Ne.symm hba]
  rw [hiff]
  constructor
  · intro hb
    exact (hmem component hc a ha b
      (hperm.mem_iff.mp (List.mem_flatten.mpr ⟨component, hc, hb⟩))).mp hb
  · intro hb
    have hbIds : b ∈ d.typeIds := by
      rcases hb with rfl | ⟨-, hback⟩
      · exact haIds
      · obtain ⟨_, hlink, -⟩ := TransGen.head'_iff.mp (mem_beyond_iff.mp hback)
        exact hlink.source_mem_typeIds
    exact (hmem component hc a ha b hbIds).mpr hb

/-- Two entities below each other, one of them twice and the other below itself as well, a select
type among its own choices, and an alias of nothing. -/
def loops : Dictionary where
  config := {}
  descriptors := #[
    .entity "a" { EntityBody.ofOptions {} with
      supertypes := (Registry.empty.append ⟨⟨2⟩⟩).append ⟨⟨0⟩⟩ },
    { name := "s", description := "SELECT (s)"
      body := .select { choices := Registry.empty.append ⟨1⟩ } },
    .entity "b" { EntityBody.ofOptions {} with
      supertypes := (Registry.empty.append ⟨⟨0⟩⟩).append ⟨⟨0⟩⟩ },
    { name := "t", description := "t", referent? := some ⟨9⟩, body := .plain .reference }]
  schemas := #[]

theorem strongComponents_loops : loops.StrongComponents [[⟨3⟩], [⟨2⟩, ⟨0⟩], [⟨1⟩]] := by
  refine strongComponents_of_beyond (by decide) (by decide) ?_
  exact of_decide_eq_true (by cbv)

theorem cycles_exact_loops :
    loops.StrongComponents [[⟨3⟩], [⟨2⟩, ⟨0⟩], [⟨1⟩]] ∧
      loops.cyclesOf [[⟨3⟩], [⟨2⟩, ⟨0⟩], [⟨1⟩]] = [⟨[⟨0⟩, ⟨2⟩], false⟩, ⟨[⟨1⟩], true⟩] ∧
      (∃ id, TransGen loops.Linked id id) ∧
      ∃ c ∈ loops.cycles,
        ∃ ts, List.Forall₂ (fun id t => loops.find? id = some t) c.members ts ∧
          loops.checkAcyclic =
            .error (.cyclicTypeGraph (String.intercalate ", " (ts.map Descriptor.name))) := by
  obtain ⟨-, heq, -, herror⟩ := cycles_exact loops
  have hcycles : loops.cycles = [⟨[⟨0⟩, ⟨2⟩], false⟩, ⟨[⟨1⟩], true⟩] := by cbv
  have hloop : ∃ id, TransGen loops.Linked id id :=
    ⟨⟨0⟩, mem_beyond_iff.mp (of_decide_eq_true (by cbv))⟩
  obtain ⟨m, -, -, c, hc, -, hnames⟩ := herror hloop
  exact ⟨strongComponents_loops, (heq _ strongComponents_loops).trans hcycles, hloop, c, hc,
    hnames⟩

end Dictionary

end ExpressModel
