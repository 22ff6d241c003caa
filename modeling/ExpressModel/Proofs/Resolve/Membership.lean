import Mathlib
import ExpressModel.Proofs.Resolve.Acyclic

/-! # Membership in acyclic dictionaries

Where the check of all links succeeds and every supertype is an entity, the search through
supertypes always answers, and its answer is whether supertype links lead from the one entity to
the other (`isBelow_eq_ok`).  The path that the search is inside of has no say in it, so the
induction is on the height of the entity.

Membership of all types follows: it is decided between any two types (`exists_isA?_eq_ok`), and
every type is a kind of itself (`isA?_self`). -/

namespace ExpressModel.Dictionary

open Relation (ReflTransGen)

variable {d : Dictionary}

/-! ### Links that lead somewhere -/

/-- Every supertype is an entity and every choice a type. -/
structure LinksResolve (d : Dictionary) : Prop where
  supertype : ∀ t ∈ d.descriptors, ∀ e ∈ t.supertypes, (d.entity? e).isSome
  choice : ∀ t ∈ d.descriptors, ∀ c ∈ t.choices, (d.find? c).isSome

theorem linksResolve_iff : d.LinksResolve ↔
    (∀ t ∈ d.descriptors, ∀ e ∈ t.supertypes, (d.entity? e).isSome) ∧
      ∀ t ∈ d.descriptors, ∀ c ∈ t.choices, (d.find? c).isSome :=
  ⟨fun h => ⟨h.supertype, h.choice⟩, fun h => ⟨h.1, h.2⟩⟩

instance : Decidable d.LinksResolve :=
  decidable_of_iff _ linksResolve_iff.symm

theorem mem_descriptors_of_find? {id : TypeId} {t : Descriptor} (h : d.find? id = some t) :
    t ∈ d.descriptors :=
  Array.mem_of_getElem? h

/-! ### Supertypes -/

/-- The other entity is a direct supertype of this one. -/
def HasSupertype (d : Dictionary) (this other : EntityId) : Prop :=
  ∃ t, d.find? this.toType = some t ∧ other ∈ t.supertypes

theorem entity?_eq_some_iff {e : EntityId} {t : Descriptor} :
    d.entity? e = some t ↔ d.find? e.toType = some t ∧ t.isEntity = true := by
  unfold entity?
  rw [Option.filter_eq_some_iff]

theorem exists_requireEntity_eq_ok {e : EntityId} (h : (d.entity? e).isSome) :
    ∃ t, d.requireEntity e = .ok t := by
  obtain ⟨t, ht⟩ := Option.isSome_iff_exists.mp h
  exact ⟨t, requireEntity_eq_ok_iff.mpr (entity?_eq_some_iff.mp ht)⟩

/-- What the search answers for every entity of a list, it answers for the list. -/
theorem isAnyBelow_eq_ok {other : EntityId} {path : List TypeId} {entities : List EntityId}
    {P : EntityId → Prop}
    (h : ∀ e ∈ entities, ∃ b, d.isBelow other path e = .ok b ∧ (b = true ↔ P e)) :
    ∃ b, d.isAnyBelow other path entities = .ok b ∧ (b = true ↔ ∃ e ∈ entities, P e) := by
  induction entities with
  | nil =>
      refine ⟨false, isAnyBelow_nil .., ?_⟩
      simp
  | cons this rest ih =>
      obtain ⟨below, hbelow, hiff⟩ := h this List.mem_cons_self
      obtain ⟨b, hb, hrest⟩ := ih fun e he => h e (List.mem_cons_of_mem _ he)
      refine ⟨below || b, ?_, ?_⟩
      · rw [isAnyBelow_cons, hbelow]
        cases below with
        | true => rfl
        | false => exact hb
      · rw [Bool.or_eq_true, hiff, hrest, List.exists_mem_cons_iff]

/-- The search finds the other entity exactly where supertype links lead to it. -/
theorem isBelow_eq_ok (hac : d.checkAcyclic = .ok ()) (hlinks : d.LinksResolve)
    (other : EntityId) {path : List TypeId} {this : EntityId}
    (hthis : (d.entity? this).isSome) (hlead : d.LeadsTo path this.toType) :
    ∃ b, d.isBelow other path this = .ok b ∧
      (b = true ↔ ReflTransGen d.HasSupertype this other) := by
  induction hn : d.height this.toType using Nat.strong_induction_on generalizing path this with
  | h n ih =>
      obtain ⟨t, ht⟩ := exists_requireEntity_eq_ok hthis
      have hfind := find?_of_requireEntity ht
      rw [isBelow_eq]
      by_cases heq : this = other
      · rw [if_pos heq]
        refine ⟨true, rfl, ?_⟩
        rw [heq]
        exact iff_of_true rfl ReflTransGen.refl
      · rw [if_neg heq, ht]
        simp only [bind, Except.bind, if_neg (hlead.not_mem hac hfind)]
        have habove : ∀ e ∈ t.supertypes, ∃ b,
            d.isBelow other (this.toType :: path) e = .ok b ∧
              (b = true ↔ ReflTransGen d.HasSupertype e other) := by
          intro e he
          have hsome := hlinks.supertype t (mem_descriptors_of_find? hfind) e he
          have hlinked := linked_of_mem_supertypes hfind he
          obtain ⟨u, hu⟩ := exists_requireEntity_eq_ok hsome
          have hfound : (d.find? e.toType).isSome := by
            rw [find?_of_requireEntity hu]
            rfl
          have hlt := height_lt_of_linked hac (hlinked hfound)
          exact ih _ (by omega) hsome (hlead.cons hfind hlinked) rfl
        obtain ⟨b, hb, hiff⟩ := isAnyBelow_eq_ok habove
        refine ⟨b, hb, ?_⟩
        rw [hiff, ReflTransGen.cases_head_iff]
        constructor
        · rintro ⟨e, he, hreach⟩
          exact Or.inr ⟨e, ⟨t, hfind, he⟩, hreach⟩
        · rintro (hsame | ⟨e, ⟨u, hu, he⟩, hreach⟩)
          · exact absurd hsame heq
          · rw [hfind] at hu
            cases hu
            exact ⟨e, he, hreach⟩

/-! ### All types -/

theorem exists_unalias_eq_ok (hac : d.checkAcyclic = .ok ()) {id : TypeId} {t : Descriptor}
    (hid : d.find? id = some t) : ∃ found, d.unalias id = .ok found :=
  exists_walkFrom_eq_ok hac _ hid

theorem exists_unaliased_eq_ok (hac : d.checkAcyclic = .ok ()) {id : TypeId} {t : Descriptor}
    (hid : d.find? id = some t) : ∃ target, d.unaliased id = .ok target := by
  obtain ⟨found, hfound⟩ := exists_unalias_eq_ok hac hid
  refine ⟨found.1, ?_⟩
  unfold unaliased
  rw [hfound]
  rfl

theorem unaliased_of_kind_ne {id : TypeId} {t : Descriptor} (hid : d.find? id = some t)
    (h : t.kind ≠ .reference) : d.unaliased id = .ok id := by
  unfold unaliased unalias walkFrom
  rw [require_eq_ok_iff.mpr hid]
  simp only [bind, Except.bind]
  rw [walk, if_pos (decide_eq_true h)]
  rfl

theorem entityId?_of_isEntity {id : TypeId} {t : Descriptor} (hid : d.find? id = some t)
    (h : t.isEntity = true) : d.entityId? id = some ⟨id⟩ := by
  have hentity : d.entity? ⟨id⟩ = some t := entity?_eq_some_iff.mpr ⟨hid, h⟩
  unfold entityId?
  rw [hentity]
  rfl

theorem isA?_of_isEntity {this other target : TypeId} {t : Descriptor}
    (hthis : d.find? this = some t) (h : t.isEntity = true)
    (htarget : d.unaliased other = .ok target) :
    d.isA? this other =
      match d.entityId? target with
      | some target => (d.entityIsA? ⟨this⟩ target).map (·.map EntityId.toType)
      | none => .ok none := by
  unfold isA?
  rw [require_eq_ok_iff.mpr hthis]
  simp only [bind, Except.bind, if_pos h, htarget, entityId?_of_isEntity hthis h]
  cases d.entityId? target with
  | none => rfl
  | some target => rfl

theorem isA?_of_not_isEntity {this : TypeId} {t : Descriptor} (hthis : d.find? this = some t)
    (h : ¬ t.isEntity = true) (other : TypeId) :
    d.isA? this other = .ok (if this = other then some other else none) := by
  unfold isA?
  rw [require_eq_ok_iff.mpr hthis]
  simp only [bind, Except.bind, if_neg h]
  rfl

/-- Whether a type is a kind of another is decided for any two. -/
theorem exists_isA?_eq_ok (hac : d.checkAcyclic = .ok ()) (hlinks : d.LinksResolve)
    {this other : TypeId} {t u : Descriptor} (hthis : d.find? this = some t)
    (hother : d.find? other = some u) : ∃ r, d.isA? this other = .ok r := by
  by_cases h : t.isEntity = true
  · obtain ⟨target, htarget⟩ := exists_unaliased_eq_ok hac hother
    rw [isA?_of_isEntity hthis h htarget]
    cases d.entityId? target with
    | none => exact ⟨none, rfl⟩
    | some target =>
        have hentity : d.entity? ⟨this⟩ = some t := entity?_eq_some_iff.mpr ⟨hthis, h⟩
        have hsome : (d.entity? ⟨this⟩).isSome := by
          rw [hentity]
          rfl
        obtain ⟨b, hb, -⟩ := isBelow_eq_ok hac hlinks target hsome (leadsTo_nil d _)
        unfold entityIsA?
        dsimp only
        rw [hb]
        exact ⟨_, rfl⟩
  · exact ⟨_, isA?_of_not_isEntity hthis h other⟩

theorem isA?_self {id : TypeId} {t : Descriptor} (hid : d.find? id = some t) :
    d.isA? id id = .ok (some id) := by
  by_cases h : t.isEntity = true
  · have hkind : t.kind ≠ .reference := by
      rw [Descriptor.kind_eq_entity_iff.mpr h]
      decide
    rw [isA?_of_isEntity hid h (unaliased_of_kind_ne hid hkind), entityId?_of_isEntity hid h]
    dsimp only
    unfold entityIsA?
    rw [isBelow_eq, if_pos rfl]
    rfl
  · rw [isA?_of_not_isEntity hid h, if_pos rfl]

end ExpressModel.Dictionary
