import Mathlib
import ExpressModel.Proofs.Declaration.Traversal
import ExpressModel.Proofs.Resolve.Tags

/-! # Composition of membership

An entity is a kind of every type that stands for an entity above it: the entity itself or an alias
of it (`StandsFor`).  Any other type is a kind of itself alone, an alias of an entity included: it
is unwrapped on the right of the question and not on the left.

In acyclic dictionaries whose links lead somewhere membership is a preorder all the same
(`KindOf.trans`), what a type may hold is closed under it (`MayHold.trans`), and no two entities are
kinds of each other (`KindOf.antisymm`); `membership_composes` states these together. -/

namespace ExpressModel.Dictionary

open Relation (ReflTransGen TransGen)
open Traversal (bind_eq_ok_iff map_eq_ok_iff)

variable {d : Dictionary} {x y z : TypeId}

/-- The one type is a kind of the other. -/
def KindOf (d : Dictionary) (this other : TypeId) : Prop :=
  ∃ a, d.isA? this other = .ok (some a)

def MayHold (d : Dictionary) (this other : TypeId) : Prop :=
  ∃ a, d.canBe? this other = .ok (some a)

/-- The type is the entity behind aliases. -/
def StandsFor (d : Dictionary) (id : TypeId) (e : EntityId) : Prop :=
  d.unaliased id = .ok e.toType ∧ (d.entity? e).isSome

/-! ### Entities -/

theorem standsFor_self {t : Descriptor} (hid : d.find? x = some t) (h : t.isEntity = true) :
    d.StandsFor x ⟨x⟩ := by
  have hkind : t.kind ≠ .reference := by
    rw [Descriptor.kind_eq_entity_iff.mpr h]
    decide
  have hentity : d.entity? ⟨x⟩ = some t := entity?_eq_some_iff.mpr ⟨hid, h⟩
  exact ⟨unaliased_of_kind_ne hid hkind, by rw [hentity]; rfl⟩

theorem StandsFor.eq_of_isEntity {t : Descriptor} {e : EntityId} (hid : d.find? x = some t)
    (h : t.isEntity = true) (hstands : d.StandsFor x e) : e = ⟨x⟩ := by
  have hself := (standsFor_self hid h).1
  rw [hstands.1] at hself
  cases e
  cases hself
  rfl

theorem entityId?_eq_some_iff {id : TypeId} {e : EntityId} :
    d.entityId? id = some e ↔ id = e.toType ∧ (d.entity? e).isSome := by
  unfold entityId?
  constructor
  · intro h
    obtain ⟨t, ht, rfl⟩ := Option.map_eq_some_iff.mp h
    exact ⟨rfl, by rw [ht]; rfl⟩
  · rintro ⟨rfl, hsome⟩
    obtain ⟨t, ht⟩ := Option.isSome_iff_exists.mp hsome
    exact Option.map_eq_some_iff.mpr ⟨t, ht, rfl⟩

theorem StandsFor.exists_find? {e : EntityId} (h : d.StandsFor x e) :
    ∃ t, d.find? x = some t := by
  obtain ⟨found, hfound, -⟩ := map_eq_ok_iff.mp h.1
  obtain ⟨t, ht, -⟩ := bind_eq_ok_iff.mp hfound
  exact ⟨t, require_eq_ok_iff.mp ht⟩

theorem KindOf.exists_find? (h : d.KindOf x y) : ∃ t, d.find? x = some t := by
  obtain ⟨a, ha⟩ := h
  obtain ⟨t, ht, -⟩ := bind_eq_ok_iff.mp ha
  exact ⟨t, require_eq_ok_iff.mp ht⟩

theorem standsFor_iff {target : TypeId} (htarget : d.unaliased y = .ok target) {e : EntityId} :
    d.StandsFor y e ↔ d.entityId? target = some e := by
  unfold StandsFor
  rw [htarget, Except.ok.injEq, entityId?_eq_some_iff]

/-- The search above an entity affirms what supertype links lead to. -/
theorem exists_entityIsA?_iff (hac : d.checkAcyclic = .ok ()) (hlinks : d.LinksResolve)
    {e : EntityId} (he : (d.entity? e).isSome) (f : EntityId) :
    (∃ a, (d.entityIsA? e f).map (·.map EntityId.toType) = .ok (some a)) ↔
      ReflTransGen d.HasSupertype e f := by
  obtain ⟨b, hb, hiff⟩ := isBelow_eq_ok hac hlinks f he (leadsTo_nil d e.toType)
  rw [← hiff]
  unfold entityIsA?
  rw [hb]
  cases b <;> simp [Except.map]

/-- An entity is a kind of the types that stand for an entity above it, and of no others. -/
theorem kindOf_iff_of_isEntity (hac : d.checkAcyclic = .ok ()) (hlinks : d.LinksResolve)
    {t : Descriptor} (hx : d.find? x = some t) (h : t.isEntity = true) :
    d.KindOf x y ↔ ∃ e, d.StandsFor y e ∧ ReflTransGen d.HasSupertype ⟨x⟩ e := by
  have hentity : d.entity? ⟨x⟩ = some t := entity?_eq_some_iff.mpr ⟨hx, h⟩
  unfold KindOf
  cases htarget : d.unaliased y with
  | error err =>
      have hrefused : d.isA? x y = .error err := by
        unfold isA?
        rw [require_eq_ok_iff.mpr hx]
        simp only [bind, Except.bind, if_pos h, htarget]
      simp [StandsFor, hrefused, htarget]
  | ok target =>
      simp only [isA?_of_isEntity hx h htarget, standsFor_iff htarget]
      cases hid : d.entityId? target with
      | none => simp
      | some e =>
          simp only [Option.some.injEq, exists_eq_left']
          exact exists_entityIsA?_iff hac hlinks (Option.isSome_iff_exists.mpr ⟨t, hentity⟩) e

theorem kindOf_iff_of_not_isEntity {t : Descriptor} (hx : d.find? x = some t)
    (h : ¬ t.isEntity = true) : d.KindOf x y ↔ x = y := by
  unfold KindOf
  rw [isA?_of_not_isEntity hx h]
  by_cases heq : x = y <;> simp [heq]

/-! ### Composition -/

theorem kindOf_refl (hx : (d.find? x).isSome) : d.KindOf x x := by
  obtain ⟨t, ht⟩ := Option.isSome_iff_exists.mp hx
  exact ⟨x, isA?_self ht⟩

theorem KindOf.trans (hac : d.checkAcyclic = .ok ()) (hlinks : d.LinksResolve)
    (hxy : d.KindOf x y) (hyz : d.KindOf y z) : d.KindOf x z := by
  obtain ⟨t, hx⟩ := hxy.exists_find?
  by_cases ht : t.isEntity = true
  · obtain ⟨u, hy⟩ := hyz.exists_find?
    by_cases hu : u.isEntity = true
    · obtain ⟨e, he, hxe⟩ := (kindOf_iff_of_isEntity hac hlinks hx ht).mp hxy
      obtain ⟨f, hf, hyf⟩ := (kindOf_iff_of_isEntity hac hlinks hy hu).mp hyz
      rw [he.eq_of_isEntity hy hu] at hxe
      exact (kindOf_iff_of_isEntity hac hlinks hx ht).mpr ⟨f, hf, hxe.trans hyf⟩
    · rw [kindOf_iff_of_not_isEntity hy hu] at hyz
      rwa [← hyz]
  · rw [kindOf_iff_of_not_isEntity hx ht] at hxy
    rwa [hxy]

theorem linked_of_hasSupertype (hlinks : d.LinksResolve) {e f : EntityId}
    (h : d.HasSupertype e f) : d.Linked e.toType f.toType := by
  obtain ⟨t, ht, hf⟩ := h
  have hsome := hlinks.supertype t (mem_descriptors_of_find? ht) f hf
  obtain ⟨u, hu⟩ := Option.isSome_iff_exists.mp hsome
  exact linked_of_mem_supertypes ht hf (by rw [(entity?_eq_some_iff.mp hu).1]; rfl)

theorem eq_of_reaches_of_reaches (hac : d.checkAcyclic = .ok ()) (hlinks : d.LinksResolve)
    {e f : EntityId} (hef : ReflTransGen d.HasSupertype e f)
    (hfe : ReflTransGen d.HasSupertype f e) : e = f := by
  rcases ReflTransGen.cases_head hef with heq | ⟨above, hstep, hrest⟩
  · exact heq
  · have hloop : TransGen d.HasSupertype e e := TransGen.head' hstep (hrest.trans hfe)
    have hlinked : TransGen d.Linked e.toType e.toType :=
      hloop.lift EntityId.toType fun _ _ h => linked_of_hasSupertype hlinks h
    exact absurd hlinked (checkAcyclic_eq_ok_iff.mp hac _)

theorem KindOf.antisymm (hac : d.checkAcyclic = .ok ()) (hlinks : d.LinksResolve)
    (hx : (d.entity? ⟨x⟩).isSome) (hy : (d.entity? ⟨y⟩).isSome) (hxy : d.KindOf x y)
    (hyx : d.KindOf y x) : x = y := by
  obtain ⟨t, ht⟩ := Option.isSome_iff_exists.mp hx
  obtain ⟨u, hu⟩ := Option.isSome_iff_exists.mp hy
  obtain ⟨hfindx, htentity⟩ := entity?_eq_some_iff.mp ht
  obtain ⟨hfindy, huentity⟩ := entity?_eq_some_iff.mp hu
  obtain ⟨e, he, hxe⟩ := (kindOf_iff_of_isEntity hac hlinks hfindx htentity).mp hxy
  obtain ⟨f, hf, hyf⟩ := (kindOf_iff_of_isEntity hac hlinks hfindy huentity).mp hyx
  rw [he.eq_of_isEntity hfindy huentity] at hxe
  rw [hf.eq_of_isEntity hfindx htentity] at hyf
  exact congrArg EntityId.toType (eq_of_reaches_of_reaches hac hlinks hxe hyf)

theorem KindOf.exists_find?_right (hac : d.checkAcyclic = .ok ()) (hlinks : d.LinksResolve)
    (h : d.KindOf x y) : ∃ t, d.find? y = some t := by
  obtain ⟨t, hx⟩ := h.exists_find?
  by_cases ht : t.isEntity = true
  · obtain ⟨e, he, -⟩ := (kindOf_iff_of_isEntity hac hlinks hx ht).mp h
    exact he.exists_find?
  · rw [kindOf_iff_of_not_isEntity hx ht] at h
    exact ⟨t, h ▸ hx⟩

theorem not_isEntity_of_select? {t : Descriptor} (h : t.select?.isSome) : ¬ t.isEntity = true := by
  rw [← Descriptor.kind_eq_entity_iff, Descriptor.kind_of_select? h]
  decide

/-- What a type may hold, it may hold as whatever that is a kind of. -/
theorem MayHold.trans (hac : d.checkAcyclic = .ok ()) (hlinks : d.LinksResolve)
    (hxy : d.MayHold x y) (hyz : d.KindOf y z) : d.MayHold x z := by
  obtain ⟨u, hy⟩ := hyz.exists_find?
  obtain ⟨v, hz⟩ := hyz.exists_find?_right hac hlinks
  obtain ⟨a, ha⟩ := hxy
  obtain ⟨t, ht, -⟩ := bind_eq_ok_iff.mp ((admitted?_eq ..).symm.trans ha)
  obtain ⟨last, w, hreach, hlast, haccepts⟩ := exists_accepts_of_admitted? hac hlinks
    (notRefused_holding hac hlinks hy) (require_eq_ok_iff.mp ht) ha
  refine exists_admitted?_of_reaches hac hlinks (notRefused_holding hac hlinks hz)
    (fun _ _ => rfl) hreach ?_
  cases haccepts with
  | leaf hsel b hb =>
      obtain ⟨c, hc⟩ := KindOf.trans hac hlinks ⟨b, hb⟩ hyz
      exact ⟨c, by rw [admitted?_of_not_select _ hlast hsel]; exact hc⟩
  | select hsel hself =>
      have heq : last = y := of_decide_eq_true hself
      rw [← heq, kindOf_iff_of_not_isEntity hlast (not_isEntity_of_select? hsel)] at hyz
      exact ⟨last, by rw [admitted?_of_select hac _ hlast hsel]; exact if_pos (decide_eq_true hyz)⟩
  | choice h => cases h

/-- Membership is a preorder, a partial order of the entities, and what a type may hold is closed
under it. -/
theorem membership_composes (hac : d.checkAcyclic = .ok ()) (hlinks : d.LinksResolve) :
    (∀ x, (d.find? x).isSome → d.KindOf x x) ∧
    (∀ x y z, d.KindOf x y → d.KindOf y z → d.KindOf x z) ∧
    (∀ x y z, d.MayHold x y → d.KindOf y z → d.MayHold x z) ∧
    ∀ x y, (d.entity? ⟨x⟩).isSome → (d.entity? ⟨y⟩).isSome → d.KindOf x y → d.KindOf y x →
      x = y := by
  refine ⟨?_, ?_, ?_, ?_⟩
  · intro x hx
    exact kindOf_refl hx
  · intro x y z hxy hyz
    exact hxy.trans hac hlinks hyz
  · intro x y z hxy hyz
    exact hxy.trans hac hlinks hyz
  · intro x y hx hy hxy hyx
    exact hxy.antisymm hac hlinks hx hy hyx

/-- An entity, one below it and one below that, an alias of the first, and a select type whose
choice is a select type of the last. -/
def lineage : Dictionary where
  config := {}
  descriptors := #[entityBelow "a" [], entityBelow "b" [⟨0⟩], entityBelow "c" [⟨1⟩],
    { name := "r", description := "a", referent? := some ⟨0⟩, body := .plain .reference },
    selectOf "p" [⟨2⟩], selectOf "q" [⟨4⟩]]
  schemas := #[]

theorem membership_composes_lineage :
    lineage.checkAcyclic = .ok () ∧ lineage.LinksResolve ∧ lineage.MayHold ⟨5⟩ ⟨1⟩ ∧
      lineage.KindOf ⟨1⟩ ⟨3⟩ ∧ lineage.MayHold ⟨5⟩ ⟨3⟩ ∧ ¬ lineage.KindOf ⟨0⟩ ⟨1⟩ := by
  have hac : lineage.checkAcyclic = .ok () := by cbv
  have hlinks : lineage.LinksResolve := by decide +kernel
  have hheld : lineage.MayHold ⟨5⟩ ⟨1⟩ := ⟨⟨4⟩, by cbv⟩
  have hkind : lineage.KindOf ⟨1⟩ ⟨3⟩ := ⟨⟨0⟩, by cbv⟩
  have hbelow : lineage.KindOf ⟨1⟩ ⟨0⟩ := ⟨⟨0⟩, by cbv⟩
  obtain ⟨-, -, hholds, hantisymm⟩ := membership_composes hac hlinks
  refine ⟨hac, hlinks, hheld, hkind, hholds _ _ _ hheld hkind, ?_⟩
  intro habove
  exact absurd (hantisymm ⟨0⟩ ⟨1⟩ rfl rfl habove hbelow) (by decide)

end ExpressModel.Dictionary
