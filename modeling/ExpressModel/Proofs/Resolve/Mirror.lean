import ExpressModel.Proofs.Resolve.Chain
import ExpressModel.Proofs.Resolve.Query

/-! # Dictionaries that mirror each other

One dictionary mirrors another when every descriptor of the first is there in the second under the
same handle, with the same contents but perhaps another referent, and when the referents of the two
lead to the same descriptor or to none (`Mirrors`).  The second may hold more descriptors, provided
that no link of the first leads to one of them.

Then every question about handles of the first is answered alike by both (`Mirrors.ask`).  Only
the texts of types in full are left to a condition of their own, since they may show more of a
referent than where it leads.

How far refusals are to agree is left open: results agree up to what a function `p` tells of an
error (`Agree`), be it all of it or only its kind. -/

namespace ExpressModel

/-! ### Agreement of results -/

/-- Results that agree: related values, or errors that are the same as far as `p` tells. -/
inductive Agree {κ α β : Type} (p : Error → κ) (R : α → β → Prop) :
    Except Error α → Except Error β → Prop
  | ok {a : α} {b : β} (h : R a b) : Agree p R (.ok a) (.ok b)
  | error {e e' : Error} (h : p e = p e') : Agree p R (.error e) (.error e')

namespace Agree

variable {κ α β γ δ : Type} {p : Error → κ} {R : α → β → Prop} {S : γ → δ → Prop}
  {r : Except Error α} {r' : Except Error β}

theorem refl (r : Except Error α) : Agree p Eq r r := by
  cases r with
  | ok a => exact .ok rfl
  | error e => exact .error rfl

theorem mono {T : α → β → Prop} (h : Agree p R r r') (hRT : ∀ a b, R a b → T a b) :
    Agree p T r r' := by
  cases h with
  | ok hab => exact .ok (hRT _ _ hab)
  | error he => exact .error he

theorem bind {f : α → Except Error γ} {g : β → Except Error δ} (h : Agree p R r r')
    (hfg : ∀ a b, R a b → Agree p S (f a) (g b)) : Agree p S (r >>= f) (r' >>= g) := by
  cases h with
  | ok hab => exact hfg _ _ hab
  | error he => exact .error he

theorem map {f : α → γ} {g : β → δ} (h : Agree p R r r') (hfg : ∀ a b, R a b → S (f a) (g b)) :
    Agree p S (r.map f) (r'.map g) := by
  cases h with
  | ok hab => exact .ok (hfg _ _ hab)
  | error he => exact .error he

theorem map_same {r r' : Except Error α} (h : Agree p Eq r r') (f : α → γ) :
    Agree p Eq (r.map f) (r'.map f) := by
  refine h.map ?_
  rintro a _ rfl
  rfl

theorem map_eq {f : α → γ} {g : β → γ} (h : Agree p R r r') (hfg : ∀ a b, R a b → f a = g b) :
    Agree p Eq (r.map f) (r'.map g) :=
  h.map hfg

/-- A result may be replaced by one that is the same as far as `p` tells. -/
theorem congr_left {s : Except Error α} (h : Agree p R r r') (hs : r.mapError p = s.mapError p) :
    Agree p R s r' := by
  cases h with
  | ok hab =>
      cases s with
      | ok a =>
          cases hs
          exact .ok hab
      | error e => cases hs
  | error he =>
      cases s with
      | ok a => cases hs
      | error e => exact .error ((Except.error.inj hs).symm.trans he)

theorem mapError_eq {r r' : Except Error α} (h : Agree p Eq r r') :
    r'.mapError p = r.mapError p := by
  cases h with
  | ok hab => rw [hab]
  | error he => exact congrArg Except.error he.symm

theorem eq {r r' : Except Error α} (h : Agree id Eq r r') : r' = r := by
  cases h with
  | ok hab => rw [hab]
  | error he => exact congrArg Except.error he.symm

end Agree

/-! ### Mirrors -/

/-- The same descriptor with the same or another referent. -/
def Descriptor.Twin (t u : Descriptor) : Prop :=
  ∃ referent?, u = { t with referent? }

theorem Descriptor.Twin.refl (t : Descriptor) : t.Twin t :=
  ⟨t.referent?, rfl⟩

section referent

variable (t : Descriptor) (referent? : Option TypeId)

theorem Descriptor.kind_withReferent :
    ({ t with referent? } : Descriptor).kind = t.kind := rfl

theorem Descriptor.isEntity_withReferent :
    ({ t with referent? } : Descriptor).isEntity = t.isEntity := rfl

theorem Descriptor.select?_withReferent :
    ({ t with referent? } : Descriptor).select? = t.select? := rfl

end referent

/-- Is it a type whose segment opens like a declaration when its referent is set? -/
def Descriptor.opensIfLinked (t : Descriptor) : Bool :=
  match t.kind with
  | .integer | .real | .number | .string | .binary | .boolean | .logical => true
  | _ => false

/-- The segment of any other type shows nothing of its referent. -/
theorem Descriptor.segment_of_not_opens {t : Descriptor} (h : t.opensIfLinked = false)
    (referent? : Option TypeId) : ({ t with referent? } : Descriptor).segment = t.segment := by
  unfold opensIfLinked at h
  unfold segment
  rw [t.kind_withReferent referent?]
  cases hk : t.kind <;> first
    | rfl
    | simp [hk] at h

/-- What such a segment says behind its opening is said of every referent. -/
theorem Descriptor.exists_segment_of_opens {t : Descriptor} (h : t.opensIfLinked = true) :
    ∃ text, ∀ referent?, ({ t with referent? } : Descriptor).segment =
      ({ t with referent? } : Descriptor).openingIfLinked ++ text := by
  unfold opensIfLinked at h
  unfold segment
  simp only [t.kind_withReferent]
  cases hk : t.kind <;> first
    | exact ⟨_, fun _ => rfl⟩
    | simp [hk] at h

theorem Descriptor.not_opensIfLinked_of_continues {t : Descriptor} (h : t.continues = true) :
    t.opensIfLinked = false := by
  unfold continues at h
  unfold opensIfLinked
  cases hk : t.kind <;> first
    | rfl
    | simp [hk, PrimitiveKind.isAggregate] at h

namespace Dictionary

/-- A handle that denotes a descriptor in the one dictionary, or nothing in the other. -/
def Settled (d d' : Dictionary) (id : TypeId) : Prop :=
  d.find? id = none → d'.find? id = none

/-- The same handle with what it denotes in the two dictionaries. -/
structure Paired (d d' : Dictionary) (x x' : TypeId × Descriptor) : Prop where
  id : x'.1 = x.1
  find? : d.find? x.1 = some x.2
  find?' : d'.find? x.1 = some x'.2

/-- Every descriptor of the one dictionary is there in the other, its referent leads to the same
descriptor or to none, and its links lead to no descriptor that only the other has.  The number of
steps of the other's walks makes no difference to those of the one that `p` could tell. -/
structure Mirrors {κ : Type} (p : Error → κ) (d d' : Dictionary) : Prop where
  found : ∀ {id t}, d.find? id = some t → ∃ u, d'.find? id = some u ∧ t.Twin u
  followed : ∀ {id t u}, d.find? id = some t → d'.find? id = some u →
    (d'.follow? u).map Prod.fst = (d.follow? t).map Prod.fst
  settled : ∀ {id t}, d.find? id = some t → ∀ link ∈ t.targets, d.Settled d' link.1
  bound : ∀ stop {x : TypeId × Descriptor}, d.find? x.1 = some x.2 →
    (d.walk stop (d'.typeCount + 1) x).mapError p = (d.walk stop (d.typeCount + 1) x).mapError p

section mirrors

variable {κ : Type} {p : Error → κ} {d d' : Dictionary} {id : TypeId}

theorem settled_of_find? {t : Descriptor} (h : d.find? id = some t) : d.Settled d' id := by
  intro hnone
  rw [h] at hnone
  cases hnone

theorem Mirrors.twin (h : Mirrors p d d') {id id' : TypeId} {t u : Descriptor}
    (hx : d.Paired d' (id, t) (id', u)) : t.Twin u := by
  obtain ⟨v, hv, htwin⟩ := h.found hx.find?
  have hu : d'.find? id = some u := hx.find?'
  rw [hu] at hv
  cases hv
  exact htwin

theorem Mirrors.find? (h : Mirrors p d d') (hid : d.Settled d' id) :
    (d.find? id = none ∧ d'.find? id = none) ∨
      ∃ t u, d.find? id = some t ∧ d'.find? id = some u ∧ t.Twin u := by
  cases ht : d.find? id with
  | none => exact .inl ⟨rfl, hid ht⟩
  | some t =>
      obtain ⟨u, hu, htwin⟩ := h.found ht
      exact .inr ⟨t, u, rfl, hu, htwin⟩

theorem Mirrors.require (h : Mirrors p d d') (hid : d.Settled d' id) :
    Agree p (fun t u => d.Paired d' (id, t) (id, u)) (d.require id) (d'.require id) := by
  unfold Dictionary.require
  rcases h.find? hid with ⟨ht, hu⟩ | ⟨t, u, ht, hu, -⟩
  · rw [ht, hu]
    exact .error rfl
  · rw [ht, hu]
    exact .ok ⟨rfl, ht, hu⟩

theorem Mirrors.requireEntity (h : Mirrors p d d') {e : EntityId} (he : d.Settled d' e.toType) :
    Agree p (fun t u => d.Paired d' (e.toType, t) (e.toType, u)) (d.requireEntity e)
      (d'.requireEntity e) := by
  rw [requireEntity_eq, requireEntity_eq]
  refine (h.require he).bind ?_
  intro t u hx
  obtain ⟨referent?, rfl⟩ := h.twin hx
  rw [t.isEntity_withReferent referent?]
  split
  · exact .ok hx
  · exact .error rfl

theorem Mirrors.entityId? (h : Mirrors p d d') (hid : d.Settled d' id) :
    d'.entityId? id = d.entityId? id := by
  unfold Dictionary.entityId? entity?
  rcases h.find? hid with ⟨ht, hu⟩ | ⟨t, _, ht, hu, referent?, rfl⟩
  · rw [ht, hu]
  · rw [ht, hu]
    rw [Option.filter_some, Option.filter_some, t.isEntity_withReferent referent?]
    cases t.isEntity <;> rfl

theorem Mirrors.settled_supertypes (h : Mirrors p d d') {t : Descriptor}
    (hid : d.find? id = some t) {e : EntityId} (he : e ∈ t.supertypes) :
    d.Settled d' e.toType := by
  refine h.settled hid (e.toType, .supertype) ?_
  exact List.mem_append_left _ (List.mem_append_right _ (List.mem_map_of_mem he))

theorem Mirrors.settled_choices (h : Mirrors p d d') {t : Descriptor} (hid : d.find? id = some t)
    {c : TypeId} (hc : c ∈ t.choices) : d.Settled d' c :=
  h.settled hid (c, .choice) (List.mem_append_right _ (List.mem_map_of_mem hc))

/-! ### Walks -/

theorem Mirrors.follow? (h : Mirrors p d d') {x x' : TypeId × Descriptor}
    (hx : d.Paired d' x x') :
    (d.follow? x.2 = none ∧ d'.follow? x'.2 = none) ∨
      ∃ y y', d.follow? x.2 = some y ∧ d'.follow? x'.2 = some y' ∧ d.Paired d' y y' := by
  have hsame := h.followed hx.find? hx.find?'
  cases hy : d.follow? x.2 with
  | none =>
      rw [hy, Option.map_none, Option.map_eq_none_iff] at hsame
      exact .inl ⟨rfl, hsame⟩
  | some y =>
      rw [hy, Option.map_some] at hsame
      obtain ⟨y', hy', hid⟩ := Option.map_eq_some_iff.mp hsame
      refine .inr ⟨y, y', rfl, hy', hid, find?_of_follow? hy, ?_⟩
      rw [← hid]
      exact find?_of_follow? hy'

/-- A condition that does not look at the referent. -/
def SparesReferent (stop : Descriptor → Bool) : Prop :=
  ∀ t referent?, stop { t with referent? } = stop t

variable {stop : Descriptor → Bool}

theorem Mirrors.next? (h : Mirrors p d d') (hstop : SparesReferent stop)
    {x x' : TypeId × Descriptor} (hx : d.Paired d' x x') :
    (d.next? stop x.2 = none ∧ d'.next? stop x'.2 = none) ∨
      ∃ y y', d.next? stop x.2 = some y ∧ d'.next? stop x'.2 = some y' ∧ d.Paired d' y y' := by
  have hsame : stop x'.2 = stop x.2 := by
    obtain ⟨referent?, htwin⟩ := h.twin hx
    rw [htwin]
    exact hstop x.2 referent?
  unfold Dictionary.next?
  rw [hsame]
  split
  · exact .inl ⟨rfl, rfl⟩
  · exact h.follow? hx

theorem Mirrors.walk (h : Mirrors p d d') (hstop : SparesReferent stop) (bound : Nat)
    {x x' : TypeId × Descriptor} (hx : d.Paired d' x x') :
    Agree p (d.Paired d') (d.walk stop bound x) (d'.walk stop bound x') := by
  induction bound generalizing x x' with
  | zero =>
      obtain ⟨id, t⟩ := x
      obtain ⟨id', u⟩ := x'
      obtain ⟨referent?, rfl⟩ := h.twin hx
      exact .error rfl
  | succ bound ih =>
      rw [walk_succ, walk_succ]
      rcases h.next? hstop hx with ⟨hnone, hnone'⟩ | ⟨y, y', hy, hy', hpaired⟩
      · rw [hnone, hnone']
        exact .ok hx
      · rw [hy, hy']
        exact ih hpaired

theorem Mirrors.walkFrom (h : Mirrors p d d') (hstop : SparesReferent stop)
    (hid : d.Settled d' id) :
    Agree p (d.Paired d') (d.walkFrom stop id) (d'.walkFrom stop id) := by
  refine (h.require hid).bind ?_
  intro t u hx
  exact (h.walk hstop (d'.typeCount + 1) hx).congr_left (h.bound stop hx.find?)

/-! ### Aliases, bases and collections -/

/-- The same handle, settled. -/
def SameId (d d' : Dictionary) (id id' : TypeId) : Prop :=
  id = id' ∧ d.Settled d' id

theorem Paired.sameId {x x' : TypeId × Descriptor} (hx : d.Paired d' x x') :
    d.SameId d' x.1 x'.1 :=
  ⟨hx.id.symm, settled_of_find? hx.find?⟩

theorem Mirrors.fundamentalKind (h : Mirrors p d d') {x x' : TypeId × Descriptor}
    (hx : d.Paired d' x x') : x.2.fundamentalKind = x'.2.fundamentalKind := by
  obtain ⟨referent?, hu⟩ := h.twin hx
  rw [hu]
  rfl

theorem Mirrors.unalias (h : Mirrors p d d') (hid : d.Settled d' id) :
    Agree p (d.Paired d') (d.unalias id) (d'.unalias id) :=
  h.walkFrom (fun _ _ => rfl) hid

theorem Mirrors.unaliased (h : Mirrors p d d') (hid : d.Settled d' id) :
    Agree p (d.SameId d') (d.unaliased id) (d'.unaliased id) :=
  (h.unalias hid).map fun _ _ hx => hx.sameId

theorem Mirrors.unaliasedKind (h : Mirrors p d d') (hid : d.Settled d' id) :
    Agree p Eq (d.unaliasedKind id) (d'.unaliasedKind id) :=
  (h.unalias hid).map_eq fun _ _ hx => h.fundamentalKind hx

theorem Mirrors.chainEnd (h : Mirrors p d d') (hid : d.Settled d' id) :
    Agree p (d.Paired d') (d.chainEnd id) (d'.chainEnd id) :=
  h.walkFrom (fun _ _ => rfl) hid

theorem Mirrors.base (h : Mirrors p d d') (hid : d.Settled d' id) :
    Agree p Eq (d.base id) (d'.base id) :=
  (h.chainEnd hid).map_eq fun _ _ hx => hx.id.symm

theorem Mirrors.baseKind (h : Mirrors p d d') (hid : d.Settled d' id) :
    Agree p Eq (d.baseKind id) (d'.baseKind id) :=
  (h.chainEnd hid).map_eq fun _ _ hx => h.fundamentalKind hx

theorem Mirrors.isAggregate (h : Mirrors p d d') (hid : d.Settled d' id) :
    Agree p Eq (d.isAggregate id) (d'.isAggregate id) :=
  (h.unaliasedKind hid).map_same _

theorem Mirrors.element? (h : Mirrors p d d') (hid : d.Settled d' id) :
    Agree p (Option.Rel (d.SameId d')) (d.element? id) (d'.element? id) := by
  refine (h.unalias hid).bind ?_
  rintro ⟨found, t⟩ ⟨found', u⟩ hx
  have hkind : u.kind = t.kind := by
    obtain ⟨referent?, rfl⟩ := h.twin hx
    exact t.kind_withReferent referent?
  dsimp only
  rw [hkind]
  split
  · rcases h.follow? hx with ⟨hnone, hnone'⟩ | ⟨⟨y, v⟩, ⟨y', v'⟩, hy, hy', hpaired⟩
    · rw [show d.follow? t = none from hnone, show d'.follow? u = none from hnone']
      exact .ok .none
    · rw [show d.follow? t = some (y, v) from hy, show d'.follow? u = some (y', v') from hy']
      have hsame : y' = y := hpaired.id
      rw [hsame]
      exact (h.unaliased hpaired.sameId.2).map fun _ _ hfound => .some hfound
  · exact .ok .none

theorem Mirrors.element?_same (h : Mirrors p d d') (hid : d.Settled d' id) :
    Agree p Eq (d.element? id) (d'.element? id) := by
  refine (h.element? hid).mono ?_
  intro o o' hsame
  cases hsame with
  | none => rfl
  | some hsame => rw [hsame.1]

theorem Mirrors.elementKind (h : Mirrors p d d') (hid : d.Settled d' id) :
    Agree p Eq (d.elementKind id) (d'.elementKind id) := by
  refine (h.element? hid).bind ?_
  intro o o' hsame
  cases hsame with
  | none => exact .refl _
  | @some element _ hsame =>
      obtain ⟨rfl, hsettled⟩ := hsame
      refine (h.require hsettled).map_eq ?_
      intro t u hx
      obtain ⟨referent?, rfl⟩ := h.twin hx
      rfl

theorem Mirrors.isANamed? (h : Mirrors p d d') (hid : d.Settled d' id) (name : String) :
    Agree p Eq (d.isANamed? id name) (d'.isANamed? id name) := by
  refine (h.walkFrom (fun _ _ => rfl) hid).map_eq ?_
  rintro ⟨found, t⟩ ⟨found', u⟩ hx
  obtain ⟨referent?, rfl⟩ := h.twin hx
  have hfound : found' = found := hx.id
  rw [hfound]
  rfl

/-! ### Membership -/

/-- Where the searches agree for every entity of a list, they agree for the list. -/
theorem agree_isAnyBelow {other : EntityId} {path : List TypeId} {entities : List EntityId}
    (h : ∀ e ∈ entities, Agree p Eq (d.isBelow other path e) (d'.isBelow other path e)) :
    Agree p Eq (d.isAnyBelow other path entities) (d'.isAnyBelow other path entities) := by
  induction entities with
  | nil =>
      rw [isAnyBelow_nil, isAnyBelow_nil]
      exact .refl _
  | cons this rest ih =>
      rw [isAnyBelow_cons, isAnyBelow_cons]
      refine (h this List.mem_cons_self).bind ?_
      rintro below _ rfl
      cases below with
      | true => exact .refl _
      | false => exact ih fun e he => h e (List.mem_cons_of_mem _ he)

/-- The search through supertypes goes the same way in both. -/
theorem Mirrors.isBelow (h : Mirrors p d d') (other : EntityId) {path : List TypeId}
    {this : EntityId} (hthis : d.Settled d' this.toType) :
    Agree p Eq (d.isBelow other path this) (d'.isBelow other path this) := by
  induction hn : d.offPath path using Nat.strongRecOn generalizing path this with
  | ind n ih =>
      rw [isBelow_eq, isBelow_eq]
      split
      · exact .refl _
      · refine (h.requireEntity hthis).bind ?_
        intro t u hx
        obtain ⟨referent?, rfl⟩ := h.twin hx
        split
        · exact .error rfl
        · next hpath =>
          have hlt : d.offPath (this.toType :: path) < d.offPath path :=
            offPath_cons_lt hx.find? hpath
          refine agree_isAnyBelow ?_
          intro e he
          exact ih _ (by omega) (h.settled_supertypes hx.find? he) rfl

theorem Mirrors.entityIsA? (h : Mirrors p d d') {this : EntityId}
    (hthis : d.Settled d' this.toType) (other : EntityId) :
    Agree p Eq (d.entityIsA? this other) (d'.entityIsA? this other) :=
  (h.isBelow other hthis).map_same _

theorem Mirrors.isA? (h : Mirrors p d d') {this other : TypeId} (hthis : d.Settled d' this)
    (hother : d.Settled d' other) : Agree p Eq (d.isA? this other) (d'.isA? this other) := by
  refine (h.require hthis).bind ?_
  intro t u hx
  obtain ⟨referent?, rfl⟩ := h.twin hx
  rw [t.isEntity_withReferent referent?]
  split
  · refine (h.unaliased hother).bind ?_
    rintro target _ ⟨rfl, htarget⟩
    rw [h.entityId? hthis, h.entityId? htarget]
    cases hthis' : d.entityId? this with
    | none => exact .refl _
    | some e =>
        cases d.entityId? target with
        | none => exact .refl _
        | some target =>
            have he : e.toType = this := by
              obtain ⟨v, -, rfl⟩ := Option.map_eq_some_iff.mp hthis'
              rfl
            have hsettled : d.Settled d' e.toType := by
              rw [he]
              exact hthis
            exact (h.entityIsA? hsettled target).map_same _
  · exact .refl _

/-! ### Selection -/

/-- Questions that two dictionaries ask alike of the same types. -/
structure AskedAlike (p : Error → κ) (d d' : Dictionary) (q q' : Selection) : Prop where
  ofLeaf : ∀ {id t u}, d.Paired d' (id, t) (id, u) → Agree p Eq (q.ofLeaf id t) (q'.ofLeaf id u)
  ofSelect : ∀ {id t u}, d.Paired d' (id, t) (id, u) → q'.ofSelect id u = q.ofSelect id t
  ofChoice : ∀ {id t u}, d.Paired d' (id, t) (id, u) →
    Agree p Eq (q.ofChoice id t) (q'.ofChoice id u)

variable {q q' : Selection}

/-- Where the searches agree for every choice of a list, they agree for the list. -/
theorem Mirrors.firstAdmitting? (h : Mirrors p d d') (hq : AskedAlike p d d' q q')
    {path choices : List TypeId} (hall : ∀ c ∈ choices, d.Settled d' c ∧
      Agree p Eq (d.admitted? q path c) (d'.admitted? q' path c)) :
    Agree p Eq (d.firstAdmitting? q path choices) (d'.firstAdmitting? q' path choices) := by
  induction choices with
  | nil =>
      rw [firstAdmitting?_nil, firstAdmitting?_nil]
      exact .refl _
  | cons choice rest ih =>
      obtain ⟨hchoice, hadmitted⟩ := hall choice List.mem_cons_self
      have hrest := ih fun c hc => hall c (List.mem_cons_of_mem _ hc)
      rw [firstAdmitting?_cons, firstAdmitting?_cons]
      refine (h.require hchoice).bind ?_
      intro t u hx
      refine (hq.ofChoice hx).bind ?_
      rintro answer _ rfl
      match answer with
      | some true => exact .refl _
      | some false => exact hrest
      | none =>
          refine hadmitted.bind ?_
          rintro found _ rfl
          cases found with
          | none => exact hrest
          | some found => exact .refl _

/-- The search through choices goes the same way in both. -/
theorem Mirrors.admitted? (h : Mirrors p d d') (hq : AskedAlike p d d' q q') {path : List TypeId}
    {this : TypeId} (hthis : d.Settled d' this) :
    Agree p Eq (d.admitted? q path this) (d'.admitted? q' path this) := by
  induction hn : d.offPath path using Nat.strongRecOn generalizing path this with
  | ind n ih =>
      rw [admitted?_eq, admitted?_eq]
      refine (h.require hthis).bind ?_
      intro t u hx
      have hofLeaf := hq.ofLeaf hx
      have hofSelect := hq.ofSelect hx
      obtain ⟨referent?, rfl⟩ := h.twin hx
      rw [t.select?_withReferent referent?]
      cases t.select? with
      | none => exact hofLeaf
      | some body =>
          dsimp only
          rw [hofSelect]
          split
          · exact .refl _
          · split
            · exact .error rfl
            · next hpath =>
              have hlt : d.offPath (this :: path) < d.offPath path :=
                offPath_cons_lt hx.find? hpath
              refine h.firstAdmitting? hq ?_
              intro c hc
              have hsettled := h.settled_choices hx.find? hc
              exact ⟨hsettled, ih _ (by omega) hsettled rfl⟩

theorem Mirrors.canBe? (h : Mirrors p d d') {this other : TypeId} (hthis : d.Settled d' this)
    (hother : d.Settled d' other) : Agree p Eq (d.canBe? this other) (d'.canBe? this other) := by
  refine h.admitted? ⟨?_, ?_, ?_⟩ hthis
  · intro id t u hx
    exact h.isA? (settled_of_find? hx.find?) hother
  · intro id t u _
    rfl
  · intro id t u _
    exact .refl _

theorem Mirrors.canBeNamed? (h : Mirrors p d d') {this : TypeId} (hthis : d.Settled d' this)
    (name : String) : Agree p Eq (d.canBeNamed? this name) (d'.canBeNamed? this name) := by
  refine h.admitted? ⟨?_, ?_, ?_⟩ hthis
  · intro id t u hx
    exact h.isANamed? (settled_of_find? hx.find?) name
  · intro id t u hx
    obtain ⟨referent?, rfl⟩ := h.twin hx
    rfl
  · intro id t u _
    exact .refl _

theorem Mirrors.canBeSet? (h : Mirrors p d d') {this : TypeId} (hthis : d.Settled d' this)
    (name : String) (schema? : Option String) :
    Agree p Eq (d.canBeSet? this name schema?) (d'.canBeSet? this name schema?) := by
  refine h.admitted? ⟨?_, ?_, ?_⟩ hthis
  · intro id t u hx
    obtain ⟨referent?, rfl⟩ := h.twin hx
    exact .refl _
  · intro id t u _
    rfl
  · intro id t u hx
    obtain ⟨referent?, rfl⟩ := h.twin hx
    dsimp only [taggedBy]
    rw [t.kind_withReferent referent?]
    split
    · exact (h.unaliasedKind (settled_of_find? hx.find?)).map_same _
    · exact .refl _

/-! ### Descriptions -/

theorem continues_of_next? {t : Descriptor} {y : TypeId × Descriptor}
    (h : d.next? endsText t = some y) : t.continues = true := by
  unfold Dictionary.next? endsText at h
  cases hc : t.continues with
  | true => rfl
  | false => simp [hc] at h

theorem describe_of_last {t : Descriptor} (h : d.next? endsText t = none) (budget : Nat) :
    d.describe budget t = .ok ("" ++ t.segment) := by
  rw [describe_of_none (continuation?_of_none h), String.empty_append]

/-- Only the last segment of a description may show more of a referent than where it leads. -/
theorem Mirrors.describe (h : Mirrors p d d') (budget : Nat) {x x' : TypeId × Descriptor}
    (hx : d.Paired d' x x') :
    (∃ err, d.describe budget x.2 = .error err ∧ d'.describe budget x'.2 = .error err) ∨
      ∃ n y y' lead, d.Ends endsText n x y ∧ d.Paired d' y y' ∧
        d.describe budget x.2 = .ok (lead ++ y.2.segment) ∧
        d'.describe budget x'.2 = .ok (lead ++ y'.2.segment) := by
  have hstop : SparesReferent endsText := fun _ _ => rfl
  induction budget generalizing x x' with
  | zero =>
      rcases h.next? hstop hx with ⟨hnone, hnone'⟩ | ⟨y, y', hy, hy', -⟩
      · exact .inr ⟨0, x, x', "", .here hnone, hx, describe_of_last hnone 0,
          describe_of_last hnone' 0⟩
      · obtain ⟨id, t⟩ := x
        obtain ⟨id', u⟩ := x'
        obtain ⟨referent?, rfl⟩ := h.twin hx
        exact .inl ⟨t.cyclic, describe_zero_of_some (continuation?_of_some hy),
          describe_zero_of_some (continuation?_of_some hy')⟩
  | succ budget ih =>
      rcases h.next? hstop hx with ⟨hnone, hnone'⟩ | ⟨y, y', hy, hy', hpaired⟩
      · exact .inr ⟨0, x, x', "", .here hnone, hx, describe_of_last hnone _,
          describe_of_last hnone' _⟩
      · rw [describe_succ_of_some (continuation?_of_some hy),
          describe_succ_of_some (continuation?_of_some hy')]
        rcases ih hpaired with ⟨err, he, he'⟩ | ⟨n, z, z', lead, hends, hz, ht, hu⟩
        · rw [he, he']
          exact .inl ⟨err, rfl, rfl⟩
        · have hsegment : x'.2.segment = x.2.segment := by
            obtain ⟨referent?, htwin⟩ := h.twin hx
            rw [htwin]
            have hcontinues := continues_of_next? hy
            exact Descriptor.segment_of_not_opens
              (Descriptor.not_opensIfLinked_of_continues hcontinues) referent?
          refine .inr ⟨n + 1, z, z', x.2.segment ++ " -- " ++ lead, .step hy hends, hz, ?_, ?_⟩
          · rw [ht]
            exact congrArg Except.ok (String.append_assoc ..).symm
          · rw [hu, hsegment]
            exact congrArg Except.ok (String.append_assoc ..).symm

/-! ### Questions -/

/-- A question about settled handles is answered alike by both dictionaries, a description in full
under the condition that is. -/
theorem Mirrors.ask (h : Mirrors p d d') {q : Query} (hq : ∀ id ∈ q.handles, d.Settled d' id)
    (htext : ∀ id, q = .typeString id → Agree p Eq (d.typeString id) (d'.typeString id)) :
    Agree p Eq (d.ask q) (d'.ask q) := by
  cases q with
  | unaliased id =>
      refine (h.unaliased (hq id List.mem_cons_self)).map_eq ?_
      rintro found _ ⟨rfl, -⟩
      rfl
  | unaliasedKind id => exact (h.unaliasedKind (hq id List.mem_cons_self)).map_same _
  | base id => exact (h.base (hq id List.mem_cons_self)).map_same _
  | baseKind id => exact (h.baseKind (hq id List.mem_cons_self)).map_same _
  | isAggregate id => exact (h.isAggregate (hq id List.mem_cons_self)).map_same _
  | element id => exact (h.element?_same (hq id List.mem_cons_self)).map_same _
  | elementKind id => exact (h.elementKind (hq id List.mem_cons_self)).map_same _
  | isA this other =>
      exact (h.isA? (hq this List.mem_cons_self)
        (hq other (List.mem_cons_of_mem _ List.mem_cons_self))).map_same _
  | isANamed this name =>
      exact (h.isANamed? (hq this List.mem_cons_self) name).map_same _
  | entityIsA this other =>
      exact (h.entityIsA? (hq this.toType List.mem_cons_self) other).map_same _
  | typeString id => exact (htext id rfl).map_same _
  | canBe this other =>
      exact (h.canBe? (hq this List.mem_cons_self)
        (hq other (List.mem_cons_of_mem _ List.mem_cons_self))).map_same _
  | canBeNamed this name =>
      exact (h.canBeNamed? (hq this List.mem_cons_self) name).map_same _
  | canBeSet this name schema? =>
      exact (h.canBeSet? (hq this List.mem_cons_self) name schema?).map_same _

end mirrors

end Dictionary

end ExpressModel
