import Mathlib
import ExpressModel.Proofs.Links.Acyclic
import ExpressModel.Proofs.Resolve.Query

/-! # Queries on acyclic dictionaries

One check of all links in advance spares every query the search for cycles of its own.  The
queries look for cycles in two ways.  A walk along referents counts its steps: in an acyclic
dictionary it needs no more of them than the height of the descriptor where it starts
(`walk_of_height_lt`, `describe_of_height_le`).  A search through supertypes or choices keeps the
path it is inside of: links lead from every descriptor on the path to the one it comes to
(`LeadsTo`), so it comes to none on the path, however many branches share a descriptor
(`isBelow_neverCyclic`, `admitted?_neverCyclic`).

`ask_ne_cyclic` puts these together: where `checkAcyclic` succeeds, no query is refused because
of a cycle. -/

namespace ExpressModel

open Relation (TransGen)

/-! ### Refusals other than cycles -/

/-- The result is no refusal because of a cycle. -/
def NeverCyclic {α : Type} (r : Except Error α) : Prop :=
  ∀ name, r ≠ .error (.cyclicTypeGraph name)

section results

variable {α β : Type}

theorem neverCyclic_ok (a : α) : NeverCyclic (.ok a : Except Error α) := by
  intro name h
  cases h

theorem NeverCyclic.error {e : Error} (h : NeverCyclic (.error e : Except Error α)) :
    NeverCyclic (.error e : Except Error β) := by
  intro name he
  cases he
  exact h name rfl

theorem NeverCyclic.map {r : Except Error α} (h : NeverCyclic r) (f : α → β) :
    NeverCyclic (r.map f) := by
  cases r with
  | ok a => exact neverCyclic_ok _
  | error e => exact h.error

theorem NeverCyclic.bind {r : Except Error α} {f : α → Except Error β} (h : NeverCyclic r)
    (hf : ∀ a, r = .ok a → NeverCyclic (f a)) : NeverCyclic (r >>= f) := by
  cases r with
  | ok a => exact hf a rfl
  | error e => exact h.error

end results

namespace Dictionary

variable {d : Dictionary}

theorem require_neverCyclic (d : Dictionary) (id : TypeId) : NeverCyclic (d.require id) := by
  intro name
  unfold require
  split <;> simp

theorem requireEntity_neverCyclic (d : Dictionary) (e : EntityId) :
    NeverCyclic (d.requireEntity e) := by
  intro name
  unfold requireEntity
  split
  · split <;> simp
  · simp

/-! ### Walks -/

/-- A walk with more steps than the height of its start ends. -/
theorem walk_of_height_lt (hac : d.checkAcyclic = .ok ()) (stop : Descriptor → Bool)
    {bound : Nat} {id : TypeId} {t : Descriptor} (hid : d.find? id = some t)
    (h : d.height id < bound) : ∃ found, d.walk stop bound (id, t) = .ok found := by
  induction bound generalizing id t with
  | zero => omega
  | succ bound ih =>
      rw [walk]
      split
      · exact ⟨_, rfl⟩
      · cases hf : d.follow? t with
        | none => exact ⟨_, rfl⟩
        | some next =>
            have hlt := height_lt_of_linked hac (linked_of_follow? hid hf)
            exact ih (find?_of_follow? hf) (by omega)

/-- A walk that takes a step for every descriptor ends. -/
theorem exists_walkFrom_eq_ok (hac : d.checkAcyclic = .ok ()) (stop : Descriptor → Bool)
    {id : TypeId} {t : Descriptor} (hid : d.find? id = some t) :
    ∃ found, d.walkFrom stop id = .ok found := by
  have hlt : d.height id < d.typeCount + 1 := Nat.lt_succ_of_lt (height_lt_typeCount hac hid)
  obtain ⟨found, hfound⟩ := walk_of_height_lt hac stop hid hlt
  refine ⟨found, ?_⟩
  unfold walkFrom
  rw [require_eq_ok_iff.mpr hid]
  exact hfound

theorem walkFrom_neverCyclic (hac : d.checkAcyclic = .ok ()) (stop : Descriptor → Bool)
    (id : TypeId) : NeverCyclic (d.walkFrom stop id) := by
  cases hid : d.find? id with
  | none =>
      have hreq := require_neverCyclic d id
      unfold walkFrom
      unfold require at hreq ⊢
      rw [hid] at hreq ⊢
      exact hreq.error
  | some t =>
      obtain ⟨found, hfound⟩ := exists_walkFrom_eq_ok hac stop hid
      rw [hfound]
      exact neverCyclic_ok found

/-- A description ends when it may go on for as many segments as the height of its start. -/
theorem describe_of_height_le (hac : d.checkAcyclic = .ok ()) {budget : Nat} {id : TypeId}
    {t : Descriptor} (hid : d.find? id = some t) (h : d.height id ≤ budget) :
    ∃ text, d.describe budget t = .ok text := by
  induction budget generalizing id t with
  | zero =>
      cases hc : d.continuation? t with
      | none => exact ⟨_, describe_of_none hc 0⟩
      | some u =>
          obtain ⟨next, hnext⟩ := exists_follow?_of_continuation? hc
          have hlt := height_lt_of_linked hac (linked_of_follow? hid hnext)
          omega
  | succ budget ih =>
      cases hc : d.continuation? t with
      | none => exact ⟨_, describe_of_none hc _⟩
      | some u =>
          obtain ⟨next, hnext⟩ := exists_follow?_of_continuation? hc
          have hlt := height_lt_of_linked hac (linked_of_follow? hid hnext)
          obtain ⟨rest, hrest⟩ := ih (find?_of_follow? hnext) (by omega)
          exact ⟨_, by rw [describe_succ_of_some hc, hrest]; rfl⟩

/-! ### Searches -/

/-- Links lead to the handle from everything on the path, provided that it denotes anything. -/
def LeadsTo (d : Dictionary) (path : List TypeId) (id : TypeId) : Prop :=
  (d.find? id).isSome → ∀ p ∈ path, TransGen d.Linked p id

theorem leadsTo_nil (d : Dictionary) (id : TypeId) : d.LeadsTo [] id := by
  intro _ p hp
  simp at hp

theorem LeadsTo.cons {path : List TypeId} {this next : TypeId} {t : Descriptor}
    (h : d.LeadsTo path this) (hthis : d.find? this = some t)
    (hnext : (d.find? next).isSome → d.Linked this next) : d.LeadsTo (this :: path) next := by
  intro hsome p hp
  rcases List.mem_cons.mp hp with rfl | hp
  · exact TransGen.single (hnext hsome)
  · exact (h (by rw [hthis]; rfl) p hp).tail (hnext hsome)

theorem LeadsTo.not_mem (hac : d.checkAcyclic = .ok ()) {path : List TypeId} {this : TypeId}
    {t : Descriptor} (h : d.LeadsTo path this) (hthis : d.find? this = some t) : this ∉ path := by
  intro hmem
  exact checkAcyclic_eq_ok_iff.mp hac this (h (by rw [hthis]; rfl) this hmem)

/-- The search through supertypes comes to no entity that it is inside of. -/
theorem isBelow_neverCyclic (hac : d.checkAcyclic = .ok ()) (other : EntityId) :
    (∀ path this, d.LeadsTo path this.toType → NeverCyclic (d.isBelow other path this)) ∧
      ∀ path entities, (∀ e ∈ entities, d.LeadsTo path e.toType) →
        NeverCyclic (d.isAnyBelow other path entities) := by
  refine isBelow.mutual_induct d other
    (fun path this => d.LeadsTo path this.toType → NeverCyclic (d.isBelow other path this))
    (fun path entities => (∀ e ∈ entities, d.LeadsTo path e.toType) →
      NeverCyclic (d.isAnyBelow other path entities)) ?_ ?_ ?_ ?_ ?_ ?_ ?_ ?_
  · intro path _
    rw [isBelow_eq, if_pos rfl]
    exact neverCyclic_ok true
  · intro path this hne e he _
    have hreq := requireEntity_neverCyclic d this
    rw [he] at hreq
    rw [isBelow_eq, if_neg hne, he]
    exact hreq.error
  · intro path this hne t ht hmem hlead
    exact absurd hmem (hlead.not_mem hac (find?_of_requireEntity ht))
  · intro path this hne t ht hmem ih hlead
    rw [isBelow_eq, if_neg hne, ht]
    have hthis := find?_of_requireEntity ht
    simp only [bind, Except.bind, if_neg hmem]
    exact ih fun e he => hlead.cons hthis (linked_of_mem_supertypes hthis he)
  · intro path _
    rw [isAnyBelow_nil]
    exact neverCyclic_ok false
  · intro path this rest e he ih hlead
    have hthis := ih (hlead this List.mem_cons_self)
    rw [he] at hthis
    rw [isAnyBelow_cons, he]
    exact hthis.error
  · intro path this rest htrue _ _
    rw [isAnyBelow_cons, htrue]
    exact neverCyclic_ok true
  · intro path this rest hfalse _ ih hlead
    rw [isAnyBelow_cons, hfalse]
    exact ih fun e he => hlead e (List.mem_cons_of_mem _ he)

/-- A search through choices comes to no select type that it is inside of. -/
theorem admitted?_neverCyclic (hac : d.checkAcyclic = .ok ()) (q : Selection)
    (hleaf : ∀ id t, NeverCyclic (q.ofLeaf id t))
    (hchoice : ∀ id t, NeverCyclic (q.ofChoice id t)) :
    (∀ path this, d.LeadsTo path this → NeverCyclic (d.admitted? q path this)) ∧
      ∀ path choices, (∀ c ∈ choices, d.LeadsTo path c) →
        NeverCyclic (d.firstAdmitting? q path choices) := by
  refine admitted?.mutual_induct d q
    (fun path this => d.LeadsTo path this → NeverCyclic (d.admitted? q path this))
    (fun path choices => (∀ c ∈ choices, d.LeadsTo path c) →
      NeverCyclic (d.firstAdmitting? q path choices)) ?_ ?_ ?_ ?_ ?_ ?_ ?_ ?_ ?_ ?_ ?_ ?_ ?_
  -- a type: unknown, no select type, admitted by itself, on the path, or asked for its choices
  · intro path this e he _
    have hreq := require_neverCyclic d this
    rw [he] at hreq
    rw [admitted?_eq, he]
    exact hreq.error
  · intro path this t ht hsel _
    rw [admitted?_eq, ht]
    simp only [bind, Except.bind, hsel]
    exact hleaf this t
  · intro path this t ht b hsel hself _
    rw [admitted?_eq, ht]
    simp only [bind, Except.bind, hsel, if_pos hself]
    exact neverCyclic_ok _
  · intro path this t ht b _ _ hmem hlead
    exact absurd hmem (hlead.not_mem hac (require_eq_ok_iff.mp ht))
  · intro path this t ht b hsel hself hmem ih hlead
    have hthis := require_eq_ok_iff.mp ht
    rw [admitted?_eq, ht]
    simp only [bind, Except.bind, hsel, if_neg hself, if_neg hmem]
    exact ih fun c hc => hlead.cons hthis (linked_of_mem_choices hthis hc)
  -- a list of choices: empty, or with a first choice that is unknown, answers by itself or is asked
  · intro path _
    rw [firstAdmitting?_nil]
    exact neverCyclic_ok none
  · intro path choice rest e he _
    have hreq := require_neverCyclic d choice
    rw [he] at hreq
    rw [firstAdmitting?_cons, he]
    exact hreq.error
  · intro path choice rest t ht e he _
    have hown := hchoice choice t
    rw [he] at hown
    rw [firstAdmitting?_cons, ht]
    simp only [bind, Except.bind, he]
    exact hown.error
  · intro path choice rest t ht hyes _
    rw [firstAdmitting?_cons, ht]
    simp only [bind, Except.bind, hyes]
    exact neverCyclic_ok _
  · intro path choice rest t ht hno ih hlead
    rw [firstAdmitting?_cons, ht]
    simp only [bind, Except.bind, hno]
    exact ih fun c hc => hlead c (List.mem_cons_of_mem _ hc)
  · intro path choice rest t ht hopen e he ih hlead
    have hfirst := ih (hlead choice List.mem_cons_self)
    rw [he] at hfirst
    rw [firstAdmitting?_cons, ht]
    simp only [bind, Except.bind, hopen, he]
    exact hfirst.error
  · intro path choice rest t ht hopen c hc _ _
    rw [firstAdmitting?_cons, ht]
    simp only [bind, Except.bind, hopen, hc]
    exact neverCyclic_ok _
  · intro path choice rest t ht hopen hnone _ ih hlead
    rw [firstAdmitting?_cons, ht]
    simp only [bind, Except.bind, hopen, hnone]
    exact ih fun c hc => hlead c (List.mem_cons_of_mem _ hc)

/-! ### Queries -/

theorem unaliased_neverCyclic (hac : d.checkAcyclic = .ok ()) (id : TypeId) :
    NeverCyclic (d.unaliased id) :=
  (walkFrom_neverCyclic hac _ id).map _

theorem unaliasedKind_neverCyclic (hac : d.checkAcyclic = .ok ()) (id : TypeId) :
    NeverCyclic (d.unaliasedKind id) :=
  (walkFrom_neverCyclic hac _ id).map _

theorem isANamed?_neverCyclic (hac : d.checkAcyclic = .ok ()) (id : TypeId) (name : String) :
    NeverCyclic (d.isANamed? id name) :=
  (walkFrom_neverCyclic hac _ id).map _

theorem taggedBy_ofChoice_neverCyclic (hac : d.checkAcyclic = .ok ()) (name : String)
    (schema? : Option String) (choice : TypeId) (t : Descriptor) :
    NeverCyclic ((d.taggedBy name schema?).ofChoice choice t) := by
  dsimp only [taggedBy]
  split
  · exact (unaliasedKind_neverCyclic hac choice).map _
  · exact neverCyclic_ok none

theorem element?_neverCyclic (hac : d.checkAcyclic = .ok ()) (id : TypeId) :
    NeverCyclic (d.element? id) := by
  unfold element?
  refine (walkFrom_neverCyclic hac _ id).bind ?_
  rintro ⟨_, t⟩ _
  dsimp only
  split
  · split
    · exact (unaliased_neverCyclic hac _).map _
    · exact neverCyclic_ok none
  · exact neverCyclic_ok none

theorem isA?_neverCyclic (hac : d.checkAcyclic = .ok ()) (this other : TypeId) :
    NeverCyclic (d.isA? this other) := by
  unfold isA?
  refine (require_neverCyclic d this).bind ?_
  intro t _
  split
  · refine (unaliased_neverCyclic hac other).bind ?_
    intro target _
    split
    · exact (((isBelow_neverCyclic hac _).1 [] _ (leadsTo_nil d _)).map _).map _
    · exact neverCyclic_ok none
  · exact neverCyclic_ok _

theorem typeString_neverCyclic (hac : d.checkAcyclic = .ok ()) (id : TypeId) :
    NeverCyclic (d.typeString id) := by
  unfold typeString
  refine (require_neverCyclic d id).bind ?_
  intro t ht
  have hid := require_eq_ok_iff.mp ht
  obtain ⟨text, htext⟩ := describe_of_height_le hac hid (Nat.le_of_lt (height_lt_typeCount hac hid))
  rw [htext]
  exact neverCyclic_ok text

theorem ask_neverCyclic (hac : d.checkAcyclic = .ok ()) (q : Query) : NeverCyclic (d.ask q) := by
  cases q with
  | unaliased id => exact (unaliased_neverCyclic hac id).map _
  | unaliasedKind id => exact (unaliasedKind_neverCyclic hac id).map _
  | base id => exact ((walkFrom_neverCyclic hac _ id).map _).map _
  | baseKind id => exact ((walkFrom_neverCyclic hac _ id).map _).map _
  | isAggregate id => exact ((unaliasedKind_neverCyclic hac id).map _).map _
  | element id => exact (element?_neverCyclic hac id).map _
  | elementKind id =>
      refine NeverCyclic.map ((element?_neverCyclic hac id).bind ?_) _
      intro element? _
      cases element? with
      | none => exact neverCyclic_ok _
      | some element => exact (require_neverCyclic d element).map _
  | isA this other => exact (isA?_neverCyclic hac this other).map _
  | isANamed this name => exact (isANamed?_neverCyclic hac this name).map _
  | entityIsA this other =>
      exact (((isBelow_neverCyclic hac other).1 [] this (leadsTo_nil d _)).map _).map _
  | typeString id => exact (typeString_neverCyclic hac id).map _
  | canBe this other =>
      have h := admitted?_neverCyclic hac (d.holding other)
        (fun id _ => isA?_neverCyclic hac id other) fun _ _ => neverCyclic_ok none
      exact (h.1 [] this (leadsTo_nil d _)).map _
  | canBeNamed this name =>
      have h := admitted?_neverCyclic hac (d.holdingNamed name)
        (fun id _ => isANamed?_neverCyclic hac id name) fun _ _ => neverCyclic_ok none
      exact (h.1 [] this (leadsTo_nil d _)).map _
  | canBeSet this name schema? =>
      have h := admitted?_neverCyclic hac (d.taggedBy name schema?) (fun _ _ => neverCyclic_ok _)
        (taggedBy_ofChoice_neverCyclic hac name schema?)
      exact (h.1 [] this (leadsTo_nil d _)).map _

/-- Where the check of all links succeeds, no query is refused because of a cycle. -/
theorem ask_ne_cyclic (hac : d.checkAcyclic = .ok ()) (q : Query) (name : String) :
    d.ask q ≠ .error (.cyclicTypeGraph name) :=
  ask_neverCyclic hac q name

/-- An entity with the given supertypes. -/
def entityBelow (name : String) (above : List TypeId) : Descriptor :=
  .entity name { EntityBody.ofOptions {} with
    supertypes := above.foldl (fun r id => r.append ⟨id⟩) .empty }

/-- Entities in a diamond, a select type that reaches them along two branches and has a choice
that denotes nothing, and an alias of it. -/
def diamond : Dictionary where
  config := {}
  descriptors := #[entityBelow "a" [], entityBelow "b" [⟨0⟩], entityBelow "c" [⟨0⟩],
    entityBelow "d" [⟨1⟩, ⟨2⟩],
    { name := "s", description := "SELECT (d, b)"
      body := .select { choices := ((Registry.empty.append ⟨3⟩).append ⟨1⟩).append ⟨9⟩ } },
    { name := "t", description := "s", referent? := some ⟨4⟩, body := .plain .reference }]
  schemas := #[]

theorem ask_ne_cyclic_diamond :
    diamond.checkAcyclic = .ok () ∧
      diamond.ask (.canBe ⟨4⟩ ⟨5⟩) ≠ .error (.cyclicTypeGraph "s") := by
  have hac : diamond.checkAcyclic = .ok () := by cbv
  exact ⟨hac, ask_ne_cyclic hac (.canBe ⟨4⟩ ⟨5⟩) "s"⟩

end Dictionary

end ExpressModel
