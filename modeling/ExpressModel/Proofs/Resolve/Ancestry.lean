import ExpressModel.Proofs.Resolve.Membership
import ExpressModel.Proofs.Resolve.Search

/-! # Ancestry

Whether an entity is a kind of another is whether supertype links lead from the one to the other.
Cycles are allowed, so there is no height to go by: the search ends because it never enters an
entity that it is inside of, and its answer is what a search that keeps its path says of all that
lies above (`isBelow_settles`).

`entityIsA?_decides` spells this out: the search affirms what is reachable and nothing else, denies
just what is not, provided that it meets no cycle, and refuses only on a cycle that it names.  A
shared supertype is no cycle. -/

namespace ExpressModel.Dictionary

open Relation (ReflTransGen TransGen)

variable {d : Dictionary} {this other : EntityId}

def NamesEntity (d : Dictionary) (e : EntityId) (err : Error) : Prop :=
  ∃ t, d.entity? e = some t ∧ err = .cyclicTypeGraph t.name

theorem isAnyBelow_eq_anyM (other : EntityId) (path : List TypeId) (entities : List EntityId) :
    d.isAnyBelow other path entities = entities.anyM (d.isBelow other path) := by
  induction entities with
  | nil => exact isAnyBelow_nil ..
  | cons this rest ih =>
      rw [isAnyBelow_cons, List.anyM, ih]
      cases d.isBelow other path this with
      | error e => rfl
      | ok below => cases below <;> rfl

theorem hasSupertype_iff {t : Descriptor} (hthis : d.find? this.toType = some t) (e : EntityId) :
    d.HasSupertype this e ↔ e ∈ t.supertypes := by
  constructor
  · rintro ⟨u, hu, he⟩
    rw [hthis] at hu
    cases hu
    exact he
  · intro he
    exact ⟨t, hthis, he⟩

/-- The search through supertypes, from inside entities that lead to where it is. -/
theorem isBelow_settles {path : List TypeId}
    (hentity : ∀ e, ReflTransGen d.HasSupertype this e → (d.entity? e).isSome)
    (hpath : ∀ p : EntityId, p.toType ∈ path → TransGen d.HasSupertype p this) :
    Settles d.HasSupertype (· = other) (fun e => e.toType ∈ path) d.NamesEntity this
      (d.isBelow other path this) := by
  induction hn : d.offPath path using Nat.strong_induction_on generalizing path this with
  | h n ih =>
      obtain ⟨t, ht⟩ := Option.isSome_iff_exists.mp (hentity this .refl)
      have hreq : d.requireEntity this = .ok t :=
        requireEntity_eq_ok_iff.mpr (entity?_eq_some_iff.mp ht)
      have hfind := find?_of_requireEntity hreq
      rw [isBelow_eq]
      by_cases heq : this = other
      · rw [if_pos heq]
        exact .of_goal heq
      · rw [if_neg heq, hreq]
        simp only [bind, Except.bind]
        by_cases hmem : this.toType ∈ path
        · rw [if_pos hmem]
          exact .of_loop (hpath this hmem) ⟨t, ht, rfl⟩
        · rw [if_neg hmem, isAnyBelow_eq_anyM]
          have habove : ∀ e ∈ t.supertypes, Settles d.HasSupertype (· = other)
              (fun e => e.toType ∈ this.toType :: path) d.NamesEntity e
              (d.isBelow other (this.toType :: path) e) := by
            intro e he
            have hstep : d.HasSupertype this e := (hasSupertype_iff hfind e).mpr he
            refine ih _ ?_ (fun c hc => hentity c (.head hstep hc)) ?_ rfl
            · rw [← hn]
              exact offPath_cons_lt hfind hmem
            · intro p hp
              rcases List.mem_cons.mp hp with hp | hp
              · cases p
                cases hp
                exact .single hstep
              · exact (hpath p hp).tail hstep
          refine .of_successors (hasSupertype_iff hfind) heq hmem ?_ ?_ habove
          · exact List.mem_cons_self
          · intro c hc
            exact List.mem_cons_of_mem _ hc

theorem entityIsA?_eq_ok_some_iff {x : EntityId} :
    d.entityIsA? this other = .ok (some x) ↔ x = other ∧ d.isBelow other [] this = .ok true := by
  unfold entityIsA?
  cases d.isBelow other [] this with
  | error e => simp [Except.map]
  | ok below => cases below <;> simp [Except.map, eq_comm]

theorem entityIsA?_eq_ok_none_iff :
    d.entityIsA? this other = .ok none ↔ d.isBelow other [] this = .ok false := by
  unfold entityIsA?
  cases d.isBelow other [] this with
  | error e => simp [Except.map]
  | ok below => cases below <;> simp [Except.map]

theorem entityIsA?_eq_error_iff {err : Error} :
    d.entityIsA? this other = .error err ↔ d.isBelow other [] this = .error err := by
  unfold entityIsA?
  cases d.isBelow other [] this with
  | error e => simp [Except.map]
  | ok below => cases below <;> simp [Except.map]

/-- What the search for another entity above an entity answers, where all supertypes that it can
come to are entities. -/
theorem entityIsA?_decides (hthis : (d.entity? this).isSome)
    (habove : ∀ e above, ReflTransGen d.HasSupertype this e → d.HasSupertype e above →
      (d.entity? above).isSome) (other : EntityId) :
    (∀ x, d.entityIsA? this other = .ok (some x) →
      x = other ∧ ReflTransGen d.HasSupertype this other) ∧
    (d.entityIsA? this other = .ok none ↔
      ¬ ReflTransGen d.HasSupertype this other ∧ ¬ MeetsCycle d.HasSupertype this) ∧
    (∀ err, d.entityIsA? this other = .error err → ∃ c t, ReflTransGen d.HasSupertype this c ∧
      TransGen d.HasSupertype c c ∧ d.entity? c = some t ∧ err = .cyclicTypeGraph t.name) ∧
    (¬ MeetsCycle d.HasSupertype this →
      (d.entityIsA? this other = .ok (some other) ↔ ReflTransGen d.HasSupertype this other)) := by
  have hsettles : Settles d.HasSupertype (· = other) (fun e => e.toType ∈ []) d.NamesEntity this
      (d.isBelow other [] this) :=
    isBelow_settles (fun e he => of_reaches (P := fun e => (d.entity? e).isSome) hthis habove he)
      fun p hp => absurd hp List.not_mem_nil
  have hreaches : (∃ c, ReflTransGen d.HasSupertype this c ∧ c = other) ↔
      ReflTransGen d.HasSupertype this other := exists_eq_right
  refine ⟨?_, ?_, ?_, ?_⟩
  · intro x hx
    obtain ⟨hsame, hbelow⟩ := entityIsA?_eq_ok_some_iff.mp hx
    rw [hbelow] at hsettles
    exact ⟨hsame, hreaches.mp hsettles⟩
  · rw [entityIsA?_eq_ok_none_iff, hsettles.eq_ok_false_iff, ← hreaches]
  · intro err herr
    rw [entityIsA?_eq_error_iff.mp herr] at hsettles
    obtain ⟨c, hc, hcycle, t, ht, rfl⟩ := hsettles
    exact ⟨c, t, hc, hcycle, ht, rfl⟩
  · intro hcycle
    rw [entityIsA?_eq_ok_some_iff, ← hreaches, hsettles.eq_ok_true_iff hcycle]
    exact and_iff_right rfl

/-- A diamond of entities, and below it two entities that are supertypes of each other. -/
def tangle : Dictionary where
  config := {}
  descriptors := #[entityBelow "a" [], entityBelow "b" [⟨0⟩], entityBelow "c" [⟨0⟩],
    entityBelow "d" [⟨1⟩, ⟨2⟩], entityBelow "e" [⟨3⟩, ⟨5⟩], entityBelow "f" [⟨4⟩]]
  schemas := #[]

theorem entityIsA?_decides_tangle :
    (tangle.entity? ⟨⟨3⟩⟩).isSome ∧ (tangle.entity? ⟨⟨4⟩⟩).isSome ∧
      (∀ e above, tangle.HasSupertype e above → (tangle.entity? above).isSome) ∧
      ReflTransGen tangle.HasSupertype ⟨⟨4⟩⟩ ⟨⟨0⟩⟩ ∧ MeetsCycle tangle.HasSupertype ⟨⟨4⟩⟩ ∧
      ¬ MeetsCycle tangle.HasSupertype ⟨⟨3⟩⟩ := by
  have hd : (tangle.entity? ⟨⟨3⟩⟩).isSome := by rfl
  have he : (tangle.entity? ⟨⟨4⟩⟩).isSome := by rfl
  have hlinks : tangle.LinksResolve := by decide +kernel
  have habove : ∀ e above, tangle.HasSupertype e above → (tangle.entity? above).isSome := by
    rintro e above ⟨t, ht, hmem⟩
    exact hlinks.supertype t (mem_descriptors_of_find? ht) above hmem
  have hfound : tangle.entityIsA? ⟨⟨4⟩⟩ ⟨⟨0⟩⟩ = .ok (some ⟨⟨0⟩⟩) := by cbv
  have hrefused : tangle.entityIsA? ⟨⟨4⟩⟩ ⟨⟨9⟩⟩ = .error (.cyclicTypeGraph "e") := by cbv
  have hdenied : tangle.entityIsA? ⟨⟨3⟩⟩ ⟨⟨9⟩⟩ = .ok none := by cbv
  obtain ⟨-, hdenies, -, -⟩ := entityIsA?_decides hd (fun e above _ => habove e above) ⟨⟨9⟩⟩
  obtain ⟨haffirms, -, -, -⟩ := entityIsA?_decides he (fun e above _ => habove e above) ⟨⟨0⟩⟩
  obtain ⟨-, -, hrefuses, -⟩ := entityIsA?_decides he (fun e above _ => habove e above) ⟨⟨9⟩⟩
  obtain ⟨c, _, hreach, hcycle, -⟩ := hrefuses _ hrefused
  exact ⟨hd, he, habove, (haffirms _ hfound).2, ⟨c, hreach, hcycle⟩, (hdenies.mp hdenied).2⟩

end ExpressModel.Dictionary
