import Mathlib
import ExpressModel.Proofs.Resolve.Growth
import ExpressModel.Proofs.Resolve.Referents

/-! # Aliases are transparent

A question that looks behind aliases is answered for an alias as it is for the type that the alias
refers to (`agree_ask`).  The chain of the alias is one descriptor longer while the bound on the
steps is the same, but that bound is never what decides (`walk_bound`), so where the one walk is
refused the other is refused too, perhaps with the name of another descriptor of the cycle.

Asking again changes nothing: a walk that starts where another has ended is already at its end
(`walkFrom_idem`), and a walk that starts anywhere on a chain ends where the chain does
(`lastOnChain_iff_of_chainAt?`). -/

namespace ExpressModel

open Traversal (bind_eq_ok_iff map_eq_ok_iff)

/-! ### Results that agree -/

theorem Error.kind_eq_cyclicTypeGraph_iff {e : Error} :
    e.kind = .cyclicTypeGraph ↔ ∃ name, e = .cyclicTypeGraph name := by
  cases e <;> simp [Error.kind]

namespace Agree

variable {α : Type} {r r' : Except Error α}

theorem eq_ok_iff {κ : Type} {p : Error → κ} (h : Agree p Eq r r') (a : α) :
    r = .ok a ↔ r' = .ok a := by
  cases h with
  | ok hab => rw [hab]
  | error => simp

/-- Results that agree up to the kind of errors are refused together because of a cycle. -/
theorem exists_cyclic_iff (h : Agree Error.kind Eq r r') :
    (∃ name, r = .error (.cyclicTypeGraph name)) ↔
      ∃ name, r' = .error (.cyclicTypeGraph name) := by
  cases h with
  | ok => simp
  | error he =>
      simp only [Except.error.injEq]
      rw [← Error.kind_eq_cyclicTypeGraph_iff, ← Error.kind_eq_cyclicTypeGraph_iff, he]

end Agree

namespace Dictionary

variable {d : Dictionary} {stop : Descriptor → Bool} {id : TypeId} {t : Descriptor}
  {x : TypeId × Descriptor}

/-! ### One step further -/

theorem follow?_of_referent? {target : TypeId} {u : Descriptor}
    (hreferent : t.referent? = some target) (htarget : d.find? target = some u) :
    d.follow? t = some (target, u) := by
  unfold follow?
  rw [hreferent, Option.bind_some, htarget, Option.map_some]

/-- A walk that does not stop where it starts ends as one that starts a step further. -/
theorem agree_walkFrom (hid : d.find? id = some t) (hgo : stop t = false)
    (hfollow : d.follow? t = some x) :
    Agree Error.kind Eq (d.walkFrom stop id) (d.walkFrom stop x.1) := by
  have hx : d.find? x.1 = some x.2 := find?_of_follow? hfollow
  have hstep : d.walkFrom stop id = d.walk stop d.typeCount x := by
    unfold walkFrom
    rw [require_eq_ok_iff.mpr hid]
    show d.walk stop (d.typeCount + 1) (id, t) = _
    rw [walk_succ, next?_eq_some_iff.mpr ⟨hgo, hfollow⟩]
  have hnext : d.walkFrom stop x.1 = d.walk stop (d.typeCount + 1) x := by
    unfold walkFrom
    rw [require_eq_ok_iff.mpr hx]
    rfl
  rw [hstep, hnext]
  have hbound : (d.walk stop (d.typeCount + 1) x).mapError Error.kind =
      (d.walk stop d.typeCount x).mapError Error.kind :=
    walk_bound (fun _ _ => rfl) hx (Nat.le_succ d.typeCount) (Nat.le_refl d.typeCount)
  exact (Agree.refl _).congr_left hbound

/-- The questions that look behind aliases or to the end of a chain. -/
def chainQuestions : List (TypeId → Query) :=
  [.unaliased, .unaliasedKind, .isAggregate, .element, .elementKind, .base, .baseKind]

/-- For an alias they are answered as for what it refers to. -/
theorem agree_ask (hid : d.find? id = some t) (halias : t.kind = .reference)
    (hfollow : d.follow? t = some x) {q : TypeId → Query} (hq : q ∈ chainQuestions) :
    Agree Error.kind Eq (d.ask (q id)) (d.ask (q x.1)) := by
  have hunalias : Agree Error.kind Eq (d.unalias id) (d.unalias x.1) :=
    agree_walkFrom hid (decide_eq_false (not_not_intro halias)) hfollow
  have hend : Agree Error.kind Eq (d.chainEnd id) (d.chainEnd x.1) :=
    agree_walkFrom hid rfl hfollow
  have helement : Agree Error.kind Eq (d.element? id) (d.element? x.1) := by
    refine hunalias.bind ?_
    rintro y _ rfl
    exact .refl _
  have helementKind : Agree Error.kind Eq (d.elementKind id) (d.elementKind x.1) := by
    refine helement.bind ?_
    rintro y _ rfl
    exact .refl _
  simp only [chainQuestions, List.mem_cons, List.not_mem_nil, or_false] at hq
  rcases hq with rfl | rfl | rfl | rfl | rfl | rfl | rfl
  · exact (hunalias.map_same _).map_same _
  · exact (hunalias.map_same _).map_same _
  · exact ((hunalias.map_same _).map_same _).map_same _
  · exact helement.map_same _
  · exact helementKind.map_same _
  · exact (hend.map_same _).map_same _
  · exact (hend.map_same _).map_same _

/-! ### Asking again -/

/-- A walk that starts where another has ended ends there. -/
theorem walkFrom_idem {found : TypeId} (h : (d.walkFrom stop id).map Prod.fst = .ok found) :
    (d.walkFrom stop found).map Prod.fst = .ok found := by
  obtain ⟨x, hx, rfl⟩ := map_eq_ok_iff.mp h
  obtain ⟨n, hn, hstop, -⟩ := walkFrom_eq_ok_iff.mp hx
  refine map_eq_ok_iff.mpr ⟨x, walkFrom_eq_ok_iff.mpr ⟨0, ?_, ?_, ?_⟩, rfl⟩
  · exact chainAt?_zero (find?_of_chainAt? hn)
  · rw [← chainAt?_add_of_some hn]
    exact hstop
  · intro m hm
    exact absurd hm (Nat.not_lt_zero m)

theorem unaliased_idem {found : TypeId} (h : d.unaliased id = .ok found) :
    d.unaliased found = .ok found :=
  walkFrom_idem h

theorem lastOnChain_iff_of_chainAt? {n : Nat} (hx : d.chainAt? id n = some x)
    {y : TypeId × Descriptor} : d.LastOnChain x.1 y ↔ d.LastOnChain id y := by
  constructor
  · rintro ⟨m, hm, hlast⟩
    refine ⟨n + m, ?_, ?_⟩
    · rw [chainAt?_add_of_some hx, hm]
    · rw [Nat.add_assoc, chainAt?_add_of_some hx, hlast]
  · rintro ⟨m, hm, hlast⟩
    have hle : n ≤ m := by
      by_contra hlt
      obtain ⟨z, hz⟩ := exists_chainAt?_of_le hx (Nat.lt_of_not_le hlt)
      rw [hlast] at hz
      cases hz
    obtain ⟨k, rfl⟩ := Nat.exists_eq_add_of_le hle
    rw [chainAt?_add_of_some hx] at hm
    rw [Nat.add_assoc, chainAt?_add_of_some hx] at hlast
    exact ⟨k, hm, hlast⟩

/-- The base of the type behind aliases is the base of the alias. -/
theorem base_unaliased {behind : TypeId} (h : d.unaliased id = .ok behind) (found : TypeId) :
    d.base behind = .ok found ↔ d.base id = .ok found := by
  obtain ⟨x, hx, rfl⟩ := map_eq_ok_iff.mp h
  obtain ⟨n, hn, -, -⟩ := walkFrom_eq_ok_iff.mp hx
  rw [base_eq_ok_iff, base_eq_ok_iff]
  exact exists_congr fun _ => lastOnChain_iff_of_chainAt? hn

/-- An element type is never an alias of something else. -/
theorem unaliased_of_element? {element : TypeId} (h : d.element? id = .ok (some element)) :
    d.unaliased element = .ok element := by
  obtain ⟨x, -, h⟩ := bind_eq_ok_iff.mp h
  dsimp only at h
  split at h
  · split at h
    · next next _ _ =>
        obtain ⟨found, hfound, hsome⟩ := map_eq_ok_iff.mp h
        cases hsome
        exact unaliased_idem hfound
    · cases h
  · cases h

/-! ### Transparency -/

/-- No question tells an alias from what it refers to, nor what is found from where it is
found. -/
structure AliasesTransparent (d : Dictionary) : Prop where
  /-- An alias is answered for like what its referent denotes, and is refused because of a cycle
  when that is. -/
  referent : ∀ {id t target u}, d.find? id = some t → t.kind = .reference →
    t.referent? = some target → d.find? target = some u → ∀ q ∈ chainQuestions,
      (∀ answer, d.ask (q id) = .ok answer ↔ d.ask (q target) = .ok answer) ∧
      ((∃ name, d.ask (q id) = .error (.cyclicTypeGraph name)) ↔
        ∃ name, d.ask (q target) = .error (.cyclicTypeGraph name))
  /-- What is behind aliases is behind no further ones. -/
  unaliased : ∀ {id found}, d.unaliased id = .ok found → d.unaliased found = .ok found
  /-- The base is its own base. -/
  base : ∀ {id found}, d.base id = .ok found → d.base found = .ok found
  /-- It is the base of what is behind the aliases, too. -/
  base_unaliased : ∀ {id behind}, d.unaliased id = .ok behind →
    ∀ found, d.base behind = .ok found ↔ d.base id = .ok found
  /-- What is answered for an element is behind all aliases. -/
  element : ∀ {id element}, d.element? id = .ok (some element) →
    d.unaliased element = .ok element

/-- Aliases are transparent in every dictionary, cycles and dangling referents included. -/
theorem aliases_transparent (d : Dictionary) : d.AliasesTransparent where
  referent := by
    intro id t target u hid halias hreferent htarget q hq
    have hagree := agree_ask hid halias (follow?_of_referent? hreferent htarget) hq
    exact ⟨hagree.eq_ok_iff, hagree.exists_cyclic_iff⟩
  unaliased := unaliased_idem
  base := walkFrom_idem
  base_unaliased := Dictionary.base_unaliased
  element := unaliased_of_element?

/-- Aliases of a type and of lists of it, and two aliases of each other. -/
def nicknames : Dictionary where
  config := {}
  descriptors := #[{ name := "length", description := "REAL", body := .plain .real },
    aliasOf "size" ⟨0⟩,
    { name := "lengths", description := "LIST OF size", referent? := some ⟨1⟩,
      body := .aggregate { kind := .list } },
    aliasOf "sizes" ⟨2⟩, aliasOf "this" ⟨5⟩, aliasOf "that" ⟨4⟩]
  schemas := #[]

theorem aliases_transparent_nicknames :
    nicknames.find? ⟨3⟩ = some (aliasOf "sizes" ⟨2⟩) ∧
      nicknames.ask (.element ⟨3⟩) = .ok (.type? (some ⟨0⟩)) ∧
      nicknames.unaliased ⟨0⟩ = .ok ⟨0⟩ ∧
      nicknames.find? ⟨4⟩ = some (aliasOf "this" ⟨5⟩) ∧
      ∃ name, nicknames.ask (.baseKind ⟨4⟩) = .error (.cyclicTypeGraph name) := by
  have htransparent := aliases_transparent nicknames
  have hsizes : nicknames.find? ⟨3⟩ = some (aliasOf "sizes" ⟨2⟩) := rfl
  have hthis : nicknames.find? ⟨4⟩ = some (aliasOf "this" ⟨5⟩) := rfl
  have helement : nicknames.element? ⟨3⟩ = .ok (some ⟨0⟩) := by cbv
  refine ⟨hsizes, ?_, htransparent.element helement, hthis, ?_⟩
  · have hreferent := htransparent.referent hsizes rfl rfl rfl .element (by simp [chainQuestions])
    exact (hreferent.1 _).mpr (by cbv)
  · have hreferent := htransparent.referent hthis rfl rfl rfl .baseKind (by simp [chainQuestions])
    exact hreferent.2.mpr ⟨"this", by cbv⟩

end Dictionary

end ExpressModel
