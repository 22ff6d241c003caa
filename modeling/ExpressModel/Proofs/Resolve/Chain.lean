import Mathlib.Data.List.Nodup
import Mathlib.Data.List.Perm.Subperm
import ExpressModel.Proofs.Links.Acyclic
import ExpressModel.Resolve.TypeString

/-! # Chains that end

A walk takes a step for every descriptor there is and then refuses.  That number of steps is never
the reason for an answer, nor for its lack: either the chain ends (`Ends`), and then it does so
before it has come to as many descriptors as there are (`Ends.lt_typeCount`), or it comes back to
itself and no number of steps is enough.  The descriptors on a chain that ends are all different,
since each of them is at another distance from the end.

So a walk answers exactly the end of a chain that ends (`walk_eq_ok_iff`), and with steps enough
its result does not depend on how many more there are, but for the name that a refusal gives
(`walk_bound`).  The same holds of descriptions in full (`describe_bound`). -/

namespace ExpressModel.Dictionary

variable {d : Dictionary} {stop : Descriptor → Bool}

/-! ### Ends -/

/-- What a walk goes on with from a descriptor: what its referent denotes, unless the walk is to
stop there. -/
def next? (d : Dictionary) (stop : Descriptor → Bool) (t : Descriptor) :
    Option (TypeId × Descriptor) :=
  if stop t then none else d.follow? t

/-- After that many steps from the one descriptor a walk is at the other, and goes on no
further. -/
inductive Ends (d : Dictionary) (stop : Descriptor → Bool) :
    Nat → TypeId × Descriptor → TypeId × Descriptor → Prop
  | here {x} (h : d.next? stop x.2 = none) : Ends d stop 0 x x
  | step {n x y z} (h : d.next? stop x.2 = some y) (hrest : Ends d stop n y z) :
      Ends d stop (n + 1) x z

theorem find?_of_next? {t : Descriptor} {y : TypeId × Descriptor}
    (h : d.next? stop t = some y) : d.find? y.1 = some y.2 := by
  unfold next? at h
  split at h
  · cases h
  · exact find?_of_follow? h

theorem Ends.unique {n m : Nat} {x y z : TypeId × Descriptor} (h : d.Ends stop n x y)
    (h' : d.Ends stop m x z) : n = m ∧ y = z := by
  induction h generalizing m with
  | here hx =>
      cases h' with
      | here => exact ⟨rfl, rfl⟩
      | step hnext => simp [hx] at hnext
  | step hx _ ih =>
      cases h' with
      | here hnone => simp [hx] at hnone
      | step hnext hrest =>
          rw [hx] at hnext
          cases hnext
          obtain ⟨rfl, hend⟩ := ih hrest
          exact ⟨rfl, hend⟩

/-- The handles that a chain comes to before it ends are different, and each denotes a descriptor
from where the end is no further than from the start. -/
theorem Ends.exists_trail {n : Nat} {x y : TypeId × Descriptor} (h : d.Ends stop n x y)
    (hx : d.find? x.1 = some x.2) :
    ∃ trail : List TypeId, trail.length = n + 1 ∧ trail.Nodup ∧
      ∀ id ∈ trail, ∃ m ≤ n, ∃ t, d.find? id = some t ∧ d.Ends stop m (id, t) y := by
  induction h with
  | @here x hnone =>
      refine ⟨[x.1], rfl, List.nodup_singleton _, ?_⟩
      intro id hid
      rw [List.mem_singleton.mp hid]
      exact ⟨0, Nat.le_refl 0, x.2, hx, .here hnone⟩
  | @step n x y z hnext hrest ih =>
      obtain ⟨trail, hlength, hnodup, htrail⟩ := ih (find?_of_next? hnext)
      have hstart : d.Ends stop (n + 1) x z := .step hnext hrest
      refine ⟨x.1 :: trail, by rw [List.length_cons, hlength], ?_, ?_⟩
      · refine List.nodup_cons.mpr ⟨?_, hnodup⟩
        intro hmem
        obtain ⟨m, hm, t, ht, hends⟩ := htrail x.1 hmem
        rw [hx] at ht
        cases ht
        have hsame : n + 1 = m := (hstart.unique hends).1
        omega
      · intro id hid
        rcases List.mem_cons.mp hid with rfl | hid
        · exact ⟨n + 1, Nat.le_refl _, x.2, hx, hstart⟩
        · obtain ⟨m, hm, t, ht, hends⟩ := htrail id hid
          exact ⟨m, by omega, t, ht, hends⟩

/-- A chain that ends has ended before it has taken as many steps as there are descriptors. -/
theorem Ends.lt_typeCount {n : Nat} {x y : TypeId × Descriptor} (h : d.Ends stop n x y)
    (hx : d.find? x.1 = some x.2) : n < d.typeCount := by
  obtain ⟨trail, hlength, hnodup, htrail⟩ := h.exists_trail hx
  have hsub : trail ⊆ d.typeIds := by
    intro id hid
    obtain ⟨m, -, t, ht, -⟩ := htrail id hid
    exact mem_typeIds.mpr (by rw [ht]; rfl)
  have hle : trail.length ≤ d.typeIds.length := (List.subperm_of_subset hnodup hsub).length_le
  rw [length_typeIds] at hle
  omega

/-! ### Walks -/

theorem walk_succ (bound : Nat) (x : TypeId × Descriptor) :
    d.walk stop (bound + 1) x = match d.next? stop x.2 with
      | none => .ok x
      | some next => d.walk stop bound next := by
  obtain ⟨id, t⟩ := x
  rw [walk]
  unfold next?
  split
  · rfl
  · rfl

/-- A walk answers the end of a chain that ends within its steps, and nothing else. -/
theorem walk_eq_ok_iff {bound : Nat} {x y : TypeId × Descriptor} :
    d.walk stop bound x = .ok y ↔ ∃ n < bound, d.Ends stop n x y := by
  induction bound generalizing x with
  | zero => simp [walk]
  | succ bound ih =>
      rw [walk_succ]
      cases hnext : d.next? stop x.2 with
      | none =>
          constructor
          · intro h
            cases h
            exact ⟨0, by omega, .here hnext⟩
          · rintro ⟨n, -, hends⟩
            rw [(hends.unique (.here hnext)).2]
      | some next =>
          dsimp only
          rw [ih]
          constructor
          · rintro ⟨n, hn, hends⟩
            exact ⟨n + 1, by omega, .step hnext hends⟩
          · rintro ⟨n, hn, hends⟩
            cases hends with
            | here hnone => simp [hnext] at hnone
            | @step n _ _ _ hstep hrest =>
                rw [hnext] at hstep
                cases hstep
                exact ⟨n, by omega, hrest⟩

theorem exists_of_walk_eq_error {bound : Nat} {x : TypeId × Descriptor} {err : Error}
    (h : d.walk stop bound x = .error err) : ∃ name, err = .cyclicTypeGraph name := by
  induction bound generalizing x with
  | zero =>
      cases h
      exact ⟨x.2.name, rfl⟩
  | succ bound ih =>
      rw [walk_succ] at h
      split at h
      · cases h
      · exact ih h

/-- Two refusals because of a cycle are the same where the name they give does not matter. -/
theorem mapError_eq_of_cyclic {κ α : Type} {p : Error → κ}
    (hp : ∀ a b, p (.cyclicTypeGraph a) = p (.cyclicTypeGraph b)) {r r' : Except Error α}
    (hr : ∃ name, r = .error (.cyclicTypeGraph name))
    (hr' : ∃ name, r' = .error (.cyclicTypeGraph name)) : r.mapError p = r'.mapError p := by
  obtain ⟨name, rfl⟩ := hr
  obtain ⟨name', rfl⟩ := hr'
  exact congrArg Except.error (hp name name')

/-- With as many steps as there are descriptors, the result of a walk is that of any number of
steps more, but for the name that a refusal gives. -/
theorem walk_bound {κ : Type} {p : Error → κ}
    (hp : ∀ a b, p (.cyclicTypeGraph a) = p (.cyclicTypeGraph b)) {x : TypeId × Descriptor}
    (hx : d.find? x.1 = some x.2) {bound bound' : Nat} (h : d.typeCount ≤ bound)
    (h' : d.typeCount ≤ bound') :
    (d.walk stop bound x).mapError p = (d.walk stop bound' x).mapError p := by
  by_cases hends : ∃ n y, d.Ends stop n x y
  · obtain ⟨n, y, hends⟩ := hends
    have hn := hends.lt_typeCount hx
    rw [walk_eq_ok_iff.mpr ⟨n, by omega, hends⟩, walk_eq_ok_iff.mpr ⟨n, by omega, hends⟩]
  · have hrefused : ∀ bound, ∃ name, d.walk stop bound x = .error (.cyclicTypeGraph name) := by
      intro bound
      cases hw : d.walk stop bound x with
      | ok y =>
          obtain ⟨n, -, hy⟩ := walk_eq_ok_iff.mp hw
          exact absurd ⟨n, y, hy⟩ hends
      | error err =>
          obtain ⟨name, rfl⟩ := exists_of_walk_eq_error hw
          exact ⟨name, rfl⟩
    exact mapError_eq_of_cyclic hp (hrefused bound) (hrefused bound')

/-! ### Descriptions -/

/-- Where a description ends: behind neither an alias nor a collection. -/
def endsText (t : Descriptor) : Bool :=
  !t.continues

theorem continuation?_eq (t : Descriptor) :
    d.continuation? t = (d.next? endsText t).map Prod.snd := by
  unfold continuation? next? endsText
  cases t.continues <;> rfl

theorem continuation?_of_none {t : Descriptor} (h : d.next? endsText t = none) :
    d.continuation? t = none := by
  rw [continuation?_eq, h, Option.map_none]

theorem continuation?_of_some {t : Descriptor} {next : TypeId × Descriptor}
    (h : d.next? endsText t = some next) : d.continuation? t = some next.2 := by
  rw [continuation?_eq, h, Option.map_some]

theorem describe_zero_of_some {t next : Descriptor} (h : d.continuation? t = some next) :
    d.describe 0 t = .error t.cyclic := by
  unfold describe
  rw [h]

/-- The description of a chain that ends takes as many further segments as there are steps. -/
theorem Ends.describe_eq {n : Nat} {x y : TypeId × Descriptor} (h : d.Ends endsText n x y)
    {budget : Nat} (hn : n ≤ budget) : d.describe budget x.2 = d.describe n x.2 := by
  induction h generalizing budget with
  | here hnone =>
      have hc := continuation?_of_none hnone
      rw [describe_of_none hc, describe_of_none hc]
  | step hnext _ ih =>
      have hc := continuation?_of_some hnext
      obtain ⟨budget, rfl⟩ := Nat.exists_eq_add_of_le' (Nat.one_le_of_lt hn)
      rw [describe_succ_of_some hc, describe_succ_of_some hc, ih (by omega)]

theorem Ends.exists_describe_eq_ok {n : Nat} {x y : TypeId × Descriptor}
    (h : d.Ends endsText n x y) {budget : Nat} (hn : n ≤ budget) :
    ∃ text, d.describe budget x.2 = .ok text := by
  rw [h.describe_eq hn]
  clear hn
  induction h with
  | here hnone => exact ⟨_, describe_of_none (continuation?_of_none hnone) 0⟩
  | step hnext _ ih =>
      obtain ⟨text, htext⟩ := ih
      rw [describe_succ_of_some (continuation?_of_some hnext), htext]
      exact ⟨_, rfl⟩

/-- A description is refused only where the chain does not end within its budget. -/
theorem ends_or_describe_eq_error (budget : Nat) (x : TypeId × Descriptor) :
    (∃ n ≤ budget, ∃ y, d.Ends endsText n x y) ∨
      ∃ name, d.describe budget x.2 = .error (.cyclicTypeGraph name) := by
  induction budget generalizing x with
  | zero =>
      cases hnext : d.next? endsText x.2 with
      | none => exact .inl ⟨0, Nat.le_refl 0, x, .here hnext⟩
      | some next =>
          exact .inr ⟨x.2.name, describe_zero_of_some (continuation?_of_some hnext)⟩
  | succ budget ih =>
      cases hnext : d.next? endsText x.2 with
      | none => exact .inl ⟨0, Nat.zero_le _, x, .here hnext⟩
      | some next =>
          rcases ih next with ⟨n, hn, y, hends⟩ | ⟨name, hname⟩
          · exact .inl ⟨n + 1, by omega, y, .step hnext hends⟩
          · refine .inr ⟨name, ?_⟩
            rw [describe_succ_of_some (continuation?_of_some hnext), hname]
            rfl

/-- With as many further segments as there are descriptors, a description is that of any larger
budget, but for the name that a refusal gives. -/
theorem describe_bound {κ : Type} {p : Error → κ}
    (hp : ∀ a b, p (.cyclicTypeGraph a) = p (.cyclicTypeGraph b)) {x : TypeId × Descriptor}
    (hx : d.find? x.1 = some x.2) {budget budget' : Nat} (h : d.typeCount ≤ budget)
    (h' : d.typeCount ≤ budget') :
    (d.describe budget x.2).mapError p = (d.describe budget' x.2).mapError p := by
  by_cases hends : ∃ n y, d.Ends endsText n x y
  · obtain ⟨n, y, hends⟩ := hends
    have hn := hends.lt_typeCount hx
    have hle : n ≤ budget := by omega
    have hle' : n ≤ budget' := by omega
    rw [hends.describe_eq hle, hends.describe_eq hle']
  · have hrefused : ∀ budget, ∃ name,
        d.describe budget x.2 = .error (.cyclicTypeGraph name) := by
      intro budget
      rcases ends_or_describe_eq_error budget x with ⟨n, -, y, hy⟩ | hname
      · exact absurd ⟨n, y, hy⟩ hends
      · exact hname
    exact mapError_eq_of_cyclic hp (hrefused budget) (hrefused budget')

end ExpressModel.Dictionary
