import Mathlib
import ExpressModel.Proofs.Declaration.Traversal
import ExpressModel.Proofs.Resolve.Acyclic
import ExpressModel.Proofs.Resolve.Chain

/-! # Positions of a referent chain

The chain of a handle has a descriptor at each position up to its end, if it has one (`chainAt?`).
The walks along it keep no record of where they have been; they count their steps.  That is enough:
of more positions than there are descriptors two hold the same one, so whatever stands so far along
a chain stands on a cycle (`exists_return_of_typeCount_le`).

So a walk answers exactly the first position at which it stops or the end of the chain
(`walkFrom_eq_ok_iff`), a chain that ends is never refused, however long, and a refusal names a
descriptor on the cycle that the chain enters (`exists_cycle_of_walkFrom`).  `walks_exact` spells
this out for the walk to the end, the walk behind aliases and the search for a name. -/

namespace ExpressModel.Dictionary

open Traversal (bind_eq_ok_iff map_eq_ok_iff map_eq_error_iff)

/-- The descriptor at a position of the referent chain of a handle, with its own handle. -/
def chainAt? (d : Dictionary) (id : TypeId) : Nat → Option (TypeId × Descriptor)
  | 0 => (d.find? id).map (id, ·)
  | n + 1 => (d.chainAt? id n).bind fun x => d.follow? x.2

def ChainEnds (d : Dictionary) (id : TypeId) : Prop :=
  ∃ n, d.chainAt? id n = none

/-- The last descriptor of the chain of the handle. -/
def LastOnChain (d : Dictionary) (id : TypeId) (x : TypeId × Descriptor) : Prop :=
  ∃ n, d.chainAt? id n = some x ∧ d.chainAt? id (n + 1) = none

/-- The first descriptor of the chain of the handle of which the condition holds. -/
def FirstOnChain (d : Dictionary) (id : TypeId) (p : Descriptor → Prop)
    (x : TypeId × Descriptor) : Prop :=
  ∃ n, d.chainAt? id n = some x ∧ p x.2 ∧ ∀ m < n, ∀ y, d.chainAt? id m = some y → ¬ p y.2

/-- The chain of the handle enters a cycle, and the descriptor is on it. -/
def EntersCycleAt (d : Dictionary) (id : TypeId) (x : TypeId × Descriptor) : Prop :=
  (∃ n, d.chainAt? id n = some x) ∧ ∃ n > 0, d.chainAt? x.1 n = some x

variable {d : Dictionary} {stop : Descriptor → Bool} {id : TypeId}

/-! ### Positions -/

theorem chainAt?_zero {t : Descriptor} (hid : d.find? id = some t) :
    d.chainAt? id 0 = some (id, t) := by
  rw [chainAt?, hid]
  rfl

theorem find?_of_chainAt? {n : Nat} {x : TypeId × Descriptor} (h : d.chainAt? id n = some x) :
    d.find? x.1 = some x.2 := by
  cases n with
  | zero =>
      obtain ⟨t, ht, rfl⟩ := Option.map_eq_some_iff.mp h
      exact ht
  | succ n =>
      obtain ⟨y, -, hy⟩ := Option.bind_eq_some_iff.mp h
      exact find?_of_follow? hy

/-- What stands further along a chain stands on the chain of each descriptor before it. -/
theorem chainAt?_add (m n : Nat) :
    d.chainAt? id (m + n) = (d.chainAt? id m).bind fun x => d.chainAt? x.1 n := by
  induction n with
  | zero =>
      cases hx : d.chainAt? id m with
      | none => rfl
      | some x =>
          exact (chainAt?_zero (find?_of_chainAt? hx)).symm
  | succ n ih =>
      rw [← Nat.add_assoc, chainAt?, ih, Option.bind_assoc]
      rfl

theorem chainAt?_add_of_some {m : Nat} {x : TypeId × Descriptor} (h : d.chainAt? id m = some x)
    (n : Nat) : d.chainAt? id (m + n) = d.chainAt? x.1 n := by
  rw [chainAt?_add, h, Option.bind_some]

/-- The chain of a descriptor goes on as that of its referent. -/
theorem chainAt?_succ_of_follow? {t : Descriptor} {x : TypeId × Descriptor}
    (hid : d.find? id = some t) (h : d.follow? t = some x) (n : Nat) :
    d.chainAt? id (n + 1) = d.chainAt? x.1 n := by
  have hone : d.chainAt? id 1 = some x := by
    rw [chainAt?, chainAt?_zero hid]
    exact h
  rw [Nat.add_comm]
  exact chainAt?_add_of_some hone n

theorem follow?_eq_none_iff_chainAt? {n : Nat} {x : TypeId × Descriptor}
    (h : d.chainAt? id n = some x) : d.follow? x.2 = none ↔ d.chainAt? id (n + 1) = none := by
  rw [chainAt?, h, Option.bind_some]

theorem exists_chainAt?_of_le {m n : Nat} {x : TypeId × Descriptor}
    (h : d.chainAt? id n = some x) (hle : m ≤ n) : ∃ y, d.chainAt? id m = some y := by
  obtain ⟨k, rfl⟩ := Nat.exists_eq_add_of_le hle
  rw [chainAt?_add] at h
  obtain ⟨y, hy, -⟩ := Option.bind_eq_some_iff.mp h
  exact ⟨y, hy⟩

/-! ### Cycles -/

/-- Of more positions than there are descriptors, two hold the same one. -/
theorem exists_chainAt?_repeated {n : Nat} {x : TypeId × Descriptor}
    (h : d.chainAt? id n = some x) (hn : d.typeCount ≤ n) :
    ∃ i j y, i < j ∧ j ≤ n ∧ d.chainAt? id i = some y ∧ d.chainAt? id j = some y := by
  have hcard : (d.typeIds.map some).toFinset.card < (Finset.range (n + 1)).card := by
    have hle := List.toFinset_card_le (d.typeIds.map some)
    rw [List.length_map, length_typeIds] at hle
    rw [Finset.card_range]
    omega
  have hmaps : ∀ k ∈ Finset.range (n + 1),
      (d.chainAt? id k).map Prod.fst ∈ (d.typeIds.map some).toFinset := by
    intro k hk
    obtain ⟨y, hy⟩ := exists_chainAt?_of_le h (Finset.mem_range_succ_iff.mp hk)
    rw [hy, List.mem_toFinset]
    exact List.mem_map_of_mem (mem_typeIds.mpr (by rw [find?_of_chainAt? hy]; rfl))
  obtain ⟨i, hi, j, hj, hne, heq⟩ := Finset.exists_ne_map_eq_of_card_lt_of_maps_to hcard hmaps
  rw [Finset.mem_range_succ_iff] at hi hj
  have hsame : d.chainAt? id i = d.chainAt? id j := by
    obtain ⟨⟨a, t⟩, hy⟩ := exists_chainAt?_of_le h hi
    obtain ⟨⟨b, u⟩, hz⟩ := exists_chainAt?_of_le h hj
    have ht := find?_of_chainAt? hy
    have hu := find?_of_chainAt? hz
    rw [hy, hz] at heq
    cases heq
    rw [ht] at hu
    cases hu
    rw [hy, hz]
  rcases Nat.lt_or_gt_of_ne hne with hlt | hlt
  · obtain ⟨y, hy⟩ := exists_chainAt?_of_le h hi
    exact ⟨i, j, y, hlt, hj, hy, hsame ▸ hy⟩
  · obtain ⟨y, hy⟩ := exists_chainAt?_of_le h hj
    exact ⟨j, i, y, hlt, hi, hy, hsame ▸ hy⟩

/-- Where a descriptor comes up twice, all behind it comes up again and again. -/
theorem return_of_repeated {position : TypeId → Nat → Option (TypeId × Descriptor)}
    (hadd : ∀ id m x, position id m = some x → ∀ n, position id (m + n) = position x.1 n)
    {i j n : Nat} {x y : TypeId × Descriptor} (hlt : i < j) (hj : j ≤ n)
    (hi : position id i = some y) (hj' : position id j = some y) (hn : position id n = some x) :
    position x.1 (j - i) = some x := by
  -- from the repeated descriptor on, the positions repeat themselves every `j - i` steps
  calc position x.1 (j - i)
      = position id (n + (j - i)) := (hadd id n x hn _).symm
    _ = position id (j + (n - i)) := by congr 1; omega
    _ = position y.1 (n - i) := hadd id j y hj' _
    _ = position id (i + (n - i)) := (hadd id i y hi _).symm
    _ = some x := by rw [Nat.add_sub_cancel' (by omega)]; exact hn

/-- What stands as far along a chain as there are descriptors is on a cycle. -/
theorem exists_return_of_typeCount_le {n : Nat} {x : TypeId × Descriptor}
    (h : d.chainAt? id n = some x) (hn : d.typeCount ≤ n) :
    ∃ k > 0, d.chainAt? x.1 k = some x := by
  obtain ⟨i, j, y, hlt, hj, hy, hy'⟩ := exists_chainAt?_repeated h hn
  exact ⟨j - i, by omega,
    return_of_repeated (fun _ _ _ => chainAt?_add_of_some) hlt hj hy hy' h⟩

/-! ### Walks -/

theorem next?_eq_none_iff {t : Descriptor} :
    d.next? stop t = none ↔ stop t = true ∨ d.follow? t = none := by
  unfold next?
  cases stop t <;> simp

theorem next?_eq_some_iff {t : Descriptor} {x : TypeId × Descriptor} :
    d.next? stop t = some x ↔ stop t = false ∧ d.follow? t = some x := by
  unfold next?
  cases stop t <;> simp

theorem ends_iff {n : Nat} {t : Descriptor} {x : TypeId × Descriptor}
    (hid : d.find? id = some t) :
    d.Ends stop n (id, t) x ↔ d.chainAt? id n = some x ∧ d.next? stop x.2 = none ∧
      ∀ m < n, ∀ y, d.chainAt? id m = some y → stop y.2 = false := by
  induction n generalizing id t with
  | zero =>
      rw [chainAt?_zero hid]
      constructor
      · intro h
        cases h with
        | here hnone => exact ⟨rfl, hnone, fun m hm => absurd hm (Nat.not_lt_zero m)⟩
      · rintro ⟨hx, hnone, -⟩
        cases hx
        exact .here hnone
  | succ n ih =>
      constructor
      · intro h
        cases h with
        | @step _ _ y _ hnext hrest =>
            obtain ⟨hgo, hfollow⟩ := next?_eq_some_iff.mp hnext
            obtain ⟨hx, hnone, hbefore⟩ := (ih (find?_of_follow? hfollow)).mp hrest
            have hshift := chainAt?_succ_of_follow? hid hfollow
            refine ⟨by rw [hshift]; exact hx, hnone, ?_⟩
            intro m hm z hz
            cases m with
            | zero =>
                rw [chainAt?_zero hid] at hz
                cases hz
                exact hgo
            | succ m =>
                rw [hshift] at hz
                exact hbefore m (by omega) z hz
      · rintro ⟨hx, hnone, hbefore⟩
        have hgo : stop t = false := hbefore 0 (Nat.zero_lt_succ n) (id, t) (chainAt?_zero hid)
        obtain ⟨y, hy⟩ := exists_chainAt?_of_le hx (Nat.le_add_left 1 n)
        have hfollow : d.follow? t = some y := by
          rw [chainAt?, chainAt?_zero hid, Option.bind_some] at hy
          exact hy
        have hshift := chainAt?_succ_of_follow? hid hfollow
        rw [hshift] at hx
        refine .step (next?_eq_some_iff.mpr ⟨hgo, hfollow⟩)
          ((ih (find?_of_follow? hfollow)).mpr ⟨hx, hnone, ?_⟩)
        intro m hm z hz
        rw [← hshift] at hz
        exact hbefore (m + 1) (by omega) z hz

/-- The steps that a walk may take suffice for every chain that ends. -/
theorem walkFrom_eq_ok_iff_ends {x : TypeId × Descriptor} :
    d.walkFrom stop id = .ok x ↔ ∃ n t, d.find? id = some t ∧ d.Ends stop n (id, t) x := by
  unfold walkFrom
  rw [bind_eq_ok_iff]
  constructor
  · rintro ⟨t, ht, hwalk⟩
    obtain ⟨n, -, hends⟩ := walk_eq_ok_iff.mp hwalk
    exact ⟨n, t, require_eq_ok_iff.mp ht, hends⟩
  · rintro ⟨n, t, ht, hends⟩
    have hlt := hends.lt_typeCount ht
    exact ⟨t, require_eq_ok_iff.mpr ht, walk_eq_ok_iff.mpr ⟨n, by omega, hends⟩⟩

/-- A walk answers the first descriptor of the chain at which it stops or the chain ends. -/
theorem walkFrom_eq_ok_iff {x : TypeId × Descriptor} :
    d.walkFrom stop id = .ok x ↔ ∃ n, d.chainAt? id n = some x ∧
      (stop x.2 = true ∨ d.chainAt? id (n + 1) = none) ∧
      ∀ m < n, ∀ y, d.chainAt? id m = some y → stop y.2 = false := by
  rw [walkFrom_eq_ok_iff_ends]
  constructor
  · rintro ⟨n, t, hid, hends⟩
    obtain ⟨hx, hnone, hbefore⟩ := (ends_iff hid).mp hends
    rw [next?_eq_none_iff, follow?_eq_none_iff_chainAt? hx] at hnone
    exact ⟨n, hx, hnone, hbefore⟩
  · rintro ⟨n, hx, hnone, hbefore⟩
    obtain ⟨y, hy⟩ := exists_chainAt?_of_le hx (Nat.zero_le n)
    obtain ⟨t, hid, -⟩ := Option.map_eq_some_iff.mp hy
    rw [← follow?_eq_none_iff_chainAt? hx, ← next?_eq_none_iff] at hnone
    exact ⟨n, t, hid, (ends_iff hid).mpr ⟨hx, hnone, hbefore⟩⟩

theorem chainAt?_of_walk_eq_error {bound : Nat} {t : Descriptor} {err : Error}
    (hid : d.find? id = some t) (h : d.walk stop bound (id, t) = .error err) :
    ∃ x, d.chainAt? id bound = some x ∧ err = x.2.cyclic := by
  induction bound generalizing id t with
  | zero =>
      rw [walk] at h
      exact ⟨(id, t), chainAt?_zero hid, (Except.error.inj h).symm⟩
  | succ bound ih =>
      rw [walk_succ] at h
      cases hnext : d.next? stop t with
      | none => simp [hnext] at h
      | some y =>
          rw [hnext] at h
          have hfollow := (next?_eq_some_iff.mp hnext).2
          obtain ⟨x, hx, rfl⟩ := ih (find?_of_follow? hfollow) h
          exact ⟨x, by rw [chainAt?_succ_of_follow? hid hfollow]; exact hx, rfl⟩

/-- A walk is refused only on a cycle, and names a descriptor on it. -/
theorem exists_cycle_of_walkFrom {err : Error} (hid : (d.find? id).isSome)
    (h : d.walkFrom stop id = .error err) :
    ∃ x, d.EntersCycleAt id x ∧ err = x.2.cyclic := by
  obtain ⟨t, ht⟩ := Option.isSome_iff_exists.mp hid
  unfold walkFrom at h
  rw [require_eq_ok_iff.mpr ht] at h
  obtain ⟨x, hx, rfl⟩ := chainAt?_of_walk_eq_error ht h
  exact ⟨x, ⟨⟨_, hx⟩, exists_return_of_typeCount_le hx (Nat.le_succ _)⟩, rfl⟩

theorem EntersCycleAt.not_chainEnds {x : TypeId × Descriptor} (h : d.EntersCycleAt id x) :
    ¬ d.ChainEnds id := by
  obtain ⟨⟨n, hn⟩, k, hk, hreturn⟩ := h
  have hround : ∀ m, d.chainAt? x.1 (m * k) = some x := by
    intro m
    induction m with
    | zero =>
        rw [Nat.zero_mul]
        exact chainAt?_zero (find?_of_chainAt? hn)
    | succ m ih => rw [Nat.succ_mul, chainAt?_add_of_some ih, hreturn]
  rintro ⟨m, hm⟩
  have hlong : d.chainAt? id (n + m * k) = some x := by
    rw [chainAt?_add_of_some hn, hround]
  have hle : m ≤ n + m * k := Nat.le_add_left_of_le (Nat.le_mul_of_pos_right m hk)
  obtain ⟨y, hy⟩ := exists_chainAt?_of_le hlong hle
  rw [hm] at hy
  cases hy

theorem exists_walkFrom_of_chainEnds (hid : (d.find? id).isSome) (h : d.ChainEnds id)
    (stop : Descriptor → Bool) : ∃ x, d.walkFrom stop id = .ok x := by
  cases hwalk : d.walkFrom stop id with
  | ok x => exact ⟨x, rfl⟩
  | error err =>
      obtain ⟨x, hcycle, -⟩ := exists_cycle_of_walkFrom hid hwalk
      exact absurd h hcycle.not_chainEnds

/-! ### Exactness -/

/-- The descriptor stands on the chain of the handle where it may be asked for the name: no unnamed
descriptor and none of the name is before it. -/
def NameAsked (d : Dictionary) (id : TypeId) (name : String) (n : Nat)
    (x : TypeId × Descriptor) : Prop :=
  d.chainAt? id n = some x ∧
    ∀ m < n, ∀ y, d.chainAt? id m = some y → y.2.isNamed = true ∧ y.2.ownName name = false

/-- The first descriptor of the chain that has the name, no unnamed one being before it. -/
def FirstNamed (d : Dictionary) (id : TypeId) (name : String) (found : TypeId) : Prop :=
  ∃ n t, d.NameAsked id name n (found, t) ∧ t.ownName name = true

/-- The chain comes to an unnamed descriptor or to its end before it comes to the name. -/
def NoneNamed (d : Dictionary) (id : TypeId) (name : String) : Prop :=
  ∃ n x, d.NameAsked id name n x ∧ x.2.ownName name = false ∧
    (x.2.isNamed = false ∨ d.chainAt? id (n + 1) = none)

theorem base_eq_ok_iff {found : TypeId} :
    d.base id = .ok found ↔ ∃ t, d.LastOnChain id (found, t) := by
  unfold base chainEnd
  rw [map_eq_ok_iff]
  constructor
  · rintro ⟨⟨found, t⟩, hwalk, rfl⟩
    obtain ⟨n, hx, hstop, -⟩ := walkFrom_eq_ok_iff.mp hwalk
    exact ⟨t, n, hx, hstop.resolve_left Bool.false_ne_true⟩
  · rintro ⟨t, n, hx, hlast⟩
    exact ⟨(found, t), walkFrom_eq_ok_iff.mpr ⟨n, hx, .inr hlast, fun _ _ _ _ => rfl⟩, rfl⟩

theorem exists_lastOnChain_iff (hid : (d.find? id).isSome) :
    (∃ x, d.LastOnChain id x) ↔ d.ChainEnds id := by
  constructor
  · rintro ⟨x, n, -, hlast⟩
    exact ⟨n + 1, hlast⟩
  · intro h
    obtain ⟨x, hx⟩ := exists_walkFrom_of_chainEnds hid h fun _ => false
    obtain ⟨n, hn, hstop, -⟩ := walkFrom_eq_ok_iff.mp hx
    exact ⟨x, n, hn, hstop.resolve_left Bool.false_ne_true⟩

theorem unalias_eq_ok_iff {x : TypeId × Descriptor} :
    d.unalias id = .ok x ↔ d.FirstOnChain id (fun t => t.kind ≠ .reference) x ∨
      d.LastOnChain id x ∧ ∀ n y, d.chainAt? id n = some y → y.2.kind = .reference := by
  unfold unalias
  rw [walkFrom_eq_ok_iff]
  constructor
  · rintro ⟨n, hx, hstop, hbefore⟩
    have halias : ∀ m < n, ∀ y, d.chainAt? id m = some y → y.2.kind = .reference :=
      fun m hm y hy => by simpa using hbefore m hm y hy
    by_cases hkind : x.2.kind = .reference
    · have hlast : d.chainAt? id (n + 1) = none := hstop.resolve_left (by simpa using hkind)
      refine .inr ⟨⟨n, hx, hlast⟩, ?_⟩
      intro m y hy
      rcases Nat.lt_trichotomy m n with hm | rfl | hm
      · exact halias m hm y hy
      · rw [hx] at hy
        cases hy
        exact hkind
      · obtain ⟨z, hz⟩ := exists_chainAt?_of_le hy hm
        rw [hlast] at hz
        cases hz
    · exact .inl ⟨n, hx, hkind, fun m hm y hy => not_not_intro (halias m hm y hy)⟩
  · rintro (⟨n, hx, hkind, hbefore⟩ | ⟨⟨n, hx, hlast⟩, halias⟩)
    · exact ⟨n, hx, .inl (decide_eq_true hkind),
        fun m hm y hy => decide_eq_false (hbefore m hm y hy)⟩
    · exact ⟨n, hx, .inr hlast,
        fun m _ y hy => decide_eq_false (not_not_intro (halias m y hy))⟩

/-- The search for a name stops at an unnamed descriptor and at one of the name. -/
theorem nameStop_eq_false_iff {t : Descriptor} {name : String} :
    (!t.isNamed || t.ownName name) = false ↔ t.isNamed = true ∧ t.ownName name = false := by
  simp

theorem isANamed?_eq_ok_iff {name : String} {r : Option TypeId} :
    d.isANamed? id name = .ok r ↔ ∃ n x, d.NameAsked id name n x ∧
      (x.2.isNamed = false ∨ x.2.ownName name = true ∨ d.chainAt? id (n + 1) = none) ∧
      (if x.2.ownName name then some x.1 else none) = r := by
  unfold isANamed? NameAsked
  simp only [map_eq_ok_iff, walkFrom_eq_ok_iff, nameStop_eq_false_iff]
  constructor
  · rintro ⟨x, ⟨n, hx, hstop, hbefore⟩, rfl⟩
    refine ⟨n, x, ⟨hx, hbefore⟩, ?_, rfl⟩
    simpa [or_assoc] using hstop
  · rintro ⟨n, x, ⟨hx, hbefore⟩, hstop, rfl⟩
    refine ⟨x, ⟨n, hx, ?_, hbefore⟩, rfl⟩
    simpa [or_assoc] using hstop

theorem isANamed?_eq_ok_some_iff {name : String} {found : TypeId} :
    d.isANamed? id name = .ok (some found) ↔ d.FirstNamed id name found := by
  rw [isANamed?_eq_ok_iff]
  constructor
  · rintro ⟨n, ⟨a, t⟩, hasked, -, hfound⟩
    by_cases hname : t.ownName name = true
    · rw [if_pos hname] at hfound
      cases hfound
      exact ⟨n, t, hasked, hname⟩
    · rw [if_neg hname] at hfound
      cases hfound
  · rintro ⟨n, t, hasked, hname⟩
    exact ⟨n, (found, t), hasked, .inr (.inl hname), if_pos hname⟩

theorem isANamed?_eq_ok_none_iff {name : String} :
    d.isANamed? id name = .ok none ↔ d.NoneNamed id name := by
  rw [isANamed?_eq_ok_iff]
  constructor
  · rintro ⟨n, x, hasked, hstop, hfound⟩
    by_cases hname : x.2.ownName name = true
    · rw [if_pos hname] at hfound
      cases hfound
    · refine ⟨n, x, hasked, Bool.eq_false_of_not_eq_true hname, ?_⟩
      exact hstop.imp_right fun h => h.resolve_left hname
  · rintro ⟨n, x, hasked, hname, hstop⟩
    refine ⟨n, x, hasked, hstop.imp_right .inr, ?_⟩
    rw [hname, if_neg Bool.false_ne_true]

/-- What the walks along the chain of a handle answer, and when and how they are refused. -/
structure WalksExactly (d : Dictionary) (id : TypeId) : Prop where
  /-- The walk to the end answers the last descriptor, which there is where the chain ends. -/
  base : ∀ found, d.base id = .ok found ↔ ∃ t, d.LastOnChain id (found, t)
  base_iff : (∃ found, d.base id = .ok found) ↔ d.ChainEnds id
  /-- The walk behind aliases answers the first descriptor that is none, or the last alias. -/
  unaliased : ∀ found, d.unaliased id = .ok found ↔
    ∃ t, d.FirstOnChain id (fun u => u.kind ≠ .reference) (found, t) ∨
      d.LastOnChain id (found, t) ∧ ∀ n y, d.chainAt? id n = some y → y.2.kind = .reference
  /-- The search for a name answers the first descriptor that has it, or none if an unnamed one
  or the end comes first. -/
  named : ∀ name found, d.isANamed? id name = .ok (some found) ↔ d.FirstNamed id name found
  noneNamed : ∀ name, d.isANamed? id name = .ok none ↔ d.NoneNamed id name
  /-- Everything else is refused, with the name of a descriptor on the cycle. -/
  refused : ∀ err, (d.base id = .error err ∨ d.unaliased id = .error err ∨
      ∃ name, d.isANamed? id name = .error err) →
    ∃ x, d.EntersCycleAt id x ∧ err = .cyclicTypeGraph x.2.name
  /-- No walk along a chain that ends is refused. -/
  answered : d.ChainEnds id → (∃ found, d.base id = .ok found) ∧
    (∃ found, d.unaliased id = .ok found) ∧ ∀ name, ∃ r, d.isANamed? id name = .ok r

/-- The walks along referents are exact, on cycles and dangling referents too. -/
theorem walks_exact (hid : (d.find? id).isSome) : d.WalksExactly id where
  base _ := base_eq_ok_iff
  base_iff := by
    rw [← exists_lastOnChain_iff hid, Prod.exists]
    exact exists_congr fun _ => base_eq_ok_iff
  unaliased found := by
    unfold Dictionary.unaliased
    simp only [map_eq_ok_iff, unalias_eq_ok_iff, Prod.exists, exists_and_right, exists_eq_right]
  named _ _ := isANamed?_eq_ok_some_iff
  noneNamed _ := isANamed?_eq_ok_none_iff
  refused err h := by
    rcases h with h | h | ⟨name, h⟩
    · exact exists_cycle_of_walkFrom hid (map_eq_error_iff.mp h)
    · exact exists_cycle_of_walkFrom hid (map_eq_error_iff.mp h)
    · exact exists_cycle_of_walkFrom hid (map_eq_error_iff.mp h)
  answered hends := by
    have hwalk := exists_walkFrom_of_chainEnds hid hends
    refine ⟨?_, ?_, ?_⟩
    · obtain ⟨x, hx⟩ := hwalk fun _ => false
      exact ⟨x.1, map_eq_ok_iff.mpr ⟨x, hx, rfl⟩⟩
    · obtain ⟨x, hx⟩ := hwalk fun t => t.kind ≠ .reference
      exact ⟨x.1, map_eq_ok_iff.mpr ⟨x, hx, rfl⟩⟩
    · intro name
      obtain ⟨x, hx⟩ := hwalk fun t => !t.isNamed || t.ownName name
      exact ⟨_, map_eq_ok_iff.mpr ⟨x, hx, rfl⟩⟩

def aliasOf (name : String) (target : TypeId) : Descriptor where
  name := name
  description := name
  referent? := some target
  body := .plain .reference

/-- Aliases one behind the other as far as there are descriptors, the last one dangling. -/
def thread : Dictionary where
  config := {}
  descriptors := #[aliasOf "a" ⟨1⟩, aliasOf "b" ⟨2⟩, aliasOf "c" ⟨3⟩, aliasOf "d" ⟨4⟩]
  schemas := #[]

/-- Two aliases of each other, and an alias that leads to them. -/
def lasso : Dictionary where
  config := {}
  descriptors := #[aliasOf "a" ⟨1⟩, aliasOf "b" ⟨2⟩, aliasOf "c" ⟨1⟩]
  schemas := #[]

theorem walks_exact_lasso :
    (thread.find? ⟨0⟩).isSome ∧ thread.ChainEnds ⟨0⟩ ∧ thread.base ⟨0⟩ = .ok ⟨3⟩ ∧
      (lasso.find? ⟨0⟩).isSome ∧ ∃ x, lasso.EntersCycleAt ⟨0⟩ x ∧
        lasso.unaliased ⟨0⟩ = .error (.cyclicTypeGraph x.2.name) := by
  have hthread : (thread.find? ⟨0⟩).isSome := by rfl
  have hlasso : (lasso.find? ⟨0⟩).isSome := by rfl
  have hfound : thread.base ⟨0⟩ = .ok ⟨3⟩ := by cbv
  have hrefused : lasso.unaliased ⟨0⟩ = .error (.cyclicTypeGraph "c") := by cbv
  obtain ⟨x, hcycle, hname⟩ := (walks_exact hlasso).refused _ (.inr (.inl hrefused))
  exact ⟨hthread, (walks_exact hthread).base_iff.mp ⟨⟨3⟩, hfound⟩, hfound, hlasso, x, hcycle,
    by rw [hrefused, hname]⟩

end ExpressModel.Dictionary
