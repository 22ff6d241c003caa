import Mathlib
import ExpressModel.Proofs.Resolve.Referents

/-! # Segments of a description

The description of a type goes from an alias to what it refers to and from a collection to its
elements, and at every other type it is at an end, whatever that type refers to (`describedAt?`).
Where it comes to an end, it is the segments of the descriptors that it came to, joined by dashes
(`typeString_eq_ok`); where it does not, it is refused with the name of a descriptor on the cycle
that it goes round (`exists_typeString_eq_error`).  The budget is the number of descriptors, which
no description that ends uses up, so it is never the budget that decides.

This walk agrees with the chain of referents as long as it goes on (`describedAt?_eq_some_iff`),
but it may end where the chain goes on, and even where the chain enters a cycle. -/

namespace ExpressModel

open Traversal (map_eq_error_iff)

/-! ### Segments by kind -/

namespace Descriptor

/-- What the types say that need nothing but their kind. -/
def simpleWords : List (PrimitiveKind × String) :=
  [(.integer, "Integer"), (.real, "Real"), (.number, "Number"), (.string, "String"),
    (.binary, "Binary"), (.boolean, "Boolean: F, T"), (.logical, "Logical: F, T, U")]

/-- What a descriptor says about itself, for each kind. -/
structure SegmentByKind (t : Descriptor) : Prop where
  reference : t.kind = .reference →
    t.segment = (if t.isNamed then "TYPE " ++ t.name ++ " = " else "") ++ t.description
  enumeration : t.kind = .enumeration → t.segment =
    "Enumeration: " ++ (if t.isNamed then "TYPE " ++ t.name ++ " = " else "") ++ t.description
  /-- The simple types open like a declaration when a referent is set, be it there or not. -/
  simple : ∀ {words}, (t.kind, words) ∈ simpleWords →
    t.segment = (if t.referent?.isSome then "TYPE " ++ t.name ++ " = " else "") ++ words
  entity : t.kind = .entity → t.segment = "Entity: " ++ t.name
  described : t.kind.isAggregate = true ∨ t.kind = .select → t.segment = t.description
  unknown : t.kind = .generic ∨ t.kind = .unknown → t.segment = "Unknown"

theorem segmentByKind (t : Descriptor) : t.SegmentByKind := by
  refine ⟨?_, ?_, ?_, ?_, ?_, ?_⟩ <;> unfold segment openingIfNamed openingIfLinked opening
  · intro h
    rw [h]
  · intro h
    rw [h]
  · intro words h
    cases hkind : t.kind <;> simp_all [simpleWords]
  · intro h
    rw [h]
  · intro h
    cases hkind : t.kind <;> simp_all [PrimitiveKind.isAggregate]
  · rintro (h | h)
    · rw [h]
    · rw [h]

end Descriptor

namespace Dictionary

/-- The descriptor that the description of a handle comes to after so many others. -/
def describedAt? (d : Dictionary) (id : TypeId) : Nat → Option (TypeId × Descriptor)
  | 0 => (d.find? id).map (id, ·)
  | n + 1 => (d.describedAt? id n).bind fun x => if x.2.continues then d.follow? x.2 else none

/-- The segments of a description up to a position, in order. -/
def segments (d : Dictionary) (id : TypeId) (n : Nat) : List String :=
  (List.range (n + 1)).filterMap fun i => (d.describedAt? id i).map fun x => x.2.segment

/-- The description comes to a descriptor, and comes to it again from there. -/
def DescribedOnCycle (d : Dictionary) (id : TypeId) (x : TypeId × Descriptor) : Prop :=
  (∃ n, d.describedAt? id n = some x) ∧ ∃ n > 0, d.describedAt? x.1 n = some x

variable {d : Dictionary} {id : TypeId} {t : Descriptor} {x y : TypeId × Descriptor} {n : Nat}

/-! ### Positions -/

theorem describedAt?_zero (hid : d.find? id = some t) : d.describedAt? id 0 = some (id, t) := by
  rw [describedAt?, hid]
  rfl

/-- A description comes to what stands on the chain, as long as it goes on. -/
theorem describedAt?_eq_some_iff : d.describedAt? id n = some x ↔ d.chainAt? id n = some x ∧
    ∀ m < n, ∀ y, d.chainAt? id m = some y → y.2.continues = true := by
  induction n generalizing x with
  | zero =>
      rw [describedAt?, chainAt?]
      exact ⟨fun h => ⟨h, fun m hm => absurd hm (Nat.not_lt_zero m)⟩, And.left⟩
  | succ n ih =>
      rw [describedAt?, chainAt?, Option.bind_eq_some_iff, Option.bind_eq_some_iff]
      constructor
      · rintro ⟨y, hy, hnext⟩
        obtain ⟨hchain, hbefore⟩ := ih.mp hy
        obtain ⟨hgo, hfollow⟩ := Option.ite_none_right_eq_some.mp hnext
        refine ⟨⟨y, hchain, hfollow⟩, ?_⟩
        intro m hm z hz
        rcases Nat.lt_succ_iff_lt_or_eq.mp hm with hm | rfl
        · exact hbefore m hm z hz
        · rw [hchain] at hz
          cases hz
          exact hgo
      · rintro ⟨⟨y, hchain, hfollow⟩, hbefore⟩
        refine ⟨y, ih.mpr ⟨hchain, fun m hm => hbefore m (by omega)⟩, ?_⟩
        rw [if_pos (hbefore n (Nat.lt_succ_self n) y hchain)]
        exact hfollow

theorem find?_of_describedAt? (h : d.describedAt? id n = some x) : d.find? x.1 = some x.2 :=
  find?_of_chainAt? (describedAt?_eq_some_iff.mp h).1

/-- From each descriptor that a description comes to, it goes on as that one's own. -/
theorem describedAt?_add_of_some {m : Nat} (h : d.describedAt? id m = some x) (n : Nat) :
    d.describedAt? id (m + n) = d.describedAt? x.1 n := by
  induction n with
  | zero => rw [Nat.add_zero, h, describedAt?_zero (find?_of_describedAt? h)]
  | succ n ih => rw [← Nat.add_assoc, describedAt?, ih, describedAt?]

theorem describedAt?_succ_of_some (hx : d.describedAt? id n = some x) :
    d.describedAt? id (n + 1) = d.next? endsText x.2 := by
  rw [describedAt?, hx, Option.bind_some]
  unfold next? endsText
  cases x.2.continues <;> rfl

theorem describedAt?_succ (hid : d.find? id = some t) (hnext : d.next? endsText t = some x)
    (n : Nat) : d.describedAt? id (n + 1) = d.describedAt? x.1 n := by
  have hone : d.describedAt? id 1 = some x :=
    (describedAt?_succ_of_some (describedAt?_zero hid)).trans hnext
  rw [Nat.add_comm]
  exact describedAt?_add_of_some hone n

theorem segments_zero (hid : d.find? id = some t) : d.segments id 0 = [t.segment] := by
  unfold segments
  rw [List.range_one, List.filterMap_cons, describedAt?_zero hid]
  rfl

theorem exists_segments_eq_cons (hid : d.find? id = some t) (n : Nat) :
    ∃ rest, d.segments id n = t.segment :: rest := by
  unfold segments
  rw [List.range_succ_eq_map, List.filterMap_cons, describedAt?_zero hid]
  exact ⟨_, rfl⟩

theorem segments_succ (hid : d.find? id = some t) (hnext : d.next? endsText t = some x)
    (n : Nat) : d.segments id (n + 1) = t.segment :: d.segments x.1 n := by
  unfold segments
  rw [List.range_succ_eq_map, List.filterMap_cons, describedAt?_zero hid, List.filterMap_map]
  refine congrArg (t.segment :: ·) (List.filterMap_congr ?_)
  intro i _
  exact congrArg _ (describedAt?_succ hid hnext i)

/-! ### Descriptions -/

/-- A description that comes to an end is its segments, joined by dashes. -/
theorem Ends.describe_eq_ok (h : d.Ends endsText n x y) (hx : d.find? x.1 = some x.2) :
    d.describe n x.2 = .ok (" -- ".intercalate (d.segments x.1 n)) := by
  induction h with
  | here hnone =>
      rw [describe_of_none (continuation?_of_none hnone), segments_zero hx,
        String.intercalate_singleton]
  | @step n x y z hnext _ ih =>
      have hy : d.find? y.1 = some y.2 := find?_of_next? hnext
      obtain ⟨rest, hsegments⟩ := exists_segments_eq_cons hy n
      rw [describe_succ_of_some (continuation?_of_some hnext), ih hy, segments_succ hx hnext,
        hsegments, String.intercalate_cons_cons]
      rfl

/-- A description that is refused has used up its budget. -/
theorem describedAt?_of_describe_eq_error {budget : Nat} {err : Error}
    (hid : d.find? id = some t) (h : d.describe budget t = .error err) :
    ∃ x, d.describedAt? id budget = some x ∧ err = x.2.cyclic := by
  induction budget generalizing id t with
  | zero =>
      cases hnext : d.next? endsText t with
      | none =>
          rw [describe_of_none (continuation?_of_none hnext)] at h
          cases h
      | some y =>
          rw [describe_zero_of_some (continuation?_of_some hnext)] at h
          exact ⟨(id, t), describedAt?_zero hid, (Except.error.inj h).symm⟩
  | succ budget ih =>
      cases hnext : d.next? endsText t with
      | none =>
          rw [describe_of_none (continuation?_of_none hnext)] at h
          cases h
      | some y =>
          rw [describe_succ_of_some (continuation?_of_some hnext)] at h
          obtain ⟨x, hx, rfl⟩ := ih (find?_of_next? hnext) (map_eq_error_iff.mp h)
          exact ⟨x, by rw [describedAt?_succ hid hnext]; exact hx, rfl⟩

theorem ends_iff_describedAt? (hid : d.find? id = some t) : d.Ends endsText n (id, t) x ↔
    d.describedAt? id n = some x ∧ d.describedAt? id (n + 1) = none := by
  rw [ends_iff hid]
  constructor
  · rintro ⟨hchain, hend, hbefore⟩
    have hx : d.describedAt? id n = some x := by
      refine describedAt?_eq_some_iff.mpr ⟨hchain, ?_⟩
      intro m hm y hy
      simpa [endsText] using hbefore m hm y hy
    exact ⟨hx, by rw [describedAt?_succ_of_some hx, hend]⟩
  · rintro ⟨hx, hend⟩
    obtain ⟨hchain, hbefore⟩ := describedAt?_eq_some_iff.mp hx
    rw [describedAt?_succ_of_some hx] at hend
    refine ⟨hchain, hend, ?_⟩
    intro m hm y hy
    simpa [endsText] using hbefore m hm y hy

/-! ### Types in full -/

theorem typeString_eq (hid : d.find? id = some t) :
    d.typeString id = d.describe d.typeCount t := by
  unfold typeString
  rw [require_eq_ok_iff.mpr hid]
  rfl

theorem exists_find?_of_describedAt? (hx : d.describedAt? id n = some x) :
    ∃ t, d.find? id = some t := by
  obtain ⟨y, hy⟩ := exists_chainAt?_of_le (describedAt?_eq_some_iff.mp hx).1 (Nat.zero_le n)
  obtain ⟨t, hid, -⟩ := Option.map_eq_some_iff.mp hy
  exact ⟨t, hid⟩

/-- A type whose description comes to an end is described by its segments, however many. -/
theorem typeString_eq_ok (hx : d.describedAt? id n = some x)
    (hend : d.describedAt? id (n + 1) = none) :
    d.typeString id = .ok (" -- ".intercalate (d.segments id n)) := by
  obtain ⟨t, hid⟩ := exists_find?_of_describedAt? hx
  have hends := (ends_iff_describedAt? hid).mpr ⟨hx, hend⟩
  have hlt := hends.lt_typeCount hid
  rw [typeString_eq hid, hends.describe_eq (Nat.le_of_lt hlt)]
  exact hends.describe_eq_ok hid

/-- What stands as far along a description as there are descriptors is on a cycle of it. -/
theorem describedOnCycle_of_typeCount_le (hx : d.describedAt? id n = some x)
    (hn : d.typeCount ≤ n) : d.DescribedOnCycle id x := by
  obtain ⟨hchain, hbefore⟩ := describedAt?_eq_some_iff.mp hx
  obtain ⟨i, j, y, hlt, hj, hi, hj'⟩ := exists_chainAt?_repeated hchain hn
  have hposition : ∀ {k}, k ≤ n → d.chainAt? id k = some y → d.describedAt? id k = some y :=
    fun hk hy => describedAt?_eq_some_iff.mpr ⟨hy, fun m hm => hbefore m (by omega)⟩
  refine ⟨⟨n, hx⟩, j - i, by omega, ?_⟩
  exact return_of_repeated (fun _ _ _ => describedAt?_add_of_some) hlt hj
    (hposition (by omega) hi) (hposition hj hj') hx

/-- A type whose description never comes to an end is refused with the name of a descriptor on
the cycle. -/
theorem exists_typeString_eq_error (hgo : ∀ n, (d.describedAt? id n).isSome) :
    ∃ x, d.DescribedOnCycle id x ∧ d.typeString id = .error x.2.cyclic := by
  obtain ⟨y, hy⟩ := Option.isSome_iff_exists.mp (hgo 0)
  obtain ⟨t, hid⟩ := exists_find?_of_describedAt? hy
  rcases ends_or_describe_eq_error d.typeCount (id, t) with ⟨n, -, x, hends⟩ | ⟨name, hname⟩
  · have hend := ((ends_iff_describedAt? hid).mp hends).2
    have hmore := hgo (n + 1)
    rw [hend] at hmore
    cases hmore
  · obtain ⟨x, hx, hcyclic⟩ := describedAt?_of_describe_eq_error hid hname
    refine ⟨x, describedOnCycle_of_typeCount_le hx (Nat.le_refl _), ?_⟩
    rw [typeString_eq hid, hname, hcyclic]

/-- Before a description is at an end there is a last descriptor. -/
theorem exists_end_of_describedAt? (hid : (d.find? id).isSome)
    (h : ∃ n, d.describedAt? id n = none) :
    ∃ n x, d.describedAt? id n = some x ∧ d.describedAt? id (n + 1) = none := by
  obtain ⟨n, hn⟩ := h
  induction n with
  | zero =>
      obtain ⟨t, hid⟩ := Option.isSome_iff_exists.mp hid
      rw [describedAt?_zero hid] at hn
      cases hn
  | succ n ih =>
      cases hx : d.describedAt? id n with
      | none => exact ih hx
      | some x => exact ⟨n, x, hx, hn⟩

/-! ### Exactness -/

/-- What the description of a handle in full is, and when there is none. -/
structure DescribesChain (d : Dictionary) (id : TypeId) : Prop where
  /-- Where the description comes to an end, it is the segments up to there. -/
  ends : ∀ n, (d.describedAt? id n).isSome → d.describedAt? id (n + 1) = none →
    d.typeString id = .ok (" -- ".intercalate (d.segments id n))
  /-- Where it never does, it is refused with the name of a descriptor on the cycle. -/
  refused : (∀ n, (d.describedAt? id n).isSome) →
    ∃ x, d.DescribedOnCycle id x ∧ d.typeString id = .error (.cyclicTypeGraph x.2.name)
  /-- A description that comes to an end is never refused, however long it is. -/
  answered : (∃ n, d.describedAt? id n = none) → ∃ text, d.typeString id = .ok text
  /-- What is neither an alias nor a collection ends the description, be there a cycle behind
  it or not. -/
  unfollowed : ∀ n x, d.describedAt? id n = some x → x.2.continues = false →
    d.typeString id = .ok (" -- ".intercalate (d.segments id n))
  /-- Each segment is what its own descriptor says. -/
  segment : ∀ n x, d.describedAt? id n = some x → x.2.SegmentByKind

/-- Descriptions in full are exact, on cycles and dangling referents too. -/
theorem describesChain (hid : (d.find? id).isSome) : d.DescribesChain id where
  ends n hx hend := by
    obtain ⟨x, hx⟩ := Option.isSome_iff_exists.mp hx
    exact typeString_eq_ok hx hend
  refused := exists_typeString_eq_error
  answered hends := by
    obtain ⟨n, x, hx, hend⟩ := exists_end_of_describedAt? hid hends
    exact ⟨_, typeString_eq_ok hx hend⟩
  unfollowed n x hx hstop := by
    refine typeString_eq_ok hx ?_
    rw [describedAt?, hx, Option.bind_some, hstop, if_neg Bool.false_ne_true]
  segment _ x _ := x.2.segmentByKind

/-- A list of aliases of a select type that refers back to the list. -/
def roundTrip : Dictionary where
  config := {}
  descriptors := #[
    { name := "", description := "LIST [0:?] OF part", referent? := some ⟨1⟩,
      body := .aggregate { kind := .list } },
    aliasOf "part" ⟨2⟩,
    { name := "piece", description := "SELECT (nut)", referent? := some ⟨0⟩, body := .select {} }]
  schemas := #[]

/-- As many segments as there are descriptors, with a cycle behind them that is not gone round, and
a cycle that is. -/
theorem describesChain_roundTrip :
    (roundTrip.find? ⟨0⟩).isSome ∧ ¬ roundTrip.ChainEnds ⟨0⟩ ∧
      roundTrip.typeString ⟨0⟩ =
        .ok "LIST [0:?] OF part -- TYPE part = part -- SELECT (nut)" ∧
      (lasso.find? ⟨0⟩).isSome ∧ ∃ x, lasso.DescribedOnCycle ⟨0⟩ x ∧
        lasso.typeString ⟨0⟩ = .error (.cyclicTypeGraph x.2.name) := by
  have hround : (roundTrip.find? ⟨0⟩).isSome := by rfl
  have hlasso : (lasso.find? ⟨0⟩).isSome := by rfl
  have hback : roundTrip.EntersCycleAt ⟨0⟩ (⟨0⟩, roundTrip.descriptors[0]) :=
    ⟨⟨0, rfl⟩, 3, by decide, rfl⟩
  have htext := (describesChain hround).unfollowed 2 (⟨2⟩, roundTrip.descriptors[2]) rfl rfl
  have hjoined : " -- ".intercalate (roundTrip.segments ⟨0⟩ 2) =
      "LIST [0:?] OF part -- TYPE part = part -- SELECT (nut)" := by cbv
  have hrefused : lasso.typeString ⟨0⟩ = .error (.cyclicTypeGraph "b") := by cbv
  have hgo : ∀ n, (lasso.describedAt? ⟨0⟩ n).isSome := by
    intro n
    by_contra hn
    obtain ⟨text, hok⟩ :=
      (describesChain hlasso).answered ⟨n, Option.not_isSome_iff_eq_none.mp hn⟩
    rw [hrefused] at hok
    cases hok
  exact ⟨hround, hback.not_chainEnds, hjoined ▸ htext, hlasso,
    (describesChain hlasso).refused hgo⟩

end Dictionary

end ExpressModel
