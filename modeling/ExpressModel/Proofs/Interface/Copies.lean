import Mathlib
import ExpressModel.Interface
import ExpressModel.Proofs.Registry.Identity

/-! # Copies of interfaces

A copy of an interface is built by adding the items of its original, one after another, to an empty
registry.  So it lists the same items in the same order, but packed: a vacant slot of the original
is left out, and the items behind it move down (`contents_copy`).  Slot by slot, and in its count, a
copy is faithful exactly if its original has no vacant slot (`faithful_copy_iff`).

`Interfaces` are interfaces side by side, created, edited and copied in any order, whose items are
told apart by numbers from one counter.  No two of them ever share an item (`apart_run`), and an
interface stays as it is as long as others are edited or copied (`getElem?_run`). -/

namespace ExpressModel

variable {α : Type}

/-! ### Contents -/

namespace OwnedRegistry

/-- The slots, with values for the elements. -/
def contents (r : OwnedRegistry α) : List (Option α) :=
  r.registry.toList.map (Option.map Element.value)

/-- The numbers of the elements, in order. -/
def numbers (r : OwnedRegistry α) : List Nat :=
  r.live.map Element.number

theorem length_contents (r : OwnedRegistry α) : r.contents.length = r.count := by
  unfold contents
  rw [List.length_map, Registry.length_toList]
  rfl

theorem map_value_get? (r : OwnedRegistry α) (n : Nat) :
    (r.get? n).map Element.value = r.contents[n]?.join := by
  unfold get? contents
  rw [Registry.get?_eq, List.getElem?_map]
  rcases r.registry.toList[n]? with _ | _ | e <;> rfl

theorem values_eq_filterMap (r : OwnedRegistry α) : r.values = r.contents.filterMap id := by
  unfold values live contents
  rw [Registry.live_eq, List.map_filterMap, List.filterMap_map]
  rfl

@[simp] theorem contents_append (a : α) (r : OwnedRegistry α) :
    (r.append a).2.contents = r.contents ++ [some a] := by
  simp [contents, append]

@[simp] theorem numbers_append (a : α) (r : OwnedRegistry α) :
    (r.append a).2.numbers = r.numbers ++ [r.issued] := by
  simp [numbers, live, append, Registry.live_eq]

@[simp] theorem policy_append (a : α) (r : OwnedRegistry α) :
    (r.append a).2.policy = r.policy :=
  Registry.policy_reserve r.registry r.registry.count

theorem appendAll_cons (a : α) (as : List α) (r : OwnedRegistry α) :
    r.appendAll (a :: as) = (r.append a).2.appendAll as := rfl

theorem contents_appendAll (as : List α) (r : OwnedRegistry α) :
    (r.appendAll as).contents = r.contents ++ as.map some := by
  induction as generalizing r with
  | nil => simp [appendAll]
  | cons a as ih =>
      rw [appendAll_cons, ih, contents_append, List.append_assoc]
      rfl

/-- Values that are added become elements of the next numbers. -/
theorem numbers_appendAll (as : List α) (r : OwnedRegistry α) :
    (r.appendAll as).numbers = r.numbers ++ List.range' r.issued as.length := by
  induction as generalizing r with
  | nil => simp [appendAll]
  | cons a as ih =>
      rw [appendAll_cons, ih, numbers_append, issued_append, List.append_assoc,
        List.length_cons, List.range'_succ]
      rfl

theorem issued_appendAll (as : List α) (r : OwnedRegistry α) :
    (r.appendAll as).issued = r.issued + as.length := by
  induction as generalizing r with
  | nil => rfl
  | cons a as ih =>
      rw [appendAll_cons, ih, issued_append, List.length_cons]
      omega

theorem policy_appendAll (as : List α) (r : OwnedRegistry α) :
    (r.appendAll as).policy = r.policy := by
  induction as generalizing r with
  | nil => rfl
  | cons a as ih => rw [appendAll_cons, ih, policy_append]

/-- The registry with its elements counted on from a number. -/
def countedFrom (n : Nat) (r : OwnedRegistry α) : OwnedRegistry α where
  registry := { r.registry with
    slots := r.registry.slots.map (Option.map fun e => { e with number := n + e.number }) }
  issued := n + r.issued

@[simp] theorem contents_countedFrom (n : Nat) (r : OwnedRegistry α) :
    (r.countedFrom n).contents = r.contents := by
  unfold contents countedFrom Registry.toList
  rw [Array.toList_map, List.map_map]
  refine List.map_congr_left ?_
  rintro (_ | e) - <;> rfl

theorem numbers_countedFrom (n : Nat) (r : OwnedRegistry α) :
    (r.countedFrom n).numbers = r.numbers.map (n + ·) := by
  unfold numbers live countedFrom
  rw [Registry.live_eq, Registry.live_eq]
  unfold Registry.toList
  rw [Array.toList_map, List.filterMap_map, List.map_filterMap, List.map_map, List.map_filterMap]
  refine List.filterMap_congr ?_
  rintro (_ | e) - <;> rfl

/-- Between an operation and the next, elements leave and at most one enters. -/
theorem numbers_perform_le (op : Operation α) (r : OwnedRegistry α) :
    ((perform op r).2.numbers : Multiset Nat) ≤
      (r.numbers ++ List.range' r.issued (entering op r).length : List Nat) := by
  have hentering : (entering op r).map Element.number =
      List.range' r.issued (entering op r).length := by
    rcases entering_cases op r with h | ⟨a, h⟩ <;> rw [h] <;> rfl
  have hperm := (perform_perm op r).map Element.number
  rw [List.map_append, List.map_append, hentering] at hperm
  rw [Multiset.coe_le]
  exact (List.sublist_append_right _ _).subperm.trans hperm.symm.subperm

end OwnedRegistry

/-! ### Copies -/

namespace Interface

/-- An interface that stands for another: between the same schemas, under the same policy, and
with the same items in the same slots. -/
structure Faithful (copy original : Interface) : Prop where
  current : copy.current = original.current
  foreign : copy.foreign = original.foreign
  importsAll : copy.importsAll = original.importsAll
  policy : copy.items.policy = original.items.policy
  count : copy.items.count = original.items.count
  item : ∀ n, (copy.items.get? n).map Element.value = (original.items.get? n).map Element.value

theorem policy_copy (i : Interface) : i.copy.items.policy = i.items.policy :=
  OwnedRegistry.policy_appendAll i.items.values _

theorem contents_copy (i : Interface) :
    i.copy.items.contents = i.items.contents.filter Option.isSome := by
  have hpacked : i.copy.items.contents = i.items.values.map some :=
    OwnedRegistry.contents_appendAll i.items.values _
  rw [hpacked, OwnedRegistry.values_eq_filterMap]
  induction i.items.contents with
  | nil => rfl
  | cons slot slots ih =>
      cases slot with
      | none => exact ih
      | some item =>
          show some item :: (slots.filterMap id).map some = some item :: slots.filter Option.isSome
          rw [ih]

/-- A copy has the slots of its original exactly if none of these is vacant. -/
theorem faithful_copy_iff (i : Interface) : Faithful i.copy i ↔ none ∉ i.items.contents := by
  constructor
  · intro h hvacant
    have hcount := h.count
    rw [← OwnedRegistry.length_contents, ← OwnedRegistry.length_contents, contents_copy,
      List.length_filter_eq_length_iff] at hcount
    cases hcount none hvacant
  · intro hfull
    have hcontents : i.copy.items.contents = i.items.contents := by
      rw [contents_copy, List.filter_eq_self]
      rintro (_ | item) hmem
      · exact absurd hmem hfull
      · rfl
    refine ⟨rfl, rfl, rfl, policy_copy i, ?_, ?_⟩
    · rw [← OwnedRegistry.length_contents, hcontents, OwnedRegistry.length_contents]
    · intro n
      rw [OwnedRegistry.map_value_get?, OwnedRegistry.map_value_get?, hcontents]

end Interface

/-! ### Interfaces side by side -/

/-- Interfaces, whose items are told apart by numbers from one counter. -/
structure Interfaces where
  list : List Interface
  issued : Nat

namespace Interfaces

open OwnedRegistry (entering)

/-- What can be done to interfaces. -/
inductive Operation where
  | create (current foreign : String) (importsAll : Bool)
  /-- An operation on the items of one of them. -/
  | edit (k : Nat) (op : OwnedRegistry.Operation ImportItem)
  | copy (k : Nat)

/-- Does the operation leave an interface alone? -/
def Operation.Spares (k : Nat) : Operation → Prop
  | .edit j _ => j ≠ k
  | _ => True

/-- Performs an operation; the reply is that of an edit. -/
def perform : Operation → Interfaces → Option (OwnedRegistry.Reply ImportItem) × Interfaces
  | .create current foreign importsAll, s =>
    (none, { s with list := s.list ++ [{ current, foreign, importsAll }] })
  | .edit k op, s =>
    match s.list[k]? with
    | none => (none, s)
    | some i =>
      let (reply, items) := OwnedRegistry.perform op { i.items with issued := s.issued }
      (some reply, ⟨s.list.set k { i with items }, items.issued⟩)
  | .copy k, s =>
    match s.list[k]? with
    | none => (none, s)
    | some i =>
      let copy := i.copy
      let items := copy.items.countedFrom s.issued
      (none, ⟨s.list ++ [{ copy with items }], items.issued⟩)

def reached (ops : List Operation) : Interfaces :=
  (run perform ops ⟨[], 0⟩).2

def numbers (s : Interfaces) : List Nat :=
  s.list.flatMap fun i => i.items.numbers

/-- Every item is in one slot of one interface, and its number has been given out. -/
structure Apart (s : Interfaces) : Prop where
  nodup : s.numbers.Nodup
  issued : ∀ n ∈ s.numbers, n < s.issued

variable {s s' : Interfaces}

/-- Items that stay, and new ones of the next numbers, are still apart. -/
theorem Apart.extend (h : s.Apart) {k : Nat}
    (hnumbers : (s'.numbers : Multiset Nat) ≤ (s.numbers ++ List.range' s.issued k : List Nat))
    (hissued : s'.issued = s.issued + k) : s'.Apart := by
  have hsub : s'.numbers.Subperm (s.numbers ++ List.range' s.issued k) :=
    Multiset.coe_le.mp hnumbers
  constructor
  · have hnodup : (s.numbers ++ List.range' s.issued k).Nodup := by
      rw [List.nodup_append]
      refine ⟨h.nodup, List.nodup_range', ?_⟩
      intro m hm n hn hmn
      have hbelow := h.issued m hm
      have habove := (List.mem_range'_1.mp hn).1
      omega
    obtain ⟨kept, hperm, hkept⟩ := hsub
    exact hperm.nodup (hnodup.sublist hkept)
  · intro n hn
    rcases List.mem_append.mp (hsub.subset hn) with hold | hnew
    · have hbelow := h.issued n hold
      omega
    · have habove := List.mem_range'_1.mp hnew
      omega

theorem numbers_append_singleton (s : Interfaces) (i : Interface) (issued : Nat) :
    (⟨s.list ++ [i], issued⟩ : Interfaces).numbers = s.numbers ++ i.items.numbers := by
  simp [numbers]

theorem numbers_set {k : Nat} {i i' : Interface} (hk : s.list[k]? = some i) {more : List Nat}
    {issued : Nat}
    (hle : (i'.items.numbers : Multiset Nat) ≤ (i.items.numbers ++ more : List Nat)) :
    ((⟨s.list.set k i', issued⟩ : Interfaces).numbers : Multiset Nat) ≤
      (s.numbers ++ more : List Nat) := by
  obtain ⟨hlt, hget⟩ := List.getElem?_eq_some_iff.mp hk
  have hlist : s.list = s.list.take k ++ i :: s.list.drop (k + 1) := by
    rw [← hget, ← List.drop_eq_getElem_cons hlt, List.take_append_drop]
  have hset : s.list.set k i' = s.list.take k ++ i' :: s.list.drop (k + 1) := by
    rw [List.set_eq_take_append_cons_drop, if_pos hlt]
  unfold numbers
  dsimp only
  rw [hset]
  conv_rhs => rw [hlist]
  simp only [List.flatMap_append, List.flatMap_cons, ← Multiset.coe_add] at hle ⊢
  have hrest := add_le_add_right hle
    (((s.list.take k).flatMap fun i => i.items.numbers : List Nat) +
      ((s.list.drop (k + 1)).flatMap fun i => i.items.numbers : List Nat) : Multiset Nat)
  refine le_trans (le_of_eq ?_) (le_trans hrest (le_of_eq ?_))
  · abel
  · abel

theorem apart_perform (op : Operation) (s : Interfaces) (h : s.Apart) : (perform op s).2.Apart := by
  cases op with
  | create current foreign importsAll =>
      have hempty : (OwnedRegistry.empty : OwnedRegistry ImportItem).numbers = [] := rfl
      refine h.extend (k := 0) ?_ rfl
      simp only [perform, numbers_append_singleton, hempty, List.range'_zero]
      exact le_refl _
  | edit k op =>
      simp only [perform]
      split
      · exact h
      · next i hk =>
        exact h.extend (numbers_set hk (OwnedRegistry.numbers_perform_le op _))
          (OwnedRegistry.perform_replaces op _).issued
  | copy k =>
      simp only [perform]
      split
      · exact h
      · next i hk =>
        have hnumbers : (i.copy.items.countedFrom s.issued).numbers =
            List.range' s.issued i.items.values.length := by
          rw [OwnedRegistry.numbers_countedFrom, Interface.copy, OwnedRegistry.numbers_appendAll]
          show (List.range' 0 i.items.values.length).map (s.issued + ·) = _
          rw [List.map_add_range', Nat.add_zero]
        have hissued : (i.copy.items.countedFrom s.issued).issued =
            s.issued + i.items.values.length := by
          show s.issued + i.copy.items.issued = _
          rw [Interface.copy, OwnedRegistry.issued_appendAll]
          show s.issued + (0 + i.items.values.length) = _
          omega
        refine h.extend (k := i.items.values.length) ?_ hissued
        rw [numbers_append_singleton, hnumbers]

theorem apart_run (ops : List Operation) : (reached ops).Apart := by
  refine run_preserves (P := Apart) apart_perform ops ⟨List.nodup_nil, ?_⟩
  intro n hn
  cases hn

theorem Apart.number_ne (h : s.Apart) {j k : Nat} (hjk : j ≠ k) {i i' : Interface}
    (hj : s.list[j]? = some i) (hk : s.list[k]? = some i') {e e' : Element ImportItem}
    (he : e ∈ i.items.live) (he' : e' ∈ i'.items.live) : e.number ≠ e'.number := by
  have hnodup := h.nodup
  unfold numbers at hnodup
  rw [List.nodup_flatMap] at hnodup
  have hpairs := List.pairwise_iff_getElem.mp hnodup.2
  obtain ⟨hjlt, rfl⟩ := List.getElem?_eq_some_iff.mp hj
  obtain ⟨hklt, rfl⟩ := List.getElem?_eq_some_iff.mp hk
  have hmem := List.mem_map_of_mem (f := Element.number) he
  have hmem' := List.mem_map_of_mem (f := Element.number) he'
  intro heq
  rw [← heq] at hmem'
  rcases Nat.lt_or_gt_of_ne hjk with hlt | hlt
  · exact hpairs j k hjlt hklt hlt hmem hmem'
  · exact hpairs k j hklt hjlt hlt hmem' hmem

/-- An operation leaves the interfaces that it spares as they are. -/
theorem getElem?_perform {op : Operation} {k : Nat} (hspares : op.Spares k)
    (hk : k < s.list.length) :
    (perform op s).2.list[k]? = s.list[k]? ∧ k < (perform op s).2.list.length := by
  cases op with
  | create current foreign importsAll =>
      simp only [perform, List.length_append]
      exact ⟨List.getElem?_append_left hk, by omega⟩
  | edit j op =>
      simp only [perform]
      split
      · exact ⟨rfl, hk⟩
      · simp only [List.length_set]
        exact ⟨List.getElem?_set_ne hspares, hk⟩
  | copy j =>
      simp only [perform]
      split
      · exact ⟨rfl, hk⟩
      · simp only [List.length_append]
        exact ⟨List.getElem?_append_left hk, by omega⟩

theorem getElem?_run {k : Nat} (ops : List Operation) (hspares : ∀ op ∈ ops, op.Spares k)
    (hk : k < s.list.length) : (run perform ops s).2.list[k]? = s.list[k]? := by
  induction ops generalizing s with
  | nil => rfl
  | cons op ops ih =>
      obtain ⟨hsame, hlt⟩ := getElem?_perform (hspares op List.mem_cons_self) hk
      rw [run_cons_state, ih (fun op hop => hspares op (List.mem_cons_of_mem _ hop)) hlt, hsame]

/-! ### Exactness -/

/-- What is known of the copies that can be made of interfaces. -/
structure CopiesExact (s : Interfaces) : Prop where
  /-- A copy is between the same schemas, under the same policy. -/
  headed : ∀ i ∈ s.list, i.copy.current = i.current ∧ i.copy.foreign = i.foreign ∧
    i.copy.importsAll = i.importsAll ∧ i.copy.items.policy = i.items.policy
  /-- It lists the same items in the same order, without vacant slots. -/
  packed : ∀ i ∈ s.list, i.copy.items.contents = i.items.contents.filter Option.isSome
  /-- So it has the slots of its original exactly if none of these is vacant. -/
  faithful_iff : ∀ i ∈ s.list, Interface.Faithful i.copy i ↔ none ∉ i.items.contents
  /-- Copying adds an interface with the contents of the copy and changes no other. -/
  added : ∀ k i, s.list[k]? = some i → ∃ c, (perform (.copy k) s).2.list = s.list ++ [c] ∧
    { c with items := i.copy.items } = i.copy ∧ c.items.contents = i.copy.items.contents
  /-- No two interfaces share an item. -/
  apart : ∀ (j k : Nat) (i i' : Interface), j ≠ k → s.list[j]? = some i →
    s.list[k]? = some i' → ∀ (m n : Nat) (e e' : Element ImportItem),
      i.items.get? m = some e → i'.items.get? n = some e' → e.number ≠ e'.number
  /-- Operations on others leave an interface as it is. -/
  independent : ∀ later k, (∀ op ∈ later, op.Spares k) → k < s.list.length →
    (run perform later s).2.list[k]? = s.list[k]?

/-- Whatever has been done to interfaces, their copies are packed, and share no item with them. -/
theorem copies_exact (ops : List Operation) : CopiesExact (reached ops) where
  headed := fun i _ => ⟨rfl, rfl, rfl, i.policy_copy⟩
  packed := fun i _ => i.contents_copy
  faithful_iff := fun i _ => i.faithful_copy_iff
  added := by
    intro k i hk
    refine ⟨{ i.copy with items := i.copy.items.countedFrom (reached ops).issued }, ?_, rfl,
      OwnedRegistry.contents_countedFrom _ _⟩
    simp only [perform, hk]
  apart := by
    intro j k i i' hjk hj hk m n e e' he he'
    exact (apart_run ops).number_ne hjk hj hk (OwnedRegistry.mem_live_iff.mpr ⟨m, he⟩)
      (OwnedRegistry.mem_live_iff.mpr ⟨n, he'⟩)
  independent := fun later _ hspares hk => getElem?_run later hspares hk

/-- An interface whose second item is set before its first one, and its items as they are copied:
the item moves down to the vacant slot. -/
theorem copy_skipped_item :
    let s := reached [.create "drawing" "geometry" false,
      .edit 0 (.applyOptions { indexPolicy := .extend }), .edit 0 (.set 1 { name := "point" })]
    ∃ i, s.list[0]? = some i ∧ i.items.contents = [none, some { name := "point" }] ∧
      i.copy.items.contents = [some { name := "point" }] ∧ ¬ Interface.Faithful i.copy i := by
  intro s
  obtain ⟨i, hi, hcontents⟩ : ∃ i, s.list[0]? = some i ∧
      i.items.contents = [none, some { name := "point" }] :=
    ⟨_, rfl, rfl⟩
  refine ⟨i, hi, hcontents, ?_, ?_⟩
  · rw [Interface.contents_copy, hcontents]
    rfl
  · rw [Interface.faithful_copy_iff, hcontents]
    simp

end Interfaces

end ExpressModel
