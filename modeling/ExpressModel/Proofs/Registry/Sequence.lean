import Mathlib
import ExpressModel.Proofs.Registry.Operation
import ExpressModel.Proofs.Run

/-! # Sequences of optional entries

What a registry is to those who use it: a list of entries, each occupied or vacant, with a policy
for writes beyond its end and a capacity that bounds how far such a write reaches.
`Sequence.perform` says what each operation replies and does in terms of the list alone.

A registry is such a sequence: `toSequence` reads it off, `perform_toSequence` says that every
operation on a registry whose capacity covers its slots is the operation on the sequence, and
such it remains. -/

namespace ExpressModel

open Registry (Operation Reply)

/-- A list of optional entries with a policy for writes beyond its end. -/
@[ext] structure Sequence (α : Type) where
  entries : List (Option α)
  capacity : Nat
  policy : IndexPolicy

namespace Sequence

variable {α : Type}

def new (capacity : Nat) (policy : IndexPolicy) : Sequence α :=
  ⟨[], max 1 (min capacity (2 ^ 24)), policy⟩

/-- The sequence with a capacity that covers an index. -/
def grow (i : Nat) (s : Sequence α) : Sequence α :=
  { s with capacity := if i < s.capacity then s.capacity else max (2 * (i + 1)) (2 * s.capacity) }

/-- The entry at an index beyond the last one, behind vacant entries. -/
def extend (i : Nat) (a : α) (s : Sequence α) : Sequence α :=
  { s.grow i with
    entries := s.entries ++ List.replicate (i - s.entries.length) none ++ [some a] }

/-- The refusal of an index. -/
def outOfRange (i : Nat) (s : Sequence α) : Reply α :=
  .refused (.indexOutOfRange i s.entries.length)

def perform : Operation α → Sequence α → Reply α × Sequence α
  | .append a, s =>
    (.number s.entries.length,
      { s.grow s.entries.length with entries := s.entries ++ [some a] })
  | .insert a at?, s =>
    let i := at?.getD s.entries.length
    if i ≤ s.entries.length then
      (.number i, { s.grow s.entries.length with entries := s.entries.insertIdx i (some a) })
    else if s.policy = .extend ∧ i < max (2 ^ 24) s.capacity then (.number i, s.extend i a)
    else (s.outOfRange i, s)
  | .set i a, s =>
    if i < s.entries.length then (.done, { s with entries := s.entries.set i (some a) })
    else if (i = s.entries.length ∨ s.policy = .extend) ∧ i < max (2 ^ 24) s.capacity then
      (.done, s.extend i a)
    else (s.outOfRange i, s)
  | .remove i, s =>
    if i < s.entries.length then
      (.element? s.entries[i]?.join, { s with entries := s.entries.eraseIdx i })
    else (.element? none, s)
  | .clear, s => (.number (s.entries.countP Option.isSome), { s with entries := [] })
  | .applyOptions options, s =>
    let wanted := min options.initialCapacity (2 ^ 24)
    let s := { s with policy := options.indexPolicy }
    (.done, if wanted = 0 then s else s.grow (wanted - 1))
  | .get i, s => (.element? s.entries[i]?.join, s)
  | .count, s => (.number s.entries.length, s)
  | .isEmpty, s => (.flag s.entries.isEmpty, s)
  | .capacity, s => (.number s.capacity, s)
  | .policy, s => (.policy s.policy, s)
  | .snapshot, s => (.elements (s.entries.filterMap id), s)
  | .withItems f, s => (.computed (f (s.entries.filterMap id)), s)
  | .position p, s => (.number? (s.entries.findIdx? fun entry => entry.any p), s)

def Fits (s : Sequence α) : Prop :=
  s.entries.length ≤ s.capacity

theorem fits_new (capacity : Nat) (policy : IndexPolicy) :
    (new capacity policy : Sequence α).Fits :=
  Nat.zero_le _

@[simp] theorem entries_grow (i : Nat) (s : Sequence α) : (s.grow i).entries = s.entries := rfl

@[simp] theorem policy_grow (i : Nat) (s : Sequence α) : (s.grow i).policy = s.policy := rfl

theorem lt_capacity_grow (i : Nat) (s : Sequence α) : i < (s.grow i).capacity := by
  unfold grow
  dsimp only
  split <;> omega

theorem capacity_le_grow (i : Nat) (s : Sequence α) : s.capacity ≤ (s.grow i).capacity := by
  unfold grow
  dsimp only
  split <;> omega

/-- An operation leaves a capacity that covers the entries it leaves. -/
theorem fits_perform (op : Operation α) {s : Sequence α} (h : s.Fits) :
    (s.perform op).2.Fits := by
  unfold Fits at h ⊢
  cases op with
  | append a =>
      have := lt_capacity_grow s.entries.length s
      simp only [perform, List.length_append, List.length_singleton]
      omega
  | insert a at? =>
      simp only [perform]
      split
      · next hi =>
        have := lt_capacity_grow s.entries.length s
        simp only [List.length_insertIdx, if_pos hi]
        omega
      · split
        · have := lt_capacity_grow (at?.getD s.entries.length) s
          simp only [extend, List.length_append, List.length_replicate, List.length_singleton]
          omega
        · exact h
  | set i a =>
      simp only [perform]
      split
      · simpa using h
      · split
        · have := lt_capacity_grow i s
          simp only [extend, List.length_append, List.length_replicate, List.length_singleton]
          omega
        · exact h
  | remove i =>
      simp only [perform]
      split
      · have := List.length_eraseIdx_le s.entries i
        exact Nat.le_trans this h
      · exact h
  | clear => exact Nat.zero_le _
  | applyOptions options =>
      simp only [perform]
      split
      · exact h
      · exact Nat.le_trans h (capacity_le_grow _ { s with policy := options.indexPolicy })
  | get i => exact h
  | count => exact h
  | isEmpty => exact h
  | capacity => exact h
  | policy => exact h
  | snapshot => exact h
  | withItems f => exact h
  | position p => exact h

end Sequence

namespace Registry

variable {α : Type}

theorem maxCapacity_eq : maxCapacity = 2 ^ 24 := rfl

def toSequence (r : Registry α) : Sequence α :=
  ⟨r.toList, r.capacity, r.policy⟩

@[simp] theorem entries_toSequence (r : Registry α) : r.toSequence.entries = r.toList := rfl

@[simp] theorem capacity_toSequence (r : Registry α) : r.toSequence.capacity = r.capacity := rfl

@[simp] theorem policy_toSequence (r : Registry α) : r.toSequence.policy = r.policy := rfl

theorem count_le_capacity {r : Registry α} (h : r.toSequence.Fits) : r.count ≤ r.capacity := by
  rw [← length_toList]
  exact h

theorem toSequence_new (capacity : Nat) (policy : IndexPolicy) :
    (new capacity policy : Registry α).toSequence = .new capacity policy := rfl

theorem toSequence_reserve (i : Nat) (r : Registry α) :
    (r.reserve i).toSequence = r.toSequence.grow i := by
  unfold reserve Sequence.grow
  rw [capacity_toSequence]
  split <;> rfl

theorem toSequence_insertAt {i : Nat} {r : Registry α} (h : i ≤ r.count) (a : α) :
    (r.insertAt i a).toSequence =
      { r.toSequence.grow r.count with entries := r.toList.insertIdx i (some a) } := by
  rw [← toSequence_reserve, ← toList_insertAt h]
  rfl

theorem toSequence_set {i : Nat} {r : Registry α} (h : i < r.count) (a : α) :
    (r.place i a).toSequence = { r.toSequence with entries := r.toList.set i (some a) } := by
  have hlist := toList_place r i a
  rw [if_pos h] at hlist
  rw [← hlist]
  simp [toSequence, place, h]

@[simp] theorem count_reserve (i : Nat) (r : Registry α) : (r.reserve i).count = r.count := by
  simp [count]

theorem toSequence_extend {i : Nat} {r : Registry α} (h : ¬ i < r.count) (a : α) :
    ((r.reserve i).place i a).toSequence = r.toSequence.extend i a := by
  have hcount := count_reserve i r
  have hlist := toList_place (r.reserve i) i a
  rw [hcount, if_neg h, toList_reserve] at hlist
  have hrest := toSequence_reserve i r
  ext1
  · rw [entries_toSequence, hlist]
    simp [Sequence.extend]
  · rw [Sequence.extend, ← hrest]
    simp [toSequence, place, hcount, h]
  · simp [toSequence, place, hcount, h, Sequence.extend]

theorem write_eq_ok {i : Nat} {r : Registry α} (h : i < max (2 ^ 24) r.capacity) (a : α) :
    write i a r = .ok () ((r.reserve i).place i a) :=
  if_pos h

theorem write_eq_error {i : Nat} {r : Registry α} (h : ¬ i < max (2 ^ 24) r.capacity) (a : α) :
    write i a r = .error (.indexOutOfRange i r.count) r :=
  if_neg h

theorem strict_ne_extend : IndexPolicy.strict ≠ .extend := by
  intro h
  cases h

theorem insert_none (a : α) (r : Registry α) : insert a none r = insert a (some r.count) r := rfl

theorem insert_of_le {i : Nat} {r : Registry α} (hi : i ≤ r.count) (a : α) :
    insert a (some i) r = .ok i (r.insertAt i a) :=
  if_pos hi

theorem insert_beyond_strict {i : Nat} {r : Registry α} (hi : ¬ i ≤ r.count)
    (hp : r.policy = .strict) (a : α) :
    insert a (some i) r = .error (.indexOutOfRange i r.count) r := by
  unfold insert
  rw [Option.getD_some, if_neg hi, hp]

/-- An insertion beyond the end is a write, answered with the index. -/
theorem insert_beyond {i : Nat} {r : Registry α} (hi : ¬ i ≤ r.count) (hp : r.policy = .extend)
    (a : α) :
    insert a (some i) r = match write i a r with
      | .ok () r => .ok i r
      | .error e r => .error e r := by
  unfold insert
  rw [Option.getD_some, if_neg hi, hp]
  show EStateM.bind (write i a) (fun _ => pure i) r = _
  unfold EStateM.bind
  cases write i a r <;> rfl

theorem set_eq_write {i : Nat} {r : Registry α} (h : i ≤ r.count ∨ r.policy = .extend) (a : α) :
    set i a r = write i a r := by
  unfold set
  rw [if_neg]
  rintro ⟨hlt, hp⟩
  rcases h with h | h
  · exact Nat.not_lt_of_le h hlt
  · rw [h] at hp
    cases hp

theorem set_beyond_strict {i : Nat} {r : Registry α} (hi : r.count < i) (hp : r.policy = .strict)
    (a : α) : set i a r = .error (.indexOutOfRange i r.count) r :=
  if_pos ⟨hi, hp⟩

/-! ### Operations -/

theorem perform_append (a : α) (r : Registry α) :
    r.toSequence.perform (.append a) =
      ((r.perform (.append a)).1, (r.perform (.append a)).2.toSequence) := by
  have hlist := toSequence_insertAt (Nat.le_refl r.count) a
  rw [← length_toList, List.insertIdx_length_self, length_toList] at hlist
  show _ = (Reply.number r.count, (r.insertAt r.count a).toSequence)
  rw [hlist]
  simp only [Sequence.perform, entries_toSequence, length_toList]

theorem perform_insert_some (a : α) (i : Nat) (r : Registry α) :
    r.toSequence.perform (.insert a (some i)) =
      ((r.perform (.insert a (some i))).1, (r.perform (.insert a (some i))).2.toSequence) := by
  simp only [perform, Sequence.perform, Option.getD_some, entries_toSequence, length_toList,
    policy_toSequence, capacity_toSequence]
  by_cases hi : i ≤ r.count
  · rw [if_pos hi, insert_of_le hi]
    show _ = (Reply.number i, (r.insertAt i a).toSequence)
    rw [toSequence_insertAt hi]
  · rw [if_neg hi]
    cases hp : r.policy with
    | strict =>
        rw [if_neg (fun h => strict_ne_extend h.1), insert_beyond_strict hi hp, Sequence.outOfRange,
          entries_toSequence, length_toList]
        rfl
    | extend =>
        rw [insert_beyond hi hp]
        by_cases hreach : i < max (2 ^ 24) r.capacity
        · rw [if_pos ⟨rfl, hreach⟩, write_eq_ok hreach]
          show _ = (Reply.number i, ((r.reserve i).place i a).toSequence)
          rw [toSequence_extend (fun h => hi (Nat.le_of_lt h))]
        · rw [if_neg (fun h => hreach h.2), write_eq_error hreach, Sequence.outOfRange,
            entries_toSequence, length_toList]
          rfl

theorem perform_insert (a : α) (at? : Option Nat) (r : Registry α) :
    r.toSequence.perform (.insert a at?) =
      ((r.perform (.insert a at?)).1, (r.perform (.insert a at?)).2.toSequence) := by
  cases at? with
  | some i => exact perform_insert_some a i r
  | none =>
      have hend := perform_insert_some a r.count r
      simp only [perform, Sequence.perform, Option.getD_some, Option.getD_none, entries_toSequence,
        length_toList] at hend ⊢
      rw [insert_none]
      exact hend

theorem perform_set (i : Nat) (a : α) {r : Registry α} (hfits : r.toSequence.Fits) :
    r.toSequence.perform (.set i a) =
      ((r.perform (.set i a)).1, (r.perform (.set i a)).2.toSequence) := by
  have hcovered := count_le_capacity hfits
  simp only [perform, Sequence.perform, entries_toSequence, length_toList, policy_toSequence,
    capacity_toSequence]
  by_cases hi : i < r.count
  · have hreach : i < max (2 ^ 24) r.capacity := by omega
    rw [if_pos hi, set_eq_write (.inl (Nat.le_of_lt hi)), write_eq_ok hreach, reserve,
      if_pos (Nat.lt_of_lt_of_le hi hcovered)]
    show _ = (Reply.done, (r.place i a).toSequence)
    rw [toSequence_set hi]
    rfl
  · rw [if_neg hi]
    by_cases hallowed : i ≤ r.count ∨ r.policy = .extend
    · have hallowed' : i = r.count ∨ r.policy = .extend := hallowed.imp_left (by omega)
      rw [set_eq_write hallowed]
      by_cases hreach : i < max (2 ^ 24) r.capacity
      · rw [if_pos ⟨hallowed', hreach⟩, write_eq_ok hreach]
        show _ = (Reply.done, ((r.reserve i).place i a).toSequence)
        rw [toSequence_extend hi]
      · rw [if_neg (fun h => hreach h.2), write_eq_error hreach, Sequence.outOfRange,
          entries_toSequence, length_toList]
        rfl
    · rw [not_or] at hallowed
      obtain ⟨hbeyond, hpolicy⟩ := hallowed
      have hstrict : r.policy = .strict := by
        cases hp : r.policy with
        | strict => rfl
        | extend => exact absurd hp hpolicy
      rw [if_neg (fun h => h.1.elim (by omega) hpolicy), set_beyond_strict (by omega) hstrict,
        Sequence.outOfRange, entries_toSequence, length_toList]
      rfl

theorem perform_remove (i : Nat) (r : Registry α) :
    r.toSequence.perform (.remove i) =
      ((r.perform (.remove i)).1, (r.perform (.remove i)).2.toSequence) := by
  have hstate : (r.remove i).2.toSequence =
      { r.toSequence with entries := r.toList.eraseIdx i } := by
    rw [← toList_remove]
    rfl
  show _ = (Reply.element? (r.get? i), (r.remove i).2.toSequence)
  rw [hstate, get?_eq]
  by_cases h : i < r.toSequence.entries.length
  · exact if_pos h
  · refine (if_neg h).trans ?_
    rw [entries_toSequence] at h
    rw [List.eraseIdx_of_length_le (Nat.le_of_not_lt h), List.getElem?_eq_none (Nat.le_of_not_lt h)]
    rfl

theorem perform_applyOptions (options : RegistryOptions) (r : Registry α) :
    r.toSequence.perform (.applyOptions options) =
      ((r.perform (.applyOptions options)).1,
        (r.perform (.applyOptions options)).2.toSequence) := by
  show _ = (Reply.done, (r.applyOptions options).toSequence)
  simp only [Sequence.perform, applyOptions]
  rw [maxCapacity_eq]
  split
  · rfl
  · rw [toSequence_reserve]
    rfl

/-- An operation on a registry whose capacity covers its slots is the operation on the
sequence. -/
theorem perform_toSequence (op : Operation α) {r : Registry α} (hfits : r.toSequence.Fits) :
    r.toSequence.perform op = ((r.perform op).1, (r.perform op).2.toSequence) := by
  cases op with
  | append a => exact perform_append a r
  | insert a at? => exact perform_insert a at? r
  | set i a => exact perform_set i a hfits
  | remove i => exact perform_remove i r
  | clear =>
      simp [perform, Sequence.perform, clear, toSequence, toList]
  | applyOptions options => exact perform_applyOptions options r
  | get i => simp only [perform, Sequence.perform, get?_eq, entries_toSequence]
  | count => simp only [perform, Sequence.perform, entries_toSequence, length_toList]
  | isEmpty =>
      simp only [perform, Sequence.perform, isEmpty, entries_toSequence]
      rw [← length_toList]
      cases r.toList <;> rfl
  | capacity => rfl
  | policy => rfl
  | snapshot => simp only [perform, Sequence.perform, live_eq, entries_toSequence]
  | withItems f => simp only [perform, Sequence.perform, live_eq, entries_toSequence]
  | position p => simp only [perform, Sequence.perform, position?_eq, entries_toSequence]

/-- An operation leaves a capacity that covers the slots it leaves. -/
theorem fits_perform (op : Operation α) {r : Registry α} (hfits : r.toSequence.Fits) :
    (r.perform op).2.toSequence.Fits := by
  have hnext := Sequence.fits_perform op hfits
  rw [perform_toSequence op hfits] at hnext
  exact hnext

end Registry

end ExpressModel
