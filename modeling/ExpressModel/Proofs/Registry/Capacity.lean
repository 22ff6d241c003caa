import ExpressModel.Proofs.Registry.AtEnd
import ExpressModel.Proofs.Registry.Layout

/-! # Capacities

An operation leaves the capacity as it is, or it needs room for an index that the capacity does
not cover and at least doubles it (`capacity_perform`).  Such an index is either one below `2 ^ 24`,
which options and writes are limited to where there is no capacity for them yet, or the index behind
the last slot, and then that becomes a slot itself.  So the capacity stays below twice the peak of
the length, or twice `2 ^ 24` (`within_run`), whatever the indices and options of a run are. -/

namespace ExpressModel

open Registry (Operation)

variable {α : Type}

/-- The index that an operation needs room for, where there are so many slots. -/
def Registry.Operation.needed? (count : Nat) : Operation α → Option Nat
  | .append _ => some count
  | .insert _ at? => some (max (at?.getD count) count)
  | .set i _ => some i
  | .applyOptions options =>
    let wanted := min options.initialCapacity (2 ^ 24)
    if wanted = 0 then none else some (wanted - 1)
  | _ => none

/-- A capacity that does not cover an index gives way to one of at least twice the size, in a
sequence that ends up with so many entries. -/
structure Outgrown (i capacity capacity' count' : Nat) : Prop where
  beyond : capacity ≤ i
  doubled : capacity' = max (2 * (i + 1)) (2 * capacity)
  reached : i < 2 ^ 24 ∨ i + 1 = count'

namespace Sequence

theorem capacity_grow (i : Nat) (s : Sequence α) :
    (s.grow i).capacity = s.capacity ∨
      s.capacity ≤ i ∧ (s.grow i).capacity = max (2 * (i + 1)) (2 * s.capacity) := by
  unfold grow
  dsimp only
  split
  · exact .inl rfl
  · next hi => exact .inr ⟨Nat.le_of_not_lt hi, rfl⟩

/-- Room for an entry behind the last one is made for that entry. -/
theorem outgrown_grow_length (s : Sequence α) {count' : Nat}
    (hcount : count' = s.entries.length + 1) :
    (s.grow s.entries.length).capacity = s.capacity ∨
      Outgrown s.entries.length s.capacity (s.grow s.entries.length).capacity count' := by
  rcases capacity_grow s.entries.length s with hsame | ⟨hbeyond, hdoubled⟩
  · exact .inl hsame
  · exact .inr ⟨hbeyond, hdoubled, .inr hcount.symm⟩

/-- Room for an index that a write can reach is made below `2 ^ 24` only. -/
theorem outgrown_grow_of_lt {i : Nat} {s : Sequence α} (hreach : i < max (2 ^ 24) s.capacity)
    (count' : Nat) :
    (s.grow i).capacity = s.capacity ∨
      Outgrown i s.capacity (s.grow i).capacity count' := by
  rcases capacity_grow i s with hsame | ⟨hbeyond, hdoubled⟩
  · exact .inl hsame
  · have hlow : i < 2 ^ 24 := by omega
    exact .inr ⟨hbeyond, hdoubled, .inl hlow⟩

theorem capacity_perform_insert (a : α) (at? : Option Nat) (s : Sequence α) :
    let s' := (s.perform (.insert a at?)).2
    s'.capacity = s.capacity ∨
      Outgrown (max (at?.getD s.entries.length) s.entries.length) s.capacity s'.capacity
        s'.entries.length := by
  intro s'
  simp only [s', perform]
  split
  · next hi =>
    have hcount : (s.entries.insertIdx (at?.getD s.entries.length) (some a)).length =
        s.entries.length + 1 :=
      List.length_insertIdx_of_le_length hi _
    rw [Nat.max_eq_right hi]
    exact outgrown_grow_length s hcount
  · next hi =>
    have hlt : s.entries.length < at?.getD s.entries.length := Nat.lt_of_not_le hi
    split
    · next h =>
      rw [Nat.max_eq_left (Nat.le_of_lt hlt)]
      exact outgrown_grow_of_lt h.2 _
    · exact .inl rfl

theorem capacity_perform_set (i : Nat) (a : α) (s : Sequence α) :
    let s' := (s.perform (.set i a)).2
    s'.capacity = s.capacity ∨ Outgrown i s.capacity s'.capacity s'.entries.length := by
  intro s'
  simp only [s', perform]
  split
  · exact .inl rfl
  · split
    · next h => exact outgrown_grow_of_lt h.2 _
    · exact .inl rfl

/-- An operation leaves the capacity as it is, unless it outgrows it. -/
theorem capacity_perform (op : Operation α) (s : Sequence α) :
    (s.perform op).2.capacity = s.capacity ∨
      ∃ i, op.needed? s.entries.length = some i ∧
        Outgrown i s.capacity (s.perform op).2.capacity (s.perform op).2.entries.length := by
  cases op with
  | append a =>
      have hcount : (s.entries ++ [some a]).length = s.entries.length + 1 := by simp
      exact (outgrown_grow_length s hcount).imp_right fun h => ⟨_, rfl, h⟩
  | insert a at? =>
      exact (capacity_perform_insert a at? s).imp_right fun h => ⟨_, rfl, h⟩
  | set i a =>
      exact (capacity_perform_set i a s).imp_right fun h => ⟨_, rfl, h⟩
  | applyOptions options =>
      simp only [perform, Registry.Operation.needed?]
      by_cases hwanted : min options.initialCapacity (2 ^ 24) = 0
      · rw [if_pos hwanted]
        exact .inl rfl
      · have hreach : min options.initialCapacity (2 ^ 24) - 1 < max (2 ^ 24) s.capacity := by
          omega
        rw [if_neg hwanted, if_neg hwanted]
        have hgrow := outgrown_grow_of_lt (s := { s with policy := options.indexPolicy }) hreach
        exact (hgrow _).imp_right fun h => ⟨_, rfl, h⟩
  | remove i =>
      have hsame : (s.perform (.remove i)).2.capacity = s.capacity := by
        simp only [perform]
        split <;> rfl
      exact .inl hsame
  | _ => exact .inl rfl

end Sequence

namespace Registry

theorem capacity_perform (op : Operation α) {r : Registry α} (hfits : r.toSequence.Fits) :
    (perform op r).2.capacity = r.capacity ∨
      ∃ i, op.needed? r.count = some i ∧
        Outgrown i r.capacity (perform op r).2.capacity (perform op r).2.count := by
  have hstep := Sequence.capacity_perform op r.toSequence
  rw [perform_toSequence op hfits] at hstep
  simpa using hstep

theorem capacity_le_perform (op : Operation α) {r : Registry α} (hfits : r.toSequence.Fits) :
    r.capacity ≤ (perform op r).2.capacity := by
  rcases capacity_perform op hfits with hsame | ⟨i, -, hgrown⟩
  · exact Nat.le_of_eq hsame.symm
  · have hdoubled := hgrown.doubled
    omega

theorem capacity_le_run (ops : List (Operation α)) {r : Registry α} (hfits : r.toSequence.Fits) :
    r.capacity ≤ (run perform ops r).2.capacity := by
  refine (run_preserves (P := fun r' : Registry α =>
    r'.toSequence.Fits ∧ r.capacity ≤ r'.capacity) ?_ ops ⟨hfits, Nat.le_refl _⟩).2
  rintro op r' ⟨hfits', hle⟩
  have hstep := capacity_le_perform op hfits'
  exact ⟨fits_perform op hfits', Nat.le_trans hle hstep⟩

/-- The capacity covers the slots, and is at most twice a number of slots that there have been, or
twice `2 ^ 24`. -/
structure Within (n : Nat) (r : Registry α) : Prop where
  fits : r.toSequence.Fits
  count : r.count ≤ n
  capacity : r.capacity ≤ 2 * max (2 ^ 24) n

theorem Within.mono {m n : Nat} {r : Registry α} (hle : m ≤ n) (h : r.Within m) : r.Within n := by
  have hcount := h.count
  have hcapacity := h.capacity
  exact ⟨h.fits, by omega, by omega⟩

theorem within_new (capacity : Nat) (policy : IndexPolicy) :
    (new capacity policy : Registry α).Within 0 := by
  refine ⟨Sequence.fits_new capacity policy, Nat.le_refl 0, ?_⟩
  show max 1 (min capacity maxCapacity) ≤ 2 * max (2 ^ 24) 0
  rw [maxCapacity_eq]
  omega

theorem within_perform (op : Operation α) (r : Registry α) (n : Nat) (h : r.Within n) :
    (perform op r).2.Within (max n (perform op r).2.count) := by
  have hcapacity := h.capacity
  refine ⟨fits_perform op h.fits, Nat.le_max_right .., ?_⟩
  rcases capacity_perform op h.fits with hsame | ⟨i, -, hgrown⟩
  · omega
  · have hbeyond := hgrown.beyond
    have hdoubled := hgrown.doubled
    have hreached := hgrown.reached
    omega

/-- The capacity after a run is at most twice the peak of the length, or twice `2 ^ 24`. -/
theorem within_run (capacity : Nat) (policy : IndexPolicy) (ops : List (Operation α)) :
    (run perform ops (new capacity policy)).2.Within
      (peak perform count ops (new capacity policy)) := by
  have hrun : (run perform ops (new capacity policy)).2.Within
      (max 0 (peak perform count ops (new capacity policy))) :=
    run_within_peak (P := Within) Within.mono within_perform ops (within_new capacity policy)
  rw [Nat.zero_max] at hrun
  exact hrun

end Registry

end ExpressModel
