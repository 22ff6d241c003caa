import ExpressModel.Proofs.Registry.Buffer

/-! # Writes at the end

The index behind the last slot can be written in three ways: by appending, by inserting there and
by setting it.  Inserting makes room in the same way as appending, and is always the same.  Setting
goes by the bound on the indices that a write can reach, below which it is the same too.  An
exhausted registry has no index that could be reached behind its last slot: there a set is refused,
though an append succeeds (`writes_at_end`).

The same holds of the cells that a registry is stored in. -/

namespace ExpressModel

open Registry (Operation)

variable {α : Type}

/-! ### Slots -/

namespace Registry

/-- All slots of the capacity are in use, and they are so many that no write can reach beyond
them. -/
def Exhausted (r : Registry α) : Prop :=
  2 ^ 24 ≤ r.count ∧ r.count = r.capacity

instance (r : Registry α) : Decidable r.Exhausted :=
  inferInstanceAs (Decidable (_ ∧ _))

theorem place_count (a : α) (r : Registry α) :
    (r.reserve r.count).place r.count a = r.append a := by
  have hplace := toList_place (r.reserve r.count) r.count a
  rw [count_reserve, if_neg (Nat.lt_irrefl _), Nat.sub_self, List.replicate_zero,
    List.append_nil, toList_reserve, ← toList_append] at hplace
  have hslots : ((r.reserve r.count).place r.count a).slots = (r.append a).slots :=
    Array.toList_inj.mp hplace
  unfold place at hslots ⊢
  rw [count_reserve, if_neg (Nat.lt_irrefl _)] at hslots ⊢
  dsimp only at hslots
  rw [hslots]
  rfl

theorem exhausted_iff {r : Registry α} (h : r.toSequence.Fits) :
    r.Exhausted ↔ ¬ r.count < max (2 ^ 24) r.capacity := by
  have hcovered := count_le_capacity h
  unfold Exhausted
  omega

theorem set_count {r : Registry α} (h : r.toSequence.Fits) (a : α) :
    set r.count a r =
      if r.Exhausted then .error (.indexOutOfRange r.count r.count) r
      else .ok () (r.append a) := by
  rw [set_eq_write (.inl (Nat.le_refl _))]
  by_cases hreach : r.count < max (2 ^ 24) r.capacity
  · rw [write_eq_ok hreach, if_neg (fun hr => (exhausted_iff h).mp hr hreach), place_count]
  · rw [write_eq_error hreach, if_pos ((exhausted_iff h).mpr hreach)]

theorem insert_count (a : α) (r : Registry α) :
    insert a (some r.count) r = .ok r.count (r.append a) :=
  insert_of_le (Nat.le_refl _) a

end Registry

/-! ### Cells -/

namespace Buffer

theorem rotateUp_succ (i : Nat) (cells : List (Option α)) : rotateUp i (i + 1) cells = cells := by
  have hone : ((cells.take (i + 1)).drop i).length ≤ 1 := by
    rw [List.length_drop, List.length_take]
    omega
  have hrotate : ((cells.take (i + 1)).drop i).rotateRight 1 = (cells.take (i + 1)).drop i :=
    if_pos hone
  have htake : cells.take i = (cells.take (i + 1)).take i := by
    rw [List.take_take, Nat.min_eq_left (Nat.le_succ i)]
  unfold rotateUp
  rw [hrotate, htake, List.take_append_drop, List.take_append_drop]

@[simp] theorem count_reserve (i : Nat) (b : Buffer α) : (b.reserve i).count = b.count := by
  unfold reserve
  dsimp only
  split <;> rfl

/-- An insertion behind the cells in use moves none of them. -/
theorem insertAt_count (a : α) (b : Buffer α) :
    b.insertAt b.count a =
      { b.reserve b.count with
        cells := (b.reserve b.count).cells.set b.count (some a), count := b.count + 1 } := by
  unfold insertAt
  dsimp only
  rw [count_reserve, rotateUp_succ]

theorem write_count (a : α) (b : Buffer α) :
    write b.count a b =
      if b.count < max (2 ^ 24) b.cells.length then .ok () (b.insertAt b.count a)
      else .error (.indexOutOfRange b.count b.count) b := by
  have hcount : max b.count (b.count + 1) = b.count + 1 := Nat.max_eq_right (Nat.le_succ _)
  unfold write
  dsimp only
  rw [Registry.maxCapacity_eq, count_reserve, hcount, insertAt_count]
  by_cases hreach : b.count < max (2 ^ 24) b.cells.length
  · rw [if_pos hreach, if_neg (Nat.not_le_of_lt hreach)]
  · rw [if_neg hreach, if_pos (Nat.le_of_not_lt hreach)]

theorem insert_count (a : α) (b : Buffer α) :
    insert a (some b.count) b = .ok b.count (b.insertAt b.count a) :=
  insert_of_le (Nat.le_refl _) a

end Buffer

/-! ### Runs -/

/-- The cells of a registry after a run are the storage of its slots. -/
theorem Registry.run_new_layout (capacity : Nat) (policy : IndexPolicy)
    (ops : List (Operation α)) :
    let r := (run Registry.perform ops (Registry.new capacity policy)).2
    (run Buffer.perform ops (Buffer.new capacity policy)).2 = r.toSequence.layout ∧
      r.toSequence.Fits := by
  intro r
  have hstart : (Registry.new capacity policy : Registry α).toSequence.Fits :=
    Sequence.fits_new capacity policy
  refine (run_simulates
    (R := fun (b : Buffer α) (r : Registry α) => b = r.toSequence.layout ∧ r.toSequence.Fits)
    ?_ ops ⟨rfl, hstart⟩).2
  rintro op _ r ⟨rfl, hfits⟩
  rw [Sequence.perform_layout op hfits, Registry.perform_toSequence op hfits]
  exact ⟨rfl, rfl, Registry.fits_perform op hfits⟩

/-- In every state that a run from a new registry comes to, an insertion at the end is an append.
So is a set at the end, but in an exhausted registry, which refuses it and stays as it is. -/
theorem Registry.writes_at_end (capacity : Nat) (policy : IndexPolicy)
    (ops : List (Operation α)) (a : α) :
    let r := (run Registry.perform ops (Registry.new capacity policy)).2
    let b := (run Buffer.perform ops (Buffer.new capacity policy)).2
    b = r.toSequence.layout ∧
    Registry.insert a (some r.count) r = .ok r.count (r.append a) ∧
    Registry.set r.count a r =
      (if r.Exhausted then .error (.indexOutOfRange r.count r.count) r
        else .ok () (r.append a)) ∧
    Buffer.insert a (some b.count) b = .ok b.count (b.insertAt b.count a) ∧
    Buffer.set b.count a b =
      (if r.Exhausted then .error (.indexOutOfRange b.count b.count) b
        else .ok () (b.insertAt b.count a)) := by
  intro r b
  obtain ⟨hb, hfits⟩ : b = r.toSequence.layout ∧ r.toSequence.Fits :=
    Registry.run_new_layout capacity policy ops
  have hcount : b.count = r.count := by
    rw [hb]
    exact Registry.length_toList r
  have hcapacity : b.cells.length = r.capacity := by
    rw [hb]
    exact Sequence.length_cells_layout hfits
  refine ⟨hb, Registry.insert_count a r, Registry.set_count hfits a, Buffer.insert_count a b, ?_⟩
  rw [Buffer.set_eq_write (.inl (Nat.le_refl _)), Buffer.write_count]
  by_cases hreach : b.count < max (2 ^ 24) b.cells.length
  · have hnot : ¬ r.Exhausted := by
      rw [Registry.exhausted_iff hfits, not_not, ← hcount, ← hcapacity]
      exact hreach
    rw [if_pos hreach, if_neg hnot]
  · have hexhausted : r.Exhausted := by
      rw [Registry.exhausted_iff hfits, ← hcount, ← hcapacity]
      exact hreach
    rw [if_neg hreach, if_pos hexhausted]

namespace Registry

/-- A registry of the largest initial capacity whose last slot alone has been set. -/
def lastSlotSet : Registry Nat :=
  (run perform [.set (2 ^ 24 - 1) 0] (new (2 ^ 24) .extend)).2

theorem lastSlotSet_eq :
    lastSlotSet = ⟨(Array.replicate (2 ^ 24 - 1) none).push (some 0), 2 ^ 24, .extend⟩ := by
  have hset : set (2 ^ 24 - 1) 0 (new (2 ^ 24) .extend : Registry Nat) =
      .ok () ((new (2 ^ 24) .extend).place (2 ^ 24 - 1) 0) := by
    rw [set_eq_write (.inr rfl), write_eq_ok (by decide)]
    rfl
  have hstate : lastSlotSet = (new (2 ^ 24) .extend).place (2 ^ 24 - 1) 0 := by
    unfold lastSlotSet
    rw [run_cons_state, perform, hset]
    rfl
  rw [hstate]
  simp [place, new, count, maxCapacity]

/-- It refuses a set at its end. -/
theorem set_refused_lastSlotSet :
    lastSlotSet.count = 2 ^ 24 ∧ lastSlotSet.capacity = 2 ^ 24 ∧
      set (2 ^ 24) 0 lastSlotSet =
        .error (.indexOutOfRange (2 ^ 24) (2 ^ 24)) lastSlotSet := by
  have hcount : lastSlotSet.count = 2 ^ 24 := by
    rw [lastSlotSet_eq]
    simp [count]
  have hcapacity : lastSlotSet.capacity = 2 ^ 24 := by
    rw [lastSlotSet_eq]
  have hreach : ¬ 2 ^ 24 < max (2 ^ 24) lastSlotSet.capacity := by
    rw [hcapacity]
    decide
  refine ⟨hcount, hcapacity, ?_⟩
  rw [set_eq_write (.inl (Nat.le_of_eq hcount.symm)), write_eq_error hreach, hcount]

end Registry

end ExpressModel
