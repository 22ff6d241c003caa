import ExpressModel.Proofs.Registry.Capacity

/-! # Sizes in words

The cells under a registry are counted and addressed in words of 64 bits.  `Buffer.InWords` performs
the operations on cells as a machine of such words does.  It fails where a sum or a product does
not fit a word, where a difference would be negative, and where an index or a range goes beyond
the cells; a doubling that would be cut off at the largest word fails too.

Room is made only where neither side has to be cut off (`reserve_eq_some_iff`).  As long as fewer
than `2 ^ 62` cells are in use, among fewer than `2 ^ 63`, no operation fails, and each does what it
does on numbers without a bound (`perform_eq`).  `Registry.storage_exact` puts together what is
known of the cells after any run. -/

namespace ExpressModel

open Registry (Operation Reply maxCapacity)

variable {α : Type}

/-! ### Words -/

def word? (n : Nat) : Option Nat :=
  if n < 2 ^ 64 then some n else none

/-- The difference, where it is not negative. -/
def sub? (m n : Nat) : Option Nat :=
  if n ≤ m then some (m - n) else none

theorem word?_eq {n : Nat} (h : n < 2 ^ 64) : word? n = some n :=
  if_pos h

theorem word?_eq_some_iff {m n : Nat} : word? n = some m ↔ n < 2 ^ 64 ∧ n = m := by
  unfold word?
  split <;> simp_all

theorem sub?_eq {m n : Nat} (h : n ≤ m) : sub? m n = some (m - n) :=
  if_pos h

theorem guard_eq {p : Prop} [Decidable p] (h : p) : (guard p : Option Unit) = some () :=
  if_pos h

namespace Buffer

/-! ### Operations -/

namespace InWords

/-- Adds vacant cells up to twice those needed for an index, and twice those there at least. -/
def reserve (i : Nat) (b : Buffer α) : Option (Buffer α) := do
  let size := b.cells.length
  if i < size then return b
  let slots ← word? (i + 1)
  let needed ← word? (2 * slots)
  let doubled ← word? (2 * size)
  return { b with cells := b.cells ++ List.replicate (max needed doubled - size) none }

def used (b : Buffer α) : Option (List (Option α)) := do
  guard (b.count ≤ b.cells.length)
  return b.cells.take b.count

/-- Inserts an element before a cell in use, or behind the last one. -/
def insertAt (i : Nat) (a : α) (b : Buffer α) : Option (Buffer α) := do
  let b ← reserve b.count b
  let stop ← word? (b.count + 1)
  guard (i < stop ∧ stop ≤ b.cells.length)
  let cells := rotateUp i stop b.cells
  guard (i < cells.length)
  let count ← word? (b.count + 1)
  return { b with cells := cells.set i (some a), count := count }

def write (i : Nat) (a : α) (b : Buffer α) :
    Option (EStateM.Result Error (Buffer α) Unit) := do
  if max maxCapacity b.cells.length ≤ i then return .error (.indexOutOfRange i b.count) b
  let b ← reserve i b
  guard (i < b.cells.length)
  let stop ← word? (i + 1)
  return .ok () { b with cells := b.cells.set i (some a), count := max b.count stop }

/-- Inserts an element at an index, or at the end. -/
def insert (a : α) (at? : Option Nat) (b : Buffer α) :
    Option (EStateM.Result Error (Buffer α) Nat) :=
  match at? with
  | none => do return .ok b.count (← insertAt b.count a b)
  | some i =>
    if i ≤ b.count then do return .ok i (← insertAt i a b)
    else match b.policy with
      | .strict => some (.error (.indexOutOfRange i b.count) b)
      | .extend => do
        match ← write i a b with
        | .ok () b => return .ok i b
        | .error e b => return .error e b

/-- Overwrites a cell, or writes beyond those in use where the policy allows it. -/
def set (i : Nat) (a : α) (b : Buffer α) : Option (EStateM.Result Error (Buffer α) Unit) :=
  if b.count < i ∧ b.policy = .strict then some (.error (.indexOutOfRange i b.count) b)
  else write i a b

/-- Takes the element out of a cell in use and closes the gap. -/
def remove (i : Nat) (b : Buffer α) : Option (Option α × Buffer α) := do
  if b.count ≤ i then return (none, b)
  guard (i < b.cells.length)
  let cells := b.cells.set i none
  guard (i < b.count ∧ b.count ≤ cells.length)
  let count ← sub? b.count 1
  return (b.cells[i]?.join, { b with cells := rotateDown i b.count cells, count := count })

/-- Empties the cells in use; the answer is how many were occupied. -/
def clear (b : Buffer α) : Option (Nat × Buffer α) := do
  let cells ← used b
  let dropped ← word? (cells.countP Option.isSome)
  return (dropped,
    { b with cells := cells.map (fun _ => none) ++ b.cells.drop b.count, count := 0 })

/-- Takes over the policy and adds the cells that the options ask for. -/
def applyOptions (options : RegistryOptions) (b : Buffer α) : Option (Buffer α) :=
  let b := { b with policy := options.indexPolicy }
  let wanted := min options.initialCapacity maxCapacity
  if 0 < wanted then do reserve (← sub? wanted 1) b else some b

def get? (i : Nat) (b : Buffer α) : Option (Option α) := do
  if i < b.count then
    guard (i < b.cells.length)
    return b.cells[i]?.join
  else return none

def perform : Operation α → Buffer α → Option (Reply α × Buffer α)
  | .append a, b => (insertAt b.count a b).map fun b' => (.number b.count, b')
  | .insert a at?, b => (insert a at? b).map (Reply.ofResult .number)
  | .set i a, b => (set i a b).map (Reply.ofResult fun _ => .done)
  | .remove i, b => (remove i b).map fun (a?, b) => (.element? a?, b)
  | .clear, b => (clear b).map fun (dropped, b) => (.number dropped, b)
  | .applyOptions options, b => (applyOptions options b).map fun b => (.done, b)
  | .get i, b => (get? i b).map fun a? => (.element? a?, b)
  | .count, b => some (.number b.count, b)
  | .isEmpty, b => some (.flag (b.count == 0), b)
  | .capacity, b => some (.number b.cells.length, b)
  | .policy, b => some (.policy b.policy, b)
  | .snapshot, b => (used b).map fun cells => (.elements (cells.filterMap id), b)
  | .withItems f, b => (used b).map fun cells => (.computed (f (cells.filterMap id)), b)
  | .position p, b =>
    (used b).map fun cells => (.number? (cells.findIdx? fun cell => cell.any p), b)

end InWords

/-! ### Exactness -/

/-- The cells in use are cells, and sizes are far from the largest word. -/
structure Moderate (b : Buffer α) : Prop where
  used : b.count ≤ b.cells.length
  count : b.count < 2 ^ 62
  cells : b.cells.length < 2 ^ 63

theorem length_rotateRight (l : List (Option α)) (n : Nat) :
    (l.rotateRight n).length = l.length := by
  unfold List.rotateRight
  dsimp only
  split
  · rfl
  · simp only [List.length_append, List.length_drop, List.length_take]
    omega

theorem length_rotateUp {i j : Nat} {cells : List (Option α)} (hi : i ≤ j) :
    (rotateUp i j cells).length = cells.length := by
  unfold rotateUp
  simp only [List.length_append, List.length_take, List.length_drop, length_rotateRight]
  omega

theorem lt_length_reserve (i : Nat) (b : Buffer α) : i < (b.reserve i).cells.length := by
  unfold reserve
  dsimp only
  split
  · assumption
  · simp only [List.length_append, List.length_replicate]
    omega

namespace InWords

variable {b : Buffer α}

/-- Room is made in words exactly where there is room already, or where neither what is needed nor
what is there is too large to be doubled. -/
theorem reserve_eq_some_iff {i : Nat} :
    reserve i b = some (b.reserve i) ↔
      i < b.cells.length ∨ i + 1 < 2 ^ 63 ∧ b.cells.length < 2 ^ 63 := by
  unfold reserve Buffer.reserve
  by_cases hcovered : i < b.cells.length
  · simp [hcovered]
  · have hwords : (i + 1 < 2 ^ 64 ∧ 2 * (i + 1) < 2 ^ 64 ∧ 2 * b.cells.length < 2 ^ 64) ↔
        i + 1 < 2 ^ 63 ∧ b.cells.length < 2 ^ 63 := by
      omega
    simpa [hcovered, word?_eq_some_iff, Option.bind_eq_some_iff] using hwords

theorem reserve_eq {i : Nat} (hi : i < 2 ^ 62 ∨ i < b.cells.length)
    (hcells : b.cells.length < 2 ^ 63) : reserve i b = some (b.reserve i) := by
  rw [reserve_eq_some_iff]
  omega

theorem used_eq (h : b.Moderate) : used b = some (b.cells.take b.count) := by
  unfold used
  rw [guard_eq h.used]
  rfl

theorem insertAt_eq {i : Nat} (hi : i ≤ b.count) (h : b.Moderate) (a : α) :
    insertAt i a b = some (b.insertAt i a) := by
  have hcount := h.count
  have hroom := lt_length_reserve b.count b
  have hstop : b.count + 1 < 2 ^ 64 := by omega
  have hrange : i < b.count + 1 ∧ b.count + 1 ≤ (b.reserve b.count).cells.length := by omega
  have hindex : i < (rotateUp i (b.count + 1) (b.reserve b.count).cells).length := by
    rw [length_rotateUp (Nat.le_succ_of_le hi)]
    omega
  unfold insertAt Buffer.insertAt
  simp only [reserve_eq (.inl hcount) h.cells, count_reserve, word?_eq hstop, guard_eq hrange,
    guard_eq hindex, bind, Option.bind, pure]

theorem write_eq (i : Nat) (h : b.Moderate) (a : α) :
    write i a b = some (Buffer.write i a b) := by
  have hcells := h.cells
  unfold write Buffer.write
  by_cases hreach : max maxCapacity b.cells.length ≤ i
  · simp [hreach]
  · have hi : i < 2 ^ 62 ∨ i < b.cells.length := by
      rw [Registry.maxCapacity_eq] at hreach
      omega
    have hstop : i + 1 < 2 ^ 64 := by omega
    simp [hreach, reserve_eq hi hcells, guard_eq (lt_length_reserve i b), word?_eq hstop]

theorem insert_some_eq (i : Nat) (h : b.Moderate) (a : α) :
    insert a (some i) b = some (Buffer.insert a (some i) b) := by
  simp only [insert]
  by_cases hi : i ≤ b.count
  · rw [if_pos hi, insertAt_eq hi h, Buffer.insert_of_le hi]
    rfl
  · rw [if_neg hi]
    cases hp : b.policy with
    | strict => rw [Buffer.insert_beyond_strict hi hp]
    | extend =>
        rw [Buffer.insert_beyond hi hp, write_eq i h]
        cases Buffer.write i a b <;> rfl

theorem insert_eq (at? : Option Nat) (h : b.Moderate) (a : α) :
    insert a at? b = some (Buffer.insert a at? b) := by
  cases at? with
  | some i => exact insert_some_eq i h a
  | none =>
      simp only [insert, insertAt_eq (Nat.le_refl b.count) h]
      rfl

theorem set_eq (i : Nat) (h : b.Moderate) (a : α) : set i a b = some (Buffer.set i a b) := by
  unfold set Buffer.set
  rw [write_eq i h]
  split <;> rfl

theorem remove_eq (i : Nat) (h : b.Moderate) : remove i b = some (b.remove i) := by
  have hused := h.used
  unfold remove Buffer.remove
  by_cases hi : b.count ≤ i
  · simp [hi]
  · have hindex : i < b.cells.length := by omega
    have hrange : i < b.count ∧ b.count ≤ (b.cells.set i none).length := by
      rw [List.length_set]
      omega
    have hcount : 1 ≤ b.count := by omega
    simp only [if_neg hi, guard_eq hindex, guard_eq hrange, sub?_eq hcount, bind, Option.bind, pure]

theorem clear_eq (h : b.Moderate) : clear b = some b.clear := by
  have hcount := h.count
  have hdropped : (b.cells.take b.count).countP Option.isSome ≤ b.count :=
    Nat.le_trans List.countP_le_length (List.length_take_le _ _)
  have hfits : (b.cells.take b.count).countP Option.isSome < 2 ^ 64 := by omega
  unfold clear Buffer.clear
  simp only [used_eq h, word?_eq hfits, bind, Option.bind, pure]

theorem applyOptions_eq (options : RegistryOptions) (h : b.Moderate) :
    applyOptions options b = some (b.applyOptions options) := by
  unfold applyOptions Buffer.applyOptions
  by_cases hwanted : 0 < min options.initialCapacity maxCapacity
  · have hlow : min options.initialCapacity maxCapacity - 1 < 2 ^ 62 := by
      rw [Registry.maxCapacity_eq]
      omega
    have hreserve := reserve_eq (b := { b with policy := options.indexPolicy }) (.inl hlow) h.cells
    simp only [hwanted, if_true, sub?_eq (Nat.succ_le_of_lt hwanted), bind, Option.bind, hreserve]
  · simp [hwanted]

theorem get?_eq (i : Nat) (h : b.Moderate) : get? i b = some (b.get? i) := by
  have hused := h.used
  unfold get? Buffer.get?
  by_cases hi : i < b.count
  · have hindex : i < b.cells.length := by omega
    simp [hi, guard_eq hindex]
  · simp [hi]

/-- An operation on cells of moderate sizes stays in words and in range, and does what it does on
numbers without a bound. -/
theorem perform_eq (op : Operation α) (h : b.Moderate) :
    perform op b = some (Buffer.perform op b) := by
  cases op with
  | append a =>
      simp only [perform, insertAt_eq (Nat.le_refl b.count) h]
      rfl
  | insert a at? =>
      simp only [perform, insert_eq at? h]
      rfl
  | set i a =>
      simp only [perform, set_eq i h]
      rfl
  | remove i =>
      simp only [perform, remove_eq i h]
      rfl
  | clear =>
      simp only [perform, clear_eq h]
      rfl
  | applyOptions options =>
      simp only [perform, applyOptions_eq options h]
      rfl
  | get i =>
      simp only [perform, get?_eq i h]
      rfl
  | snapshot =>
      simp only [perform, used_eq h]
      rfl
  | withItems f =>
      simp only [perform, used_eq h]
      rfl
  | position p =>
      simp only [perform, used_eq h]
      rfl
  | _ => rfl

end InWords

end Buffer

/-! ### Runs -/

namespace Registry

def reached (capacity : Nat) (policy : IndexPolicy) (ops : List (Operation α)) : Registry α :=
  (run perform ops (new capacity policy)).2

/-- The cells under the registry after a run. -/
def cells (capacity : Nat) (policy : IndexPolicy) (ops : List (Operation α)) : Buffer α :=
  (run Buffer.perform ops (Buffer.new capacity policy)).2

theorem count_layout (r : Registry α) : r.toSequence.layout.count = r.count :=
  length_toList r

theorem moderate_layout {n : Nat} {r : Registry α} (h : r.Within n) (hn : n < 2 ^ 62) :
    r.toSequence.layout.Moderate := by
  have hcells : r.toSequence.layout.cells.length = r.capacity :=
    Sequence.length_cells_layout h.fits
  have hused := r.count_layout
  have hcovered := count_le_capacity h.fits
  have hcount := h.count
  have hcapacity := h.capacity
  constructor
  · omega
  · omega
  · omega

/-- No operation of a run fails, as long as the peak of the length is moderate. -/
theorem along_inWords (capacity : Nat) (policy : IndexPolicy) (ops : List (Operation α))
    (hpeak : peak perform count ops (new capacity policy) < 2 ^ 62) :
    Along Buffer.perform (fun op b => Buffer.InWords.perform op b = some (Buffer.perform op b)) ops
      (Buffer.new capacity policy) := by
  have hmoderate : Along perform (fun _ r => r.toSequence.layout.Moderate) ops
      (new capacity policy) :=
    along_within_peak (P := Within) Within.mono within_perform
      (fun _ _ hwithin => moderate_layout hwithin hpeak) ops (within_new capacity policy)
      (Nat.zero_le _) (Nat.le_refl _)
  have hstart : (new capacity policy : Registry α).toSequence.Fits :=
    Sequence.fits_new capacity policy
  refine along_simulates
    (R := fun (r : Registry α) (b : Buffer α) => b = r.toSequence.layout ∧ r.toSequence.Fits)
    ?_ ?_ ops ⟨rfl, hstart⟩ hmoderate
  · rintro op r _ ⟨rfl, hfits⟩
    rw [Sequence.perform_layout op hfits, perform_toSequence op hfits]
    exact ⟨rfl, fits_perform op hfits⟩
  · rintro op r _ ⟨rfl, -⟩ hlayout
    exact Buffer.InWords.perform_eq op hlayout

/-- What is known of the cells under a registry after a run from a new one. -/
structure StorageExact (capacity : Nat) (policy : IndexPolicy) (ops : List (Operation α)) :
    Prop where
  /-- The cells in use are the slots, and there are as many cells as the capacity says. -/
  laidOut : cells capacity policy ops = (reached capacity policy ops).toSequence.layout ∧
    (cells capacity policy ops).count = (reached capacity policy ops).count ∧
    (cells capacity policy ops).cells.length = (reached capacity policy ops).capacity
  /-- There is room for one slot at least. -/
  room : 1 ≤ (reached capacity policy ops).capacity
  /-- The slots do not exceed the capacity. -/
  covered : (reached capacity policy ops).count ≤ (reached capacity policy ops).capacity
  /-- The cells that are not in use are vacant. -/
  vacant : ∀ i, (cells capacity policy ops).count ≤ i →
    (cells capacity policy ops).cells[i]?.join = none
  /-- Capacity is never taken back. -/
  kept : ∀ later, (reached capacity policy ops).capacity ≤
    (reached capacity policy (ops ++ later)).capacity
  /-- An operation that changes the capacity doubles it at least, and covers the index that it
  needs room for. -/
  doubled : ∀ op, (perform op (reached capacity policy ops)).2.capacity =
      (reached capacity policy ops).capacity ∨
    ∃ i, op.needed? (reached capacity policy ops).count = some i ∧
      2 * (reached capacity policy ops).capacity ≤
        (perform op (reached capacity policy ops)).2.capacity ∧
      i + 1 ≤ (perform op (reached capacity policy ops)).2.capacity
  /-- The capacity is at most twice the peak of the length, or twice `2 ^ 24`. -/
  bounded : (reached capacity policy ops).capacity ≤
    2 * max (2 ^ 24) (peak perform count ops (new capacity policy))
  /-- As long as the peak is below `2 ^ 62`, the run stays in words and in range, and so does any
  operation that comes next. -/
  inWords : peak perform count ops (new capacity policy) < 2 ^ 62 →
    run? Buffer.InWords.perform ops (Buffer.new capacity policy) =
        some (run Buffer.perform ops (Buffer.new capacity policy)) ∧
      ∀ op, Buffer.InWords.perform op (cells capacity policy ops) =
        some (Buffer.perform op (cells capacity policy ops))

/-- In every run from a new registry the cells are laid out as they should be, and grow no further
than they need to. -/
theorem storage_exact (capacity : Nat) (policy : IndexPolicy) (ops : List (Operation α)) :
    StorageExact capacity policy ops := by
  obtain ⟨hlayout, hfits⟩ : cells capacity policy ops =
      (reached capacity policy ops).toSequence.layout ∧
      (reached capacity policy ops).toSequence.Fits :=
    run_new_layout capacity policy ops
  have hwithin : (reached capacity policy ops).Within
      (peak perform count ops (new capacity policy)) :=
    within_run capacity policy ops
  have hcount : (cells capacity policy ops).count = (reached capacity policy ops).count := by
    rw [hlayout, count_layout]
  have hlength : (cells capacity policy ops).cells.length =
      (reached capacity policy ops).capacity := by
    rw [hlayout]
    exact Sequence.length_cells_layout hfits
  refine ⟨⟨hlayout, hcount, hlength⟩, hasRoom_run capacity policy ops, count_le_capacity hfits,
    ?_, ?_, ?_, hwithin.capacity, ?_⟩
  · intro i hi
    have hslots : (reached capacity policy ops).toList.length ≤ i := by
      rwa [length_toList, ← hcount]
    rw [hlayout]
    simp only [Sequence.layout, entries_toSequence]
    rw [List.getElem?_append_right hslots, List.getElem?_replicate]
    split <;> rfl
  · intro later
    have hrun := capacity_le_run later hfits
    unfold reached at hrun ⊢
    rwa [run_append_state]
  · intro op
    rcases capacity_perform op hfits with hsame | ⟨i, hneeded, hgrown⟩
    · exact .inl hsame
    · have hdoubled := hgrown.doubled
      exact .inr ⟨i, hneeded, by omega, by omega⟩
  · intro hpeak
    refine ⟨run?_eq_some (along_inWords capacity policy ops hpeak), ?_⟩
    intro op
    rw [hlayout]
    exact Buffer.InWords.perform_eq op (moderate_layout hwithin hpeak)

end Registry

end ExpressModel
