import ExpressModel.Proofs.Registry.Sequence

/-! # Buffers

The storage under a registry: cells, as many as the capacity, of which the first `count` are in
use.  An insertion rotates a vacant cell down to its place and a removal rotates one up to the
end; a write beyond the end leaves the cells it skips as they are, so these must be vacant
already.  Sizes are numbers without a bound.

`Sequence.layout` is the storage that holds a sequence: its entries, and vacant cells up to the
capacity.  `Sequence.perform_layout` says that an operation on the layout of a sequence is the
operation on the sequence, laid out again.  `Registry.run_new_eq_sequence` is the conclusion for
runs from a new registry. -/

namespace ExpressModel

open Registry (Operation Reply maxCapacity)

/-- Cells, the first `count` of them in use, with a policy for writes beyond these. -/
@[ext] structure Buffer (α : Type) where
  cells : List (Option α)
  count : Nat
  policy : IndexPolicy

namespace Buffer

variable {α : Type}

/-- Vacant cells, one at least. -/
def new (capacity : Nat) (policy : IndexPolicy) : Buffer α :=
  ⟨List.replicate (max 1 (min capacity maxCapacity)) none, 0, policy⟩

/-- Adds vacant cells up to twice those needed for an index, and twice those there at least. -/
def reserve (i : Nat) (b : Buffer α) : Buffer α :=
  let size := b.cells.length
  if i < size then b
  else
    { b with
      cells := b.cells ++ List.replicate (max (2 * (i + 1)) (2 * size) - size) none }

/-- Moves the last of the cells from `i` up to `j` to their front. -/
def rotateUp (i j : Nat) (cells : List (Option α)) : List (Option α) :=
  cells.take i ++ ((cells.take j).drop i).rotateRight 1 ++ cells.drop j

/-- Moves the first of the cells from `i` up to `j` to their end. -/
def rotateDown (i j : Nat) (cells : List (Option α)) : List (Option α) :=
  cells.take i ++ ((cells.take j).drop i).rotateLeft 1 ++ cells.drop j

/-- Inserts an element before a cell in use, or behind the last one. -/
def insertAt (i : Nat) (a : α) (b : Buffer α) : Buffer α :=
  let b := b.reserve b.count
  { b with cells := (rotateUp i (b.count + 1) b.cells).set i (some a), count := b.count + 1 }

def write (i : Nat) (a : α) : Edit (Buffer α) Unit :=
  fun b =>
    if max maxCapacity b.cells.length ≤ i then .error (.indexOutOfRange i b.count) b
    else
      let b := b.reserve i
      .ok () { b with cells := b.cells.set i (some a), count := max b.count (i + 1) }

/-- Inserts an element at an index, or at the end. -/
def insert (a : α) (at? : Option Nat) : Edit (Buffer α) Nat :=
  fun b =>
    match at? with
    | none => .ok b.count (b.insertAt b.count a)
    | some i =>
      if i ≤ b.count then .ok i (b.insertAt i a)
      else match b.policy with
        | .strict => .error (.indexOutOfRange i b.count) b
        | .extend => (do write i a; return i : Edit (Buffer α) Nat) b

/-- Overwrites a cell, or writes beyond those in use where the policy allows it. -/
def set (i : Nat) (a : α) : Edit (Buffer α) Unit :=
  fun b =>
    if b.count < i ∧ b.policy = .strict then .error (.indexOutOfRange i b.count) b
    else write i a b

/-- Takes the element out of a cell in use and closes the gap. -/
def remove (i : Nat) (b : Buffer α) : Option α × Buffer α :=
  if b.count ≤ i then (none, b)
  else
    (b.cells[i]?.join,
      { b with cells := rotateDown i b.count (b.cells.set i none), count := b.count - 1 })

/-- Empties the cells in use; the answer is how many were occupied. -/
def clear (b : Buffer α) : Nat × Buffer α :=
  ((b.cells.take b.count).countP Option.isSome,
    { b with
      cells := (b.cells.take b.count).map (fun _ => none) ++ b.cells.drop b.count, count := 0 })

/-- Takes over the policy and adds the cells that the options ask for. -/
def applyOptions (options : RegistryOptions) (b : Buffer α) : Buffer α :=
  let b := { b with policy := options.indexPolicy }
  let wanted := min options.initialCapacity maxCapacity
  if 0 < wanted then b.reserve (wanted - 1) else b

def live (b : Buffer α) : List α :=
  (b.cells.take b.count).filterMap id

def get? (i : Nat) (b : Buffer α) : Option α :=
  if i < b.count then b.cells[i]?.join else none

def perform : Operation α → Buffer α → Reply α × Buffer α
  | .append a, b => (.number b.count, b.insertAt b.count a)
  | .insert a at?, b => Reply.ofResult .number (insert a at? b)
  | .set i a, b => Reply.ofResult (fun _ => .done) (set i a b)
  | .remove i, b => (.element? (b.remove i).1, (b.remove i).2)
  | .clear, b => (.number b.clear.1, b.clear.2)
  | .applyOptions options, b => (.done, b.applyOptions options)
  | .get i, b => (.element? (b.get? i), b)
  | .count, b => (.number b.count, b)
  | .isEmpty, b => (.flag (b.count == 0), b)
  | .capacity, b => (.number b.cells.length, b)
  | .policy, b => (.policy b.policy, b)
  | .snapshot, b => (.elements b.live, b)
  | .withItems f, b => (.computed (f b.live), b)
  | .position p, b =>
    (.number? ((b.cells.take b.count).findIdx? fun cell => cell.any p), b)

/-! ### Rotations -/

theorem rotateRight_concat (l : List (Option α)) (x : Option α) :
    (l ++ [x]).rotateRight 1 = x :: l := by
  unfold List.rotateRight
  dsimp only
  split
  · next h =>
    have hl : l = [] := by
      apply List.eq_nil_of_length_eq_zero
      rw [List.length_append, List.length_singleton] at h
      omega
    rw [hl]
    rfl
  · next h =>
    have hlen : (l ++ [x]).length - 1 % (l ++ [x]).length = l.length := by
      rw [Nat.mod_eq_of_lt (Nat.lt_of_not_le h), List.length_append, List.length_singleton]
      omega
    rw [hlen, List.drop_left, List.take_left]
    rfl

theorem rotateLeft_cons (x : Option α) (l : List (Option α)) :
    (x :: l).rotateLeft 1 = l ++ [x] := by
  unfold List.rotateLeft
  dsimp only
  split
  · next h =>
    have hl : l = [] := by
      apply List.eq_nil_of_length_eq_zero
      rw [List.length_cons] at h
      omega
    rw [hl]
    rfl
  · next h =>
    rw [Nat.mod_eq_of_lt (Nat.lt_of_not_le h)]
    rfl

/-- The cell behind the first ones is rotated into them. -/
theorem rotateUp_append {i : Nat} {l : List (Option α)} (hi : i ≤ l.length) (x : Option α)
    (rest : List (Option α)) :
    rotateUp i (l.length + 1) (l ++ x :: rest) = l.take i ++ x :: l.drop i ++ rest := by
  have htake : (l ++ x :: rest).take (l.length + 1) = l ++ [x] := by
    rw [List.take_length_add_append]
    rfl
  have hdrop : (l ++ x :: rest).drop (l.length + 1) = rest := by
    rw [List.drop_length_add_append]
    rfl
  unfold rotateUp
  rw [htake, hdrop, List.take_append_of_le_length hi, List.drop_append_of_le_length hi,
    rotateRight_concat]

/-- One of the first cells is rotated behind the others. -/
theorem rotateDown_append {i : Nat} {l : List (Option α)} (hi : i < l.length)
    (rest : List (Option α)) :
    rotateDown i l.length (l ++ rest) = l.eraseIdx i ++ l[i] :: rest := by
  unfold rotateDown
  rw [List.take_left, List.drop_left, List.take_append_of_le_length (Nat.le_of_lt hi),
    List.drop_eq_getElem_cons hi, rotateLeft_cons, List.eraseIdx_eq_take_drop_succ]
  simp only [List.append_assoc, List.singleton_append]

/-- A cell in use that is emptied, and then rotated behind the others. -/
theorem rotateDown_set_append {i : Nat} {l : List (Option α)} (hi : i < l.length)
    (rest : List (Option α)) :
    rotateDown i l.length ((l ++ rest).set i none) = l.eraseIdx i ++ none :: rest := by
  have hi' : i < (l.set i none).length := by
    rw [List.length_set]
    exact hi
  have hrotate := rotateDown_append hi' rest
  simp only [List.length_set, List.eraseIdx_set_eq, List.getElem_set_self] at hrotate
  rw [List.set_append_left _ _ hi, hrotate]

theorem insertIdx_eq_take_append_drop {i : Nat} {l : List (Option α)} (hi : i ≤ l.length)
    (x : Option α) : l.insertIdx i x = l.take i ++ x :: l.drop i := by
  induction l generalizing i with
  | nil =>
      obtain rfl : i = 0 := Nat.le_zero.mp hi
      rfl
  | cons y l ih =>
      cases i with
      | zero => rfl
      | succ i =>
          rw [List.insertIdx_succ_cons, ih (Nat.le_of_succ_le_succ hi)]
          rfl

/-- A vacant cell that is rotated into the first cells, and then written to. -/
theorem set_rotateUp_append {i : Nat} {l : List (Option α)} (hi : i ≤ l.length)
    (rest : List (Option α)) (a : α) :
    (rotateUp i (l.length + 1) (l ++ none :: rest)).set i (some a) =
      l.insertIdx i (some a) ++ rest := by
  have hlen : (l.take i).length = i := List.length_take_of_le hi
  rw [rotateUp_append hi, insertIdx_eq_take_append_drop hi, List.append_assoc,
    List.set_append_right _ _ (Nat.le_of_eq hlen), hlen, Nat.sub_self, List.append_assoc]
  rfl

/-! ### Writes and insertions -/

theorem insert_none (a : α) (b : Buffer α) : insert a none b = insert a (some b.count) b := by
  unfold insert
  dsimp only
  rw [if_pos (Nat.le_refl _)]

theorem insert_of_le {i : Nat} {b : Buffer α} (hi : i ≤ b.count) (a : α) :
    insert a (some i) b = .ok i (b.insertAt i a) :=
  if_pos hi

theorem insert_beyond_strict {i : Nat} {b : Buffer α} (hi : ¬ i ≤ b.count)
    (hp : b.policy = .strict) (a : α) :
    insert a (some i) b = .error (.indexOutOfRange i b.count) b := by
  unfold insert
  dsimp only
  rw [if_neg hi, hp]

/-- An insertion beyond the cells in use is a write, answered with the index. -/
theorem insert_beyond {i : Nat} {b : Buffer α} (hi : ¬ i ≤ b.count) (hp : b.policy = .extend)
    (a : α) :
    insert a (some i) b = match write i a b with
      | .ok () b => .ok i b
      | .error e b => .error e b := by
  unfold insert
  dsimp only
  rw [if_neg hi, hp]
  show EStateM.bind (write i a) (fun _ => pure i) b = _
  unfold EStateM.bind
  cases write i a b <;> rfl

theorem set_eq_write {i : Nat} {b : Buffer α} (h : i ≤ b.count ∨ b.policy = .extend) (a : α) :
    set i a b = write i a b := by
  unfold set
  rw [if_neg]
  rintro ⟨hlt, hp⟩
  rcases h with h | h
  · exact Nat.not_lt_of_le h hlt
  · rw [h] at hp
    cases hp

theorem set_beyond_strict {i : Nat} {b : Buffer α} (hi : b.count < i) (hp : b.policy = .strict)
    (a : α) : set i a b = .error (.indexOutOfRange i b.count) b :=
  if_pos ⟨hi, hp⟩

end Buffer

namespace Sequence

variable {α : Type}

/-! ### Layout -/

/-- The storage of a sequence: its entries, and vacant cells up to the capacity. -/
def layout (s : Sequence α) : Buffer α :=
  ⟨s.entries ++ List.replicate (s.capacity - s.entries.length) none, s.entries.length, s.policy⟩

@[simp] theorem count_layout (s : Sequence α) : s.layout.count = s.entries.length := rfl

@[simp] theorem policy_layout (s : Sequence α) : s.layout.policy = s.policy := rfl

theorem length_cells_layout {s : Sequence α} (h : s.Fits) :
    s.layout.cells.length = s.capacity := by
  have h : s.entries.length ≤ s.capacity := h
  unfold layout
  rw [List.length_append, List.length_replicate]
  omega

theorem take_cells_layout (s : Sequence α) :
    s.layout.cells.take s.entries.length = s.entries :=
  List.take_left

theorem layout_new (capacity : Nat) (policy : IndexPolicy) :
    (new capacity policy : Sequence α).layout = .new capacity policy := rfl

theorem layout_grow (i : Nat) {s : Sequence α} (h : s.Fits) :
    (s.grow i).layout = s.layout.reserve i := by
  have hlen := length_cells_layout h
  have h : s.entries.length ≤ s.capacity := h
  unfold Buffer.reserve grow
  dsimp only
  rw [hlen]
  by_cases hi : i < s.capacity
  · rw [if_pos hi, if_pos hi]
  · have hvacant :
        max (2 * (i + 1)) (2 * s.capacity) - s.entries.length =
          (s.capacity - s.entries.length) +
            (max (2 * (i + 1)) (2 * s.capacity) - s.capacity) := by
      omega
    rw [if_neg hi, if_neg hi]
    unfold layout
    dsimp only
    rw [hvacant, ← List.replicate_append_replicate, List.append_assoc]

/-- Entries that leave room are laid out with a vacant cell behind them. -/
theorem cells_layout_of_lt {s : Sequence α} (h : s.entries.length < s.capacity) :
    s.layout.cells =
      s.entries ++ none :: List.replicate (s.capacity - (s.entries.length + 1)) none := by
  have hroom : s.capacity - s.entries.length = s.capacity - (s.entries.length + 1) + 1 := by
    omega
  unfold layout
  rw [hroom, List.replicate_succ]

theorem layout_insertAt {i : Nat} {s : Sequence α} (h : s.Fits) (hi : i ≤ s.entries.length)
    (a : α) :
    ({ s.grow s.entries.length with entries := s.entries.insertIdx i (some a) } :
        Sequence α).layout = s.layout.insertAt i a := by
  have hroom : (s.grow s.entries.length).entries.length < (s.grow s.entries.length).capacity :=
    lt_capacity_grow s.entries.length s
  have hcells := cells_layout_of_lt hroom
  have hlen : (s.entries.insertIdx i (some a)).length = s.entries.length + 1 :=
    List.length_insertIdx_of_le_length hi _
  unfold Buffer.insertAt
  rw [count_layout, ← layout_grow _ h]
  dsimp only
  rw [hcells, count_layout, entries_grow, Buffer.set_rotateUp_append hi]
  unfold layout
  rw [hlen]

theorem layout_set {i : Nat} {s : Sequence α} (hi : i < s.entries.length) (a : α) :
    ({ s with entries := s.entries.set i (some a) } : Sequence α).layout =
      { s.layout with cells := s.layout.cells.set i (some a) } := by
  unfold layout
  dsimp only
  rw [List.length_set, List.set_append_left _ _ hi]

/-- An entry beyond the last one needs only its own cell to be written: the cells that it skips
are vacant. -/
theorem layout_extend {i : Nat} {s : Sequence α} (h : s.Fits) (hi : s.entries.length ≤ i)
    (a : α) :
    (s.extend i a).layout =
      { s.layout.reserve i with
        cells := (s.layout.reserve i).cells.set i (some a), count := i + 1 } := by
  have hroom := lt_capacity_grow i s
  have hlen : (s.entries ++ List.replicate (i - s.entries.length) none ++ [some a]).length =
      i + 1 := by
    rw [List.length_append, List.length_append, List.length_replicate, List.length_singleton]
    omega
  have hvacant : (s.grow i).capacity - s.entries.length =
      (i - s.entries.length) + ((s.grow i).capacity - (i + 1) + 1) := by
    omega
  rw [← layout_grow i h]
  unfold layout extend
  dsimp only
  have hskipped : (s.entries ++ List.replicate (i - s.entries.length) none).length = i := by
    rw [List.length_append, List.length_replicate]
    omega
  rw [hlen, entries_grow, hvacant, ← List.replicate_append_replicate, List.replicate_succ,
    ← List.append_assoc, List.set_append_right _ _ (Nat.le_of_eq hskipped), hskipped,
    Nat.sub_self, List.append_assoc (_ ++ _)]
  rfl

theorem layout_eraseIdx {i : Nat} {s : Sequence α} (h : s.Fits) (hi : i < s.entries.length) :
    ({ s with entries := s.entries.eraseIdx i } : Sequence α).layout =
      (s.layout.remove i).2 := by
  have h : s.entries.length ≤ s.capacity := h
  have hvacant : s.capacity - (s.entries.length - 1) =
      s.capacity - s.entries.length + 1 := by
    omega
  unfold Buffer.remove
  rw [count_layout, if_neg (Nat.not_le_of_lt hi)]
  unfold layout
  dsimp only
  rw [List.length_eraseIdx_of_lt hi, hvacant, Buffer.rotateDown_set_append hi,
    List.replicate_succ]

theorem layout_clear {s : Sequence α} (h : s.Fits) :
    ({ s with entries := [] } : Sequence α).layout = s.layout.clear.2 := by
  have h : s.entries.length ≤ s.capacity := h
  have hall : s.capacity = s.entries.length + (s.capacity - s.entries.length) := by
    omega
  unfold Buffer.clear
  rw [count_layout, take_cells_layout, List.map_const']
  unfold layout
  dsimp only
  rw [List.drop_left, List.replicate_append_replicate, ← hall]
  rfl

/-! ### Operations -/

/-- A write beyond the entries, where it can be reached. -/
theorem write_layout_of_lt {i : Nat} {s : Sequence α} (h : s.Fits) (hi : s.entries.length ≤ i)
    (hreach : i < max (2 ^ 24) s.capacity) (a : α) :
    Buffer.write i a s.layout = .ok () (s.extend i a).layout := by
  have hcount : max (s.layout.reserve i).count (i + 1) = i + 1 := by
    rw [← layout_grow i h, count_layout, entries_grow]
    omega
  unfold Buffer.write
  rw [length_cells_layout h, Registry.maxCapacity_eq, if_neg (Nat.not_le_of_lt hreach),
    layout_extend h hi]
  dsimp only
  rw [hcount]

theorem write_layout_of_not_lt {i : Nat} {s : Sequence α} (h : s.Fits)
    (hreach : ¬ i < max (2 ^ 24) s.capacity) (a : α) :
    Buffer.write i a s.layout = .error (.indexOutOfRange i s.entries.length) s.layout := by
  unfold Buffer.write
  rw [length_cells_layout h, Registry.maxCapacity_eq, if_pos (Nat.le_of_not_lt hreach),
    count_layout]

theorem write_layout_entry {i : Nat} {s : Sequence α} (h : s.Fits) (hi : i < s.entries.length)
    (a : α) :
    Buffer.write i a s.layout =
      .ok () ({ s with entries := s.entries.set i (some a) } : Sequence α).layout := by
  have hlen := length_cells_layout h
  have h : s.entries.length ≤ s.capacity := h
  have hcount : max s.layout.count (i + 1) = s.layout.count := by
    rw [count_layout]
    omega
  have hreserve : s.layout.reserve i = s.layout := by
    unfold Buffer.reserve
    rw [hlen]
    exact if_pos (by omega)
  unfold Buffer.write
  rw [hlen, Registry.maxCapacity_eq, if_neg (by omega), hreserve, layout_set hi]
  dsimp only
  rw [hcount]

theorem perform_insert_some_layout (a : α) (i : Nat) {s : Sequence α} (h : s.Fits) :
    s.layout.perform (.insert a (some i)) =
      ((s.perform (.insert a (some i))).1, (s.perform (.insert a (some i))).2.layout) := by
  show Reply.ofResult Reply.number (Buffer.insert a (some i) s.layout) = _
  simp only [perform, Option.getD_some]
  by_cases hi : i ≤ s.entries.length
  · rw [if_pos hi, layout_insertAt h hi, Buffer.insert_of_le hi]
    rfl
  · rw [if_neg hi]
    cases hp : s.policy with
    | strict =>
        rw [Buffer.insert_beyond_strict hi hp, if_neg (fun h => Registry.strict_ne_extend h.1)]
        rfl
    | extend =>
        rw [Buffer.insert_beyond hi hp]
        by_cases hreach : i < max (2 ^ 24) s.capacity
        · rw [write_layout_of_lt h (Nat.le_of_not_le hi) hreach, if_pos ⟨rfl, hreach⟩]
          rfl
        · rw [write_layout_of_not_lt h hreach, if_neg (fun h => hreach h.2)]
          rfl

theorem perform_insert_layout (a : α) (at? : Option Nat) {s : Sequence α} (h : s.Fits) :
    s.layout.perform (.insert a at?) =
      ((s.perform (.insert a at?)).1, (s.perform (.insert a at?)).2.layout) := by
  cases at? with
  | some i => exact perform_insert_some_layout a i h
  | none =>
      have hend := perform_insert_some_layout a s.entries.length h
      show Reply.ofResult Reply.number (Buffer.insert a none s.layout) = _
      rw [Buffer.insert_none]
      exact hend

theorem perform_set_layout (i : Nat) (a : α) {s : Sequence α} (h : s.Fits) :
    s.layout.perform (.set i a) =
      ((s.perform (.set i a)).1, (s.perform (.set i a)).2.layout) := by
  show Reply.ofResult (fun _ => Reply.done) (Buffer.set i a s.layout) = _
  simp only [perform]
  by_cases hi : i < s.entries.length
  · rw [if_pos hi, Buffer.set_eq_write (.inl (Nat.le_of_lt hi)), write_layout_entry h hi]
    rfl
  · rw [if_neg hi]
    by_cases hallowed : i ≤ s.entries.length ∨ s.policy = .extend
    · have hallowed' : i = s.entries.length ∨ s.policy = .extend := hallowed.imp_left (by omega)
      rw [Buffer.set_eq_write hallowed]
      by_cases hreach : i < max (2 ^ 24) s.capacity
      · rw [write_layout_of_lt h (Nat.le_of_not_lt hi) hreach, if_pos ⟨hallowed', hreach⟩]
        rfl
      · rw [write_layout_of_not_lt h hreach, if_neg (fun h => hreach h.2)]
        rfl
    · rw [not_or] at hallowed
      obtain ⟨hbeyond, hpolicy⟩ := hallowed
      have hstrict : s.policy = .strict := by
        cases hp : s.policy with
        | strict => rfl
        | extend => exact absurd hp hpolicy
      rw [Buffer.set_beyond_strict (Nat.lt_of_not_le hbeyond) hstrict,
        if_neg (fun h => h.1.elim (by omega) hpolicy)]
      rfl

theorem perform_remove_layout (i : Nat) {s : Sequence α} (h : s.Fits) :
    s.layout.perform (.remove i) =
      ((s.perform (.remove i)).1, (s.perform (.remove i)).2.layout) := by
  show (Reply.element? (s.layout.remove i).1, (s.layout.remove i).2) = _
  simp only [perform]
  by_cases hi : i < s.entries.length
  · have hcell : s.layout.cells[i]? = s.entries[i]? := List.getElem?_append_left hi
    have hremoved : (s.layout.remove i).1 = s.entries[i]?.join := by
      unfold Buffer.remove
      rw [count_layout, if_neg (Nat.not_le_of_lt hi), hcell]
    rw [if_pos hi, layout_eraseIdx h hi, hremoved]
  · have hremove : s.layout.remove i = (none, s.layout) := if_pos (Nat.le_of_not_lt hi)
    rw [if_neg hi, hremove]

theorem perform_applyOptions_layout (options : RegistryOptions) {s : Sequence α}
    (h : s.Fits) :
    s.layout.perform (.applyOptions options) =
      ((s.perform (.applyOptions options)).1, (s.perform (.applyOptions options)).2.layout) := by
  have h' : ({ s with policy := options.indexPolicy } : Sequence α).Fits := h
  show (Reply.done, s.layout.applyOptions options) = _
  simp only [perform, Buffer.applyOptions]
  rw [Registry.maxCapacity_eq]
  by_cases hwanted : min options.initialCapacity (2 ^ 24) = 0
  · rw [if_pos hwanted, if_neg (by omega)]
    rfl
  · rw [if_neg hwanted, if_pos (Nat.pos_of_ne_zero hwanted), layout_grow _ h']
    rfl

/-- An operation on the layout of a sequence is the operation on the sequence. -/
theorem perform_layout (op : Operation α) {s : Sequence α} (h : s.Fits) :
    s.layout.perform op = ((s.perform op).1, (s.perform op).2.layout) := by
  cases op with
  | append a =>
      have hinsert := layout_insertAt h (Nat.le_refl _) a
      rw [List.insertIdx_length_self] at hinsert
      show (Reply.number s.layout.count, s.layout.insertAt s.layout.count a) = _
      rw [count_layout, ← hinsert]
      rfl
  | insert a at? => exact perform_insert_layout a at? h
  | set i a => exact perform_set_layout i a h
  | remove i => exact perform_remove_layout i h
  | clear =>
      have hdropped : s.layout.clear.1 = s.entries.countP Option.isSome := by
        unfold Buffer.clear
        rw [count_layout, take_cells_layout]
      show (Reply.number s.layout.clear.1, s.layout.clear.2) = _
      rw [hdropped, ← layout_clear h]
      rfl
  | applyOptions options => exact perform_applyOptions_layout options h
  | get i =>
      have hget : s.layout.get? i = s.entries[i]?.join := by
        unfold Buffer.get?
        rw [count_layout]
        split
        · next hi => exact congrArg Option.join (List.getElem?_append_left hi)
        · next hi => rw [List.getElem?_eq_none (Nat.le_of_not_lt hi), Option.join_none]
      show (Reply.element? (s.layout.get? i), s.layout) = _
      rw [hget]
      rfl
  | count => rfl
  | isEmpty =>
      show (Reply.flag (s.entries.length == 0), s.layout) = (Reply.flag s.entries.isEmpty, s.layout)
      cases s.entries <;> rfl
  | capacity =>
      show (Reply.number s.layout.cells.length, s.layout) = _
      rw [length_cells_layout h]
      rfl
  | policy => rfl
  | snapshot =>
      show (Reply.elements s.layout.live, s.layout) = _
      rw [Buffer.live, count_layout, take_cells_layout]
      rfl
  | withItems f =>
      show (Reply.computed (f s.layout.live), s.layout) = _
      rw [Buffer.live, count_layout, take_cells_layout]
      rfl
  | position p =>
      show (Reply.number? ((s.layout.cells.take s.layout.count).findIdx? _), s.layout) = _
      rw [count_layout, take_cells_layout]
      rfl

end Sequence

/-! ### Runs -/

variable {α : Type}

theorem Registry.run_toSequence (ops : List (Operation α)) {r : Registry α}
    (h : r.toSequence.Fits) :
    (run Registry.perform ops r).1 = (run Sequence.perform ops r.toSequence).1 := by
  refine (run_simulates (R := fun r s => r.toSequence = s ∧ s.Fits) ?_ ops ⟨rfl, h⟩).1
  rintro op r _ ⟨rfl, hfits⟩
  rw [Registry.perform_toSequence op hfits]
  exact ⟨rfl, rfl, Registry.fits_perform op hfits⟩

theorem Buffer.run_layout (ops : List (Operation α)) {s : Sequence α} (h : s.Fits) :
    (run Buffer.perform ops s.layout).1 = (run Sequence.perform ops s).1 := by
  refine (run_simulates (R := fun b s => b = s.layout ∧ s.Fits) ?_ ops ⟨rfl, h⟩).1
  rintro op _ s ⟨rfl, hfits⟩
  rw [Sequence.perform_layout op hfits]
  exact ⟨rfl, rfl, Sequence.fits_perform op hfits⟩

/-- In every run from a new registry, the replies are those of a list of optional entries; and so
are the replies of the cells that a registry is stored in. -/
theorem Registry.run_new_eq_sequence (capacity : Nat) (policy : IndexPolicy)
    (ops : List (Operation α)) :
    (run Registry.perform ops (Registry.new capacity policy)).1 =
        (run Sequence.perform ops (Sequence.new capacity policy)).1 ∧
      (run Buffer.perform ops (Buffer.new capacity policy)).1 =
        (run Sequence.perform ops (Sequence.new capacity policy)).1 := by
  have hfits : (Sequence.new capacity policy : Sequence α).Fits :=
    Sequence.fits_new capacity policy
  constructor
  · rw [← Registry.toSequence_new]
    exact Registry.run_toSequence ops hfits
  · rw [← Sequence.layout_new]
    exact Buffer.run_layout ops hfits

end ExpressModel
