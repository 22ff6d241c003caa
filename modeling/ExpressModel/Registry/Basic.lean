import ExpressModel.Config.Basic
import ExpressModel.Edit

/-! # Registries

A registry is a sequence of slots, each occupied or vacant, together with a capacity and a policy
for writes beyond the end.  The slots are those below the length; room set aside beyond it is
only a number.

The view of a registry is the list of its slots, `toList`, and each operation has a lemma that
says what it does to the view: an element is appended (`toList_append`), inserted
(`toList_insertAt`), written behind a gap of vacant slots (`toList_place`) or erased
(`toList_remove`), and `live_eq` reads the occupied slots off it. -/

namespace ExpressModel

/-- A sequence of slots with a capacity and a policy for writes beyond the end. -/
structure Registry (α : Type) where
  slots : Array (Option α)
  capacity : Nat
  policy : IndexPolicy

namespace Registry

variable {α : Type}

/-- The capacity that can be set aside in advance, and below which every index can be written
to. -/
def maxCapacity : Nat :=
  1 <<< 24

/-- The capacity of a registry that nobody has configured. -/
def defaultCapacity : Nat :=
  16

/-- An empty registry with room for one slot at least and `maxCapacity` slots at most. -/
def new (capacity : Nat) (policy : IndexPolicy) : Registry α :=
  ⟨#[], max 1 (min capacity maxCapacity), policy⟩

/-- An empty registry, laid out by the options. -/
def ofOptions (options : RegistryOptions) : Registry α :=
  new options.initialCapacity options.indexPolicy

/-- An empty registry, laid out by the default options. -/
def empty : Registry α :=
  new defaultCapacity .strict

instance : Inhabited (Registry α) := ⟨empty⟩

/-! ### Reading -/

/-- The view of a registry: its slots in order. -/
def toList (r : Registry α) : List (Option α) :=
  r.slots.toList

/-- The number of slots, vacant ones included. -/
def count (r : Registry α) : Nat :=
  r.slots.size

@[simp] theorem length_toList (r : Registry α) : r.toList.length = r.count := by
  simp [toList, count]

def isEmpty (r : Registry α) : Bool :=
  r.count == 0

/-- The element at an index; none in a vacant slot and beyond the end. -/
def get? (r : Registry α) (i : Nat) : Option α :=
  r.slots[i]?.join

theorem get?_eq (r : Registry α) (i : Nat) : r.get? i = r.toList[i]?.join := by
  simp [get?, toList]

/-- The elements, vacant slots left out. -/
def live (r : Registry α) : List α :=
  (r.slots.filterMap id).toList

theorem live_eq (r : Registry α) : r.live = r.toList.filterMap id := by
  simp [live, toList]

/-- The first index whose element satisfies the condition. -/
def position? (r : Registry α) (p : α → Bool) : Option Nat :=
  r.slots.findIdx? fun slot => slot.any p

theorem position?_eq (r : Registry α) (p : α → Bool) :
    r.position? p = r.toList.findIdx? fun slot => slot.any p := by
  rcases r with ⟨⟨slots⟩, _, _⟩
  simp [position?, toList]

/-! ### Room -/

/-- Makes room for an index: a registry that is too small grows to twice the slots needed, and
to twice its capacity at least. -/
def reserve (r : Registry α) (i : Nat) : Registry α :=
  if i < r.capacity then r else { r with capacity := max (2 * (i + 1)) (2 * r.capacity) }

@[simp] theorem slots_reserve (r : Registry α) (i : Nat) : (r.reserve i).slots = r.slots := by
  unfold reserve; split <;> rfl

@[simp] theorem policy_reserve (r : Registry α) (i : Nat) : (r.reserve i).policy = r.policy := by
  unfold reserve; split <;> rfl

@[simp] theorem toList_reserve (r : Registry α) (i : Nat) : (r.reserve i).toList = r.toList := by
  simp [toList]

theorem lt_capacity_reserve (r : Registry α) (i : Nat) : i < (r.reserve i).capacity := by
  unfold reserve; split
  · assumption
  · simp only; omega

/-- Takes over the policy and makes room for the slots that the options ask for. -/
def applyOptions (options : RegistryOptions) (r : Registry α) : Registry α :=
  let wanted := min options.initialCapacity maxCapacity
  let r := { r with policy := options.indexPolicy }
  if wanted = 0 then r else r.reserve (wanted - 1)

@[simp] theorem toList_applyOptions (options : RegistryOptions) (r : Registry α) :
    (r.applyOptions options).toList = r.toList := by
  unfold applyOptions; dsimp only; split <;> simp [toList]

@[simp] theorem policy_applyOptions (options : RegistryOptions) (r : Registry α) :
    (r.applyOptions options).policy = options.indexPolicy := by
  unfold applyOptions; dsimp only; split <;> simp

/-! ### Inserting -/

/-- Inserts an element before the slot at an index up to the length. -/
def insertAt (r : Registry α) (i : Nat) (a : α) : Registry α :=
  let r := r.reserve r.count
  { r with slots := r.slots.insertIdxIfInBounds i (some a) }

theorem toList_insertAt {r : Registry α} {i : Nat} (h : i ≤ r.count) (a : α) :
    (r.insertAt i a).toList = r.toList.insertIdx i (some a) := by
  have h' : i ≤ r.slots.size := h
  simp [insertAt, toList, Array.insertIdxIfInBounds, h', Array.toList_insertIdx]

def append (a : α) (r : Registry α) : Registry α :=
  r.insertAt r.count a

@[simp] theorem toList_append (a : α) (r : Registry α) :
    (r.append a).toList = r.toList ++ [some a] := by
  have h := toList_insertAt (Nat.le_refl r.count) a
  rw [← length_toList, List.insertIdx_length_self] at h
  simpa [append] using h

/-! ### Writing -/

/-- Occupies a slot, behind vacant slots when it lies beyond the end. -/
def place (r : Registry α) (i : Nat) (a : α) : Registry α :=
  if i < r.count then
    { r with slots := r.slots.setIfInBounds i (some a) }
  else
    { r with slots := (r.slots ++ Array.replicate (i - r.count) none).push (some a) }

theorem toList_place (r : Registry α) (i : Nat) (a : α) :
    (r.place i a).toList =
      if i < r.count then r.toList.set i (some a)
      else r.toList ++ List.replicate (i - r.count) none ++ [some a] := by
  unfold place
  split <;> simp [toList]

/-- Writes a slot at an index that can be reached: one below `maxCapacity` or below the
capacity. -/
def write (i : Nat) (a : α) : Edit (Registry α) Unit :=
  fun r =>
    if i < max maxCapacity r.capacity then .ok () ((r.reserve i).place i a)
    else .error (.indexOutOfRange i r.count) r

/-- Overwrites a slot, or writes beyond the end where the policy allows it. -/
def set (i : Nat) (a : α) : Edit (Registry α) Unit :=
  fun r =>
    if r.count < i ∧ r.policy = .strict then .error (.indexOutOfRange i r.count) r
    else write i a r

/-- Inserts an element at an index, or at the end; an index beyond the end is written where the
policy allows it.  The answer is the index the element landed at. -/
def insert (a : α) (at? : Option Nat) : Edit (Registry α) Nat :=
  fun r =>
    let i := at?.getD r.count
    if i ≤ r.count then .ok i (r.insertAt i a)
    else match r.policy with
      | .strict => .error (.indexOutOfRange i r.count) r
      | .extend => (do write i a; return i : Edit (Registry α) Nat) r

/-- Changes the element at an index in place. -/
def modifyAt (i : Nat) (f : α → α) (r : Registry α) : Registry α :=
  { r with slots := r.slots.modify i (·.map f) }

/-! ### Removing -/

/-- Takes out a slot and closes the gap; the answer is what the slot held. -/
def remove (i : Nat) (r : Registry α) : Option α × Registry α :=
  (r.get? i, { r with slots := r.slots.eraseIdxIfInBounds i })

theorem toList_remove (i : Nat) (r : Registry α) :
    (r.remove i).2.toList = r.toList.eraseIdx i := by
  simp [remove, toList]

/-- Takes out all slots; the answer is how many were occupied. -/
def clear (r : Registry α) : Nat × Registry α :=
  (r.slots.countP Option.isSome, { r with slots := #[] })

@[simp] theorem toList_clear (r : Registry α) : r.clear.2.toList = [] := by
  simp [clear, toList]

end Registry

end ExpressModel
