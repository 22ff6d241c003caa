import ExpressModel.Registry.Basic

/-! # Owning registries

An owning registry tells its elements apart even where their values agree: every value that
enters becomes a new element with a number of its own, taken from a counter of the elements
issued.  All other behaviour is that of the registry of elements inside.

`values` forgets the numbers; `values_append` and `values_appendAll` say what enters at the
end. -/

namespace ExpressModel

/-- A value with the number that tells it from every other element of its registry. -/
structure Element (α : Type) where
  number : Nat
  value : α
  deriving Inhabited

/-- A registry of numbered elements, with the count of numbers given out. -/
structure OwnedRegistry (α : Type) where
  registry : Registry (Element α)
  issued : Nat

namespace OwnedRegistry

variable {α : Type}

def new (capacity : Nat) (policy : IndexPolicy) : OwnedRegistry α :=
  ⟨Registry.new capacity policy, 0⟩

/-- An empty registry, laid out by the options. -/
def ofOptions (options : RegistryOptions) : OwnedRegistry α :=
  ⟨Registry.ofOptions options, 0⟩

/-- An empty registry, laid out by the default options. -/
def empty : OwnedRegistry α :=
  ⟨Registry.empty, 0⟩

instance : Inhabited (OwnedRegistry α) := ⟨empty⟩

/-! ### Reading -/

/-- The number of slots, vacant ones included. -/
def count (r : OwnedRegistry α) : Nat :=
  r.registry.count

def isEmpty (r : OwnedRegistry α) : Bool :=
  r.registry.isEmpty

def capacity (r : OwnedRegistry α) : Nat :=
  r.registry.capacity

def policy (r : OwnedRegistry α) : IndexPolicy :=
  r.registry.policy

def get? (r : OwnedRegistry α) (i : Nat) : Option (Element α) :=
  r.registry.get? i

/-- The element at an index, which has to be occupied. -/
def requireAt (r : OwnedRegistry α) (i : Nat) : Except Error (Element α) :=
  (r.get? i).elim (.error (.indexOutOfRange i r.count)) .ok

/-- The elements, vacant slots left out. -/
def live (r : OwnedRegistry α) : List (Element α) :=
  r.registry.live

/-- The values of the elements, vacant slots left out. -/
def values (r : OwnedRegistry α) : List α :=
  r.live.map Element.value

/-- The index of the slot that holds this very element. -/
def indexOf? (r : OwnedRegistry α) (e : Element α) : Option Nat :=
  r.registry.position? fun held => held.number == e.number

/-! ### Editing -/

/-- An edit of the slots that takes in a value. -/
def taking {β : Type} (a : α) (edit : Element α → Edit (Registry (Element α)) β) :
    Edit (OwnedRegistry α) (Element α) :=
  fun ⟨registry, issued⟩ =>
    let e := ⟨issued, a⟩
    match edit e registry with
    | .ok _ registry => .ok e ⟨registry, issued + 1⟩
    | .error err registry => .error err ⟨registry, issued⟩

/-- Puts a value at the end; the answer is the element it became. -/
def append (a : α) : OwnedRegistry α → Element α × OwnedRegistry α
  | ⟨registry, issued⟩ => (⟨issued, a⟩, ⟨registry.append ⟨issued, a⟩, issued + 1⟩)

/-- Inserts a value at an index, or at the end; the answer is the element it became. -/
def insert (a : α) (at? : Option Nat) : Edit (OwnedRegistry α) (Element α) :=
  taking a fun e => Registry.insert e at?

/-- Overwrites a slot, or writes beyond the end where the policy allows it. -/
def set (i : Nat) (a : α) : Edit (OwnedRegistry α) Unit :=
  discard (taking a fun e => Registry.set i e)

/-- Takes out a slot and closes the gap; the answer is what the slot held. -/
def remove (i : Nat) : OwnedRegistry α → Option (Element α) × OwnedRegistry α
  | ⟨registry, issued⟩ => ((registry.remove i).1, ⟨(registry.remove i).2, issued⟩)

/-- Takes out all slots; the answer is how many were occupied. -/
def clear : OwnedRegistry α → Nat × OwnedRegistry α
  | ⟨registry, issued⟩ => (registry.clear.1, ⟨registry.clear.2, issued⟩)

/-- Takes over the policy and makes room for the slots that the options ask for. -/
def applyOptions (options : RegistryOptions) (r : OwnedRegistry α) : OwnedRegistry α :=
  { r with registry := r.registry.applyOptions options }

/-- Changes the value of the element at an index; it stays the same element. -/
def modifyAt (i : Nat) (f : α → α) (r : OwnedRegistry α) : OwnedRegistry α :=
  { r with registry := r.registry.modifyAt i fun e => { e with value := f e.value } }

/-- Puts all values at the end, in order. -/
def appendAll (as : List α) (r : OwnedRegistry α) : OwnedRegistry α :=
  as.foldl (fun r a => (r.append a).2) r

@[simp] theorem values_new (capacity : Nat) (policy : IndexPolicy) :
    (new capacity policy : OwnedRegistry α).values = [] := by
  simp [values, live, new, Registry.live_eq, Registry.toList, Registry.new]

@[simp] theorem values_append (a : α) (r : OwnedRegistry α) :
    (r.append a).2.values = r.values ++ [a] := by
  simp [values, live, append, Registry.live_eq]

@[simp] theorem issued_append (a : α) (r : OwnedRegistry α) :
    (r.append a).2.issued = r.issued + 1 := rfl

theorem values_appendAll (as : List α) (r : OwnedRegistry α) :
    (r.appendAll as).values = r.values ++ as := by
  induction as generalizing r with
  | nil => simp [appendAll]
  | cons a as ih =>
    rw [appendAll, List.foldl_cons, ← appendAll, ih, values_append, List.append_assoc,
      List.singleton_append]

@[simp] theorem values_applyOptions (options : RegistryOptions) (r : OwnedRegistry α) :
    (r.applyOptions options).values = r.values := by
  simp [values, live, applyOptions, Registry.live_eq]

end OwnedRegistry

end ExpressModel
