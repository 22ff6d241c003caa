/-! # Versioned values

A versioned value is replaced as a whole: the version in force is retired and another takes its
place.  Whoever kept a version goes on reading and editing that one, so retired versions stay.
Versions are numbered from 0 in the order in which they came into force. -/

namespace ExpressModel

/-- A value in force with the values it has replaced. -/
structure Versioned (α : Type) where
  retired : Array α
  current : α

namespace Versioned

variable {α : Type}

def first (a : α) : Versioned α :=
  ⟨#[], a⟩

def latest (v : Versioned α) : Nat :=
  v.retired.size

def get? (v : Versioned α) (n : Nat) : Option α :=
  if n = v.latest then some v.current else v.retired[n]?

def replace (a : α) (v : Versioned α) : Versioned α :=
  ⟨v.retired.push v.current, a⟩

/-- Changes the version in force in place. -/
def modify (f : α → α) (v : Versioned α) : Versioned α :=
  { v with current := f v.current }

/-- Changes the version of a number in place. -/
def modifyAt (n : Nat) (f : α → α) (v : Versioned α) : Versioned α :=
  if n = v.latest then v.modify f else { v with retired := v.retired.modify n f }

@[simp] theorem get?_latest (v : Versioned α) : v.get? v.latest = some v.current := by
  simp [get?]

/-- A retired version is read as it was when it was replaced. -/
theorem get?_replace (a : α) (v : Versioned α) {n : Nat} (h : n ≤ v.latest) :
    (v.replace a).get? n = v.get? n := by
  have hn : n ≠ v.retired.size + 1 := by unfold latest at h; omega
  by_cases he : n = v.retired.size <;>
    simp [get?, replace, latest, hn, he, Array.getElem?_push]

/-- Changing the version in force leaves the others alone. -/
theorem get?_modify (f : α → α) (v : Versioned α) {n : Nat} (h : n ≠ v.latest) :
    (v.modify f).get? n = v.get? n := by
  unfold latest at h
  simp [get?, modify, latest, h]

end Versioned

end ExpressModel
