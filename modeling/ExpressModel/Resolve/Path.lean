import ExpressModel.Dictionary.Basic

/-! # Search paths

A depth-first search keeps the path of handles it is inside of and refuses to enter one again.
`offPath` counts the descriptors that a path has not entered: it falls whenever a path is
extended by a descriptor that is not on it (`offPath_cons_lt`), so such searches end. -/

namespace ExpressModel.Dictionary

/-- The number of descriptors that are not on the path. -/
def offPath (d : Dictionary) (path : List TypeId) : Nat :=
  d.typeIds.countP fun id => decide (id ∉ path)

/-- A condition that is stronger, and fails of one more element of a list, holds of fewer of its
elements. -/
theorem countP_lt_countP {α : Type} {p q : α → Bool} {a : α} :
    ∀ {l : List α}, (∀ x, q x = true → p x = true) → a ∈ l → p a = true → q a = false →
      l.countP q < l.countP p
  | [], _, h, _, _ => by simp at h
  | b :: l, hqp, h, hp, hq => by
    have hle : l.countP q ≤ l.countP p := List.countP_mono_left fun x _ => hqp x
    have hq' : ¬q a = true := by simp [hq]
    rcases List.mem_cons.mp h with rfl | h
    · rw [List.countP_cons_of_pos hp, List.countP_cons_of_neg hq']
      omega
    · have ih := countP_lt_countP hqp h hp hq
      by_cases hb : q b = true
      · rw [List.countP_cons_of_pos hb, List.countP_cons_of_pos (hqp b hb)]
        omega
      · have hle' : l.countP p ≤ (b :: l).countP p := by rw [List.countP_cons]; omega
        rw [List.countP_cons_of_neg hb]
        omega

theorem offPath_cons_lt {d : Dictionary} {path : List TypeId} {id : TypeId} {t : Descriptor}
    (h : d.find? id = some t) (hnew : id ∉ path) : d.offPath (id :: path) < d.offPath path :=
  countP_lt_countP (fun x hx => by
      simp only [decide_eq_true_eq, List.mem_cons, not_or] at hx ⊢; exact hx.2)
    (mem_typeIds.mpr (by simp [h]) : id ∈ d.typeIds) (by simpa using hnew) (by simp)

end ExpressModel.Dictionary
