import Mathlib.Data.List.Forall2
import ExpressModel.Error

/-! # Traversals

A traversal that may be refused answers one value for each item, in order (`mapM_eq_ok_iff`), or
the refusal of the first item that is refused (`mapM_eq_error_iff`).

`AnswersIn` relates a computation to one that answers what the first answers, and may answer more;
sequences and traversals of such computations are such again. -/

namespace ExpressModel.Traversal

variable {ε α β : Type} {f g : α → Except ε β} {as : List α}

theorem bind_eq_ok_iff {x : Except ε α} {next : α → Except ε β} {b : β} :
    (x >>= next) = .ok b ↔ ∃ a, x = .ok a ∧ next a = .ok b := by
  cases x with
  | error err =>
      constructor
      · intro h
        cases h
      · rintro ⟨a, ha, -⟩
        cases ha
  | ok a =>
      constructor
      · intro h
        exact ⟨a, rfl, h⟩
      · rintro ⟨a, ha, h⟩
        cases ha
        exact h

theorem bind_eq_error_iff {x : Except ε α} {next : α → Except ε β} {err : ε} :
    (x >>= next) = .error err ↔ x = .error err ∨ ∃ a, x = .ok a ∧ next a = .error err := by
  cases x with
  | error e =>
      constructor
      · intro h
        cases h
        exact .inl rfl
      · rintro (h | ⟨a, ha, -⟩)
        · cases h
          rfl
        · cases ha
  | ok a =>
      constructor
      · intro h
        exact .inr ⟨a, rfl, h⟩
      · rintro (h | ⟨b, hb, h⟩)
        · cases h
        · cases hb
          exact h

theorem map_eq_ok_iff {x : Except ε α} {next : α → β} {b : β} :
    x.map next = .ok b ↔ ∃ a, x = .ok a ∧ next a = b := by
  cases x with
  | error err =>
      constructor
      · intro h
        cases h
      · rintro ⟨a, ha, -⟩
        cases ha
  | ok a =>
      constructor
      · intro h
        cases h
        exact ⟨a, rfl, rfl⟩
      · rintro ⟨a, ha, rfl⟩
        cases ha
        rfl

theorem exists_map_eq_ok_iff {x : Except ε α} {next : α → β} :
    (∃ b, x.map next = .ok b) ↔ ∃ a, x = .ok a := by
  cases x <;> simp [Except.map]

theorem map_eq_error_iff {x : Except ε α} {next : α → β} {err : ε} :
    x.map next = .error err ↔ x = .error err := by
  cases x with
  | error e =>
      constructor
      · intro h
        cases h
        rfl
      · intro h
        cases h
        rfl
  | ok a =>
      constructor
      · intro h
        cases h
      · intro h
        cases h

theorem mapM_congr (h : ∀ a ∈ as, f a = g a) : as.mapM f = as.mapM g := by
  induction as with
  | nil => rfl
  | cons a as ih =>
      rw [List.mapM_cons, List.mapM_cons, h a List.mem_cons_self,
        ih fun b hb => h b (List.mem_cons_of_mem a hb)]

theorem mapM_map {γ : Type} (f : α → Except ε β) (g : β → γ) (as : List α) :
    as.mapM (fun a => (f a).map g) = (as.mapM f).map (List.map g) := by
  induction as with
  | nil => rfl
  | cons a as ih =>
      rw [List.mapM_cons, List.mapM_cons, ih]
      cases f a with
      | error err => rfl
      | ok b => cases as.mapM f <;> rfl

theorem mapM_eq_ok_iff {bs : List β} :
    as.mapM f = .ok bs ↔ List.Forall₂ (fun a b => f a = .ok b) as bs := by
  induction as generalizing bs with
  | nil =>
      rw [List.mapM_nil, List.forall₂_nil_left_iff]
      constructor
      · intro h
        cases h
        rfl
      · rintro rfl
        rfl
  | cons a as ih =>
      rw [List.mapM_cons, bind_eq_ok_iff, List.forall₂_cons_left_iff]
      constructor
      · rintro ⟨b, hb, h⟩
        obtain ⟨rest, hrest, h⟩ := bind_eq_ok_iff.mp h
        cases h
        exact ⟨b, rest, hb, ih.mp hrest, rfl⟩
      · rintro ⟨b, rest, hb, hrest, rfl⟩
        refine ⟨b, hb, ?_⟩
        rw [ih.mpr hrest]
        rfl

theorem mapM_eq_error_iff {err : ε} :
    as.mapM f = .error err ↔ ∃ before a after, as = before ++ a :: after ∧
      (∀ b ∈ before, ∃ y, f b = .ok y) ∧ f a = .error err := by
  induction as with
  | nil =>
      constructor
      · intro h
        cases h
      · rintro ⟨before, a, after, h, -⟩
        exact absurd h (by simp)
  | cons a as ih =>
      rw [List.mapM_cons, bind_eq_error_iff]
      constructor
      · rintro (h | ⟨y, hy, h⟩)
        · exact ⟨[], a, as, rfl, by simp, h⟩
        · rcases bind_eq_error_iff.mp h with h | ⟨ys, -, h⟩
          · obtain ⟨before, b, after, rfl, hbefore, hb⟩ := ih.mp h
            refine ⟨a :: before, b, after, rfl, ?_, hb⟩
            intro c hc
            rcases List.mem_cons.mp hc with rfl | hc
            · exact ⟨y, hy⟩
            · exact hbefore c hc
          · cases h
      · rintro ⟨before, b, after, h, hbefore, hb⟩
        cases before with
        | nil =>
            obtain ⟨rfl, rfl⟩ := List.cons.inj h
            exact .inl hb
        | cons c before =>
            obtain ⟨rfl, rfl⟩ := List.cons.inj h
            obtain ⟨y, hy⟩ := hbefore a List.mem_cons_self
            have hrest : (before ++ b :: after).mapM f = .error err :=
              ih.mpr ⟨before, b, after, rfl, fun c hc => hbefore c (List.mem_cons_of_mem a hc), hb⟩
            refine .inr ⟨y, hy, ?_⟩
            show ((before ++ b :: after).mapM f >>= _) = _
            rw [hrest]
            rfl

theorem exists_mapM_eq_ok_iff :
    (∃ bs, as.mapM f = .ok bs) ↔ ∀ a ∈ as, ∃ b, f a = .ok b := by
  constructor
  · rintro ⟨bs, h⟩
    rw [mapM_eq_ok_iff] at h
    induction h with
    | nil =>
        intro a ha
        cases ha
    | cons hb _ ih =>
        intro a ha
        rcases List.mem_cons.mp ha with rfl | ha
        · exact ⟨_, hb⟩
        · exact ih a ha
  · intro h
    cases hall : as.mapM f with
    | ok bs => exact ⟨bs, rfl⟩
    | error err =>
        obtain ⟨before, a, after, rfl, -, ha⟩ := mapM_eq_error_iff.mp hall
        obtain ⟨b, hb⟩ := h a (by simp)
        exact absurd (ha.symm.trans hb) (by simp)

/-! ### Answers that stay -/

/-- What one computation answers, the other answers too. -/
def AnswersIn (x y : Except ε α) : Prop :=
  ∀ a, x = .ok a → y = .ok a

theorem AnswersIn.refl (x : Except ε α) : AnswersIn x x :=
  fun _ h => h

theorem AnswersIn.bind {x y : Except ε α} {next next' : α → Except ε β} (h : AnswersIn x y)
    (hnext : ∀ a, AnswersIn (next a) (next' a)) : AnswersIn (x >>= next) (y >>= next') := by
  intro b hb
  obtain ⟨a, ha, hb⟩ := bind_eq_ok_iff.mp hb
  exact bind_eq_ok_iff.mpr ⟨a, h a ha, hnext a b hb⟩

theorem AnswersIn.map {x y : Except ε α} (h : AnswersIn x y) (next : α → β) :
    AnswersIn (x.map next) (y.map next) := by
  intro b hb
  obtain ⟨a, ha, hb⟩ := map_eq_ok_iff.mp hb
  exact map_eq_ok_iff.mpr ⟨a, h a ha, hb⟩

theorem AnswersIn.mapM (h : ∀ a ∈ as, AnswersIn (f a) (g a)) :
    AnswersIn (as.mapM f) (as.mapM g) := by
  induction as with
  | nil => exact .refl _
  | cons a as ih =>
      rw [List.mapM_cons, List.mapM_cons]
      refine (h a List.mem_cons_self).bind ?_
      intro b
      refine (ih fun c hc => h c (List.mem_cons_of_mem a hc)).bind ?_
      intro bs
      exact .refl _

end ExpressModel.Traversal
