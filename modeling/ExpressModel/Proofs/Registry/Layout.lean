import Mathlib
import ExpressModel.Proofs.Registry.Operation
import ExpressModel.Proofs.Run
import ExpressModel.Rule.RuleSet

/-! # Layouts of registries

The layout of a registry is its policy and its capacity.  A registry that options are applied to
takes over their policy and has the room they ask for (`meets_applyOptions`), provided that it has
room for one slot, as every registry has from the start (`hasRoom_run`).  An element that is added
at the end takes no room away and leaves the policy alone (`meets_append`).

The layout of a rule set is that of its rules in force or, as long as there are none, of those that
it would create.

`bare` is what is left when layouts are taken away: two registries with the same slots are bare
alike, so that applying options shows nowhere in it. -/

namespace ExpressModel

/-- How a registry is laid out. -/
structure Layout where
  policy : IndexPolicy
  capacity : Nat
  deriving DecidableEq

namespace Layout

def HasRoom (l : Layout) : Prop :=
  0 < l.capacity

/-- The policy is that of the options, and the capacity at least what they ask for. -/
structure Meets (options : RegistryOptions) (l : Layout) : Prop where
  policy : l.policy = options.indexPolicy
  capacity : max 1 (min options.initialCapacity (2 ^ 24)) ≤ l.capacity

theorem Meets.hasRoom {options : RegistryOptions} {l : Layout} (h : l.Meets options) :
    l.HasRoom := by
  have := h.capacity
  unfold HasRoom
  omega

end Layout

open Layout (HasRoom Meets)

/-! ### Registries -/

namespace Registry

variable {α : Type} {options : RegistryOptions} {r : Registry α}

def layout (r : Registry α) : Layout :=
  ⟨r.policy, r.capacity⟩

def bare (r : Registry α) : Registry α :=
  ⟨r.slots, 0, .strict⟩

theorem capacity_le_reserve (r : Registry α) (i : Nat) : r.capacity ≤ (r.reserve i).capacity := by
  unfold reserve
  split
  · exact Nat.le_refl _
  · dsimp only
    omega

theorem meets_ofOptions (options : RegistryOptions) :
    (ofOptions options : Registry α).layout.Meets options :=
  ⟨rfl, Nat.le_refl _⟩

theorem meets_applyOptions (h : r.layout.HasRoom) (options : RegistryOptions) :
    (r.applyOptions options).layout.Meets options := by
  refine ⟨policy_applyOptions options r, ?_⟩
  have hroom : 0 < r.capacity := h
  show max 1 (min options.initialCapacity maxCapacity) ≤ (r.applyOptions options).capacity
  unfold applyOptions
  dsimp only
  split
  · dsimp only
    omega
  · have hlt := lt_capacity_reserve { r with policy := options.indexPolicy }
      (min options.initialCapacity maxCapacity - 1)
    omega

theorem meets_append (h : r.layout.Meets options) (a : α) : (r.append a).layout.Meets options := by
  have hle := capacity_le_reserve r r.count
  refine ⟨(policy_reserve r r.count).trans h.policy, ?_⟩
  exact Nat.le_trans h.capacity hle

@[simp] theorem bare_applyOptions (options : RegistryOptions) (r : Registry α) :
    (r.applyOptions options).bare = r.bare := by
  have hslots : (r.applyOptions options).slots = r.slots := by
    unfold applyOptions
    dsimp only
    split <;> simp
  unfold bare
  rw [hslots]

theorem hasRoom_new (capacity : Nat) (policy : IndexPolicy) :
    (new capacity policy : Registry α).layout.HasRoom := by
  show 0 < max 1 (min capacity maxCapacity)
  omega

@[simp] theorem capacity_place (r : Registry α) (i : Nat) (a : α) :
    (r.place i a).capacity = r.capacity := by
  unfold place
  split <;> rfl

theorem write_cases (i : Nat) (a : α) (r : Registry α) :
    write i a r = .ok () ((r.reserve i).place i a) ∨ ∃ err, write i a r = .error err r := by
  unfold write
  split
  · exact .inl rfl
  · exact .inr ⟨_, rfl⟩

theorem hasRoom_place_reserve (h : r.layout.HasRoom) (i : Nat) (a : α) :
    ((r.reserve i).place i a).layout.HasRoom := by
  show 0 < ((r.reserve i).place i a).capacity
  rw [capacity_place]
  exact Nat.lt_of_lt_of_le h (capacity_le_reserve r i)

theorem hasRoom_perform (op : Operation α) (h : r.layout.HasRoom) :
    (perform op r).2.layout.HasRoom := by
  cases op with
  | append a => exact Nat.lt_of_lt_of_le h (capacity_le_reserve r r.count)
  | insert a at? =>
      have hwrite := write_cases (at?.getD r.count) a r
      simp only [perform, insert]
      split
      · exact Nat.lt_of_lt_of_le h (capacity_le_reserve r r.count)
      · split
        · exact h
        · rcases hwrite with hw | ⟨err, hw⟩
          · simp only [bind, EStateM.bind, hw]
            exact hasRoom_place_reserve h _ a
          · simp only [bind, EStateM.bind, hw]
            exact h
  | set i a =>
      simp only [perform, Registry.set]
      split
      · exact h
      · rcases write_cases i a r with hw | ⟨err, hw⟩
        · rw [hw]
          exact hasRoom_place_reserve h i a
        · rw [hw]
          exact h
  | applyOptions options => exact (meets_applyOptions h options).hasRoom
  | _ => exact h

/-- Every registry has room for a slot, whatever has been done to it. -/
theorem hasRoom_run (capacity : Nat) (policy : IndexPolicy) (ops : List (Operation α)) :
    (run perform ops (new capacity policy)).2.layout.HasRoom :=
  run_preserves (P := fun r : Registry α => r.layout.HasRoom)
    (fun op _ h => hasRoom_perform op h) ops (hasRoom_new capacity policy)

end Registry

/-! ### Owning registries -/

namespace OwnedRegistry

variable {α : Type} {options : RegistryOptions} {r : OwnedRegistry α}

def layout (r : OwnedRegistry α) : Layout :=
  r.registry.layout

/-- An owning registry without its layout. -/
def bare (r : OwnedRegistry α) : OwnedRegistry α :=
  { r with registry := r.registry.bare }

theorem meets_ofOptions (options : RegistryOptions) :
    (ofOptions options : OwnedRegistry α).layout.Meets options :=
  Registry.meets_ofOptions options

theorem meets_applyOptions (h : r.layout.HasRoom) (options : RegistryOptions) :
    (r.applyOptions options).layout.Meets options :=
  Registry.meets_applyOptions h options

theorem meets_append (h : r.layout.Meets options) (a : α) :
    (r.append a).2.layout.Meets options :=
  Registry.meets_append h _

@[simp] theorem bare_applyOptions (options : RegistryOptions) (r : OwnedRegistry α) :
    (r.applyOptions options).bare = r.bare := by
  unfold bare applyOptions
  rw [Registry.bare_applyOptions]

end OwnedRegistry

/-! ### Rule sets -/

namespace RuleSet

variable {α : Type} {options : RegistryOptions} {s : RuleSet α}

/-- The layout of the rules in force, or of those that are created when there are none. -/
def layout (s : RuleSet α) : Layout :=
  s.ensured.current.layout

/-- A rule set without the layout of its rules in force and without options. -/
def bare (s : RuleSet α) : RuleSet α where
  versions? := s.versions?.map (·.modify OwnedRegistry.bare)

theorem meets_new (options : RegistryOptions) :
    ({ options } : RuleSet α).layout.Meets options :=
  OwnedRegistry.meets_ofOptions options

theorem meets_applyOptions (h : s.layout.HasRoom) (options : RegistryOptions) :
    (s.applyOptions options).layout.Meets options := by
  obtain ⟨versions?, former⟩ := s
  cases versions? with
  | none => exact meets_new options
  | some v => exact OwnedRegistry.meets_applyOptions h options

theorem meets_push (h : s.layout.Meets options) (rule : α) :
    (s.push rule).2.layout.Meets options :=
  OwnedRegistry.meets_append h rule

@[simp] theorem bare_applyOptions (options : RegistryOptions) (s : RuleSet α) :
    (s.applyOptions options).bare = s.bare := by
  obtain ⟨versions?, former⟩ := s
  cases versions? with
  | none => rfl
  | some v => simp [bare, applyOptions, Versioned.modify]

end RuleSet

end ExpressModel
