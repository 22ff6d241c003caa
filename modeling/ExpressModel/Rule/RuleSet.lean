import ExpressModel.Registry.Owned
import ExpressModel.Versioned

/-! # Rule sets

A rule set owns an ordered set of rules that comes into being with the first rule.  The rules
may be replaced as a whole; who kept the former registry keeps it.  The set remembers the options
it was last given: they apply to the rules it has, or to those it will have.

The view of a set is `current?`, the rules in force; each operation has a lemma that says what
it does to them.  `kept?_replace` says that a replacement leaves kept versions as they are. -/

namespace ExpressModel

/-- What a replacement discards without being asked to keep it. -/
inductive Warning where
  /-- A rule set with that many slots was replaced. -/
  | rulesDiscarded (count : Nat)
  /-- The entity set of a global rule, with that many slots, was replaced. -/
  | entitiesDiscarded (rule : String) (count : Nat)
  deriving DecidableEq

def Warning.message : Warning → String
  | .rulesDiscarded count => "overwriting non-empty rule set discarded=" ++ toString count
  | .entitiesDiscarded rule count =>
    "overwriting non-empty entity set rule=" ++ rule ++ " discarded=" ++ toString count

/-- A set of rules that is created on demand and replaced as a whole. -/
structure RuleSet (α : Type) where
  versions? : Option (Versioned (OwnedRegistry α)) := none
  options : RegistryOptions := {}

namespace RuleSet

variable {α : Type}

instance : Inhabited (RuleSet α) := ⟨{}⟩

/-- The rules in force, if the set has come into being. -/
def current? (s : RuleSet α) : Option (OwnedRegistry α) :=
  s.versions?.map Versioned.current

def version? (s : RuleSet α) : Option Nat :=
  s.versions?.map Versioned.latest

/-- The rules of a version that somebody kept. -/
def kept? (s : RuleSet α) (version : Nat) : Option (OwnedRegistry α) :=
  s.versions?.bind (·.get? version)

/-- The number of slots, none before the set has come into being. -/
def count (s : RuleSet α) : Nat :=
  s.current?.elim 0 OwnedRegistry.count

def isEmpty (s : RuleSet α) : Bool :=
  s.count == 0

def live (s : RuleSet α) : List (Element α) :=
  s.current?.elim [] OwnedRegistry.live

/-- The rules as values, vacant slots left out. -/
def values (s : RuleSet α) : List α :=
  s.live.map Element.value

/-- The rules in force, created by the options of the set when there are none. -/
def ensured (s : RuleSet α) : Versioned (OwnedRegistry α) :=
  s.versions?.getD (Versioned.first (OwnedRegistry.ofOptions s.options))

def init (s : RuleSet α) : RuleSet α :=
  { s with versions? := some s.ensured }

/-- Edits the rules in force, which are created when there are none. -/
def edit {β : Type} (e : Edit (OwnedRegistry α) β) : Edit (RuleSet α) β :=
  Edit.within RuleSet.ensured (fun v s => { s with versions? := some v })
    (Edit.within Versioned.current (fun r v => { v with current := r }) e)

/-- Edits the rules of a version that somebody kept; a version that never was is left alone. -/
def editKept {β : Type} (version : Nat) (e : Edit (OwnedRegistry α) β) :
    Edit (RuleSet α) (Option β) :=
  fun s => match s.kept? version with
    | none => .ok none s
    | some r =>
      let put := fun r => { s with versions? := s.versions?.map (·.modifyAt version fun _ => r) }
      match e r with
      | .ok b r => .ok (some b) (put r)
      | .error err r => .error err (put r)

/-- Puts a rule at the end; the answer is the element it became. -/
def push (rule : α) (s : RuleSet α) : Element α × RuleSet α :=
  let v := s.ensured
  let (e, r) := v.current.append rule
  (e, { s with versions? := some { v with current := r } })

/-- Takes over the options, for the rules in force and for those to come. -/
def applyOptions (options : RegistryOptions) (s : RuleSet α) : RuleSet α :=
  { versions? := s.versions?.map (·.modify (·.applyOptions options)), options }

/-- Puts another registry in force; the answer is the former one, with a warning when it had
slots. -/
def replace (rules : OwnedRegistry α) (s : RuleSet α) :
    (Option (OwnedRegistry α) × Option Warning) × RuleSet α :=
  let warning? := s.current?.bind fun r =>
    if r.isEmpty then none else some (.rulesDiscarded r.count)
  let versions := match s.versions? with
    | none => Versioned.first rules
    | some v => v.replace rules
  ((s.current?, warning?), { s with versions? := some versions })

/-! ### The rules in force -/

@[simp] theorem current?_applyOptions (options : RegistryOptions) (s : RuleSet α) :
    (s.applyOptions options).current? = s.current?.map (·.applyOptions options) := by
  simp [current?, applyOptions, Versioned.modify, Function.comp_def]

@[simp] theorem current?_replace (rules : OwnedRegistry α) (s : RuleSet α) :
    (s.replace rules).2.current? = some rules := by
  unfold replace; dsimp only; split <;> rfl

theorem ensured_of_versions? {s : RuleSet α} {v : Versioned (OwnedRegistry α)}
    (h : s.versions? = some v) : s.ensured = v := by
  simp [ensured, h]

/-- A version that was in force before a replacement is still there after it. -/
theorem kept?_replace (rules : OwnedRegistry α) {s : RuleSet α} {version : Nat}
    (h : (s.kept? version).isSome) : (s.replace rules).2.kept? version = s.kept? version := by
  rcases hv : s.versions? with _ | v
  · simp [kept?, hv] at h
  · simp only [kept?, hv, replace, Option.bind_some] at h ⊢
    have hle : version ≤ v.latest := by
      unfold Versioned.get? at h
      split at h
      · omega
      · have : version < v.retired.size := by simpa using h
        unfold Versioned.latest; omega
    exact v.get?_replace rules hle

end RuleSet

end ExpressModel
