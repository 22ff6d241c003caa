import ExpressModel.Proofs.Building.Effect
import ExpressModel.Proofs.Run
import ExpressModel.Rule.RuleSet

/-! # Shared rule sets

The registry of a rule set is shared: who asked for it keeps it, and goes on reading and editing
that one when another has been put in force.  The registries of a set are told apart by the
numbers of their versions, so the number is what a holder keeps.

A run interleaves operations on the set with direct operations on registries that somebody kept.
Every one of them works on one registry at most: those on the set on the one in force
(`current_work`), the direct ones on theirs (`get?_work_of_lt`).  So whatever has been
replaced stays as it is while nobody works on it directly, and whatever is in force shows all that
is done to the set (`run_shares`). -/

namespace ExpressModel

namespace Versioned

variable {α : Type}

@[simp] theorem latest_modifyAt (n : Nat) (f : α → α) (v : Versioned α) :
    (v.modifyAt n f).latest = v.latest := by
  unfold modifyAt
  split
  · rfl
  · exact Array.size_modify

theorem latest_replace (a : α) (v : Versioned α) : (v.replace a).latest = v.latest + 1 :=
  Array.size_push ..

theorem get?_modifyAt (n m : Nat) (f : α → α) (v : Versioned α) :
    (v.modifyAt n f).get? m = if n = m then (v.get? m).map f else v.get? m := by
  unfold modifyAt
  by_cases hn : n = v.latest
  · rw [if_pos hn]
    by_cases hm : m = v.latest
    · rw [if_pos (hn.trans hm.symm), hm, get?_latest]
      exact get?_latest (v.modify f)
    · have hne : n ≠ m := by omega
      rw [if_neg hne, get?_modify f v hm]
  · rw [if_neg hn]
    have hlatest : ({ v with retired := v.retired.modify n f } : Versioned α).latest = v.latest :=
      Array.size_modify
    unfold get?
    rw [hlatest]
    by_cases hm : m = v.latest
    · have hne : n ≠ m := by omega
      rw [if_pos hm, if_pos hm, if_neg hne]
    · rw [if_neg hm, if_neg hm]
      exact Array.getElem?_modify

/-- What a change does to other values does not matter. -/
theorem modifyAt_congr {n : Nat} {f g : α → α} {v : Versioned α}
    (h : ∀ a, v.get? n = some a → f a = g a) : v.modifyAt n f = v.modifyAt n g := by
  unfold modifyAt
  by_cases hn : n = v.latest
  · have hcurrent : f v.current = g v.current := by
      refine h v.current ?_
      rw [hn]
      exact get?_latest v
    rw [if_pos hn, if_pos hn]
    unfold modify
    rw [hcurrent]
  · rw [if_neg hn, if_neg hn, Dictionary.modify_congr]
    intro a ha
    refine h a ?_
    unfold get?
    rw [if_neg hn, ha]

theorem modifyAt_of_none {n : Nat} {v : Versioned α} (h : v.get? n = none) (f : α → α) :
    v.modifyAt n f = v := by
  have hn : n ≠ v.latest := by
    intro hn
    rw [hn, get?_latest] at h
    cases h
  unfold get? at h
  rw [if_neg hn] at h
  unfold modifyAt
  rw [if_neg hn, Dictionary.modify_self]
  intro a ha
  rw [h] at ha
  cases ha

end Versioned

namespace RuleSet

/-! ### Operations -/

/-- An operation on a rule set, or a direct one on a registry of it that somebody kept. -/
inductive Operation (α : Type) where
  | get
  | getOrInit
  | push (rule : α)
  | applyOptions (options : RegistryOptions)
  | replace (rules : OwnedRegistry α)
  | direct (version : Nat) (e : Edit (OwnedRegistry α) Unit)

/-- What an operation answers. -/
inductive Reply (α : Type) where
  | done
  /-- The registry of that number, or none. -/
  | registry (version? : Option Nat)
  | rule (e : Element α)
  | former (rules? : Option (OwnedRegistry α)) (warning? : Option Warning)

variable {α : Type}

def perform : Operation α → RuleSet α → Reply α × RuleSet α
  | .get, s => (.registry s.version?, s)
  | .getOrInit, s => (.registry s.init.version?, s.init)
  | .push rule, s => (.rule (s.push rule).1, (s.push rule).2)
  | .applyOptions options, s => (.done, s.applyOptions options)
  | .replace rules, s =>
    (.former (s.replace rules).1.1 (s.replace rules).1.2, (s.replace rules).2)
  | .direct version e, s => (.done, (editKept version e).after s)

/-- Does the operation put another registry in force? -/
def Operation.replaces : Operation α → Bool
  | .replace _ => true
  | _ => false

/-- Does the operation bring the set into being? -/
def Operation.creates : Operation α → Bool
  | .getOrInit | .push _ | .replace _ => true
  | _ => false

/-- Is it a direct operation on the registry of the version? -/
def Operation.worksOn (version : Nat) : Operation α → Bool
  | .direct other _ => other = version
  | _ => false

/-- The options of a set after the operation. -/
def Operation.optionsAfter : Operation α → RegistryOptions → RegistryOptions
  | .applyOptions options, _ => options
  | _, options => options

/-- What an operation does to the registry of a version that is in force and stays so. -/
def Operation.effect (version : Nat) : Operation α → OwnedRegistry α → OwnedRegistry α
  | .push rule, r => (r.append rule).2
  | .applyOptions options, r => r.applyOptions options
  | .direct other e, r => if other = version then e.after r else r
  | _, r => r

/-- What an operation does to the versions of a set that has come into being. -/
def Operation.work : Operation α → Versioned (OwnedRegistry α) → Versioned (OwnedRegistry α)
  | .get, v | .getOrInit, v => v
  | .push rule, v => v.modify fun r => (r.append rule).2
  | .applyOptions options, v => v.modify (·.applyOptions options)
  | .replace rules, v => v.replace rules
  | .direct version e, v => v.modifyAt version e.after

/-! ### Single operations -/

theorem after_editKept (version : Nat) (e : Edit (OwnedRegistry α) Unit) (s : RuleSet α) :
    (editKept version e).after s =
      { s with versions? := s.versions?.map (·.modifyAt version e.after) } := by
  obtain ⟨versions?, options⟩ := s
  cases versions? with
  | none => rfl
  | some v =>
      have hkept : (⟨some v, options⟩ : RuleSet α).kept? version = v.get? version := rfl
      unfold Edit.after Edit.outcome editKept
      rw [hkept]
      simp only [Option.map_some]
      cases hr : v.get? version with
      | none => rw [Versioned.modifyAt_of_none hr]
      | some r =>
          have hchange : v.modifyAt version (fun _ => e.after r) = v.modifyAt version e.after := by
            refine Versioned.modifyAt_congr ?_
            intro a ha
            rw [hr] at ha
            cases ha
            rfl
          unfold Edit.after Edit.outcome at hchange
          dsimp only
          rw [← hchange]
          cases e r <;> rfl

theorem options_perform (op : Operation α) (s : RuleSet α) :
    (perform op s).2.options = op.optionsAfter s.options := by
  cases op with
  | direct version e => rw [perform, after_editKept]; rfl
  | _ => rfl

theorem versions?_perform {s : RuleSet α} {v : Versioned (OwnedRegistry α)}
    (h : s.versions? = some v) (op : Operation α) :
    (perform op s).2.versions? = some (op.work v) := by
  cases op with
  | get => exact h
  | getOrInit =>
      show some s.ensured = some v
      rw [ensured_of_versions? h]
  | push rule =>
      show some { s.ensured with current := (s.ensured.current.append rule).2 } = _
      rw [ensured_of_versions? h]
      rfl
  | applyOptions options =>
      show s.versions?.map _ = _
      rw [h]
      rfl
  | replace rules =>
      show (s.replace rules).2.versions? = _
      unfold replace
      rw [h]
      rfl
  | direct version e =>
      rw [perform, after_editKept, h]
      rfl

theorem versions?_perform_of_none {s : RuleSet α} (h : s.versions? = none) {op : Operation α}
    (hop : op.creates = false) : (perform op s).2.versions? = none := by
  cases op with
  | get => exact h
  | applyOptions options =>
      show s.versions?.map _ = _
      rw [h]
      rfl
  | direct version e =>
      rw [perform, after_editKept, h]
      rfl
  | getOrInit => cases hop
  | push rule => cases hop
  | replace rules => cases hop

theorem isSome_versions?_perform (s : RuleSet α) {op : Operation α} (hop : op.creates = true) :
    (perform op s).2.versions?.isSome := by
  cases op with
  | getOrInit => rfl
  | push rule => rfl
  | replace rules => rfl
  | get => cases hop
  | applyOptions options => cases hop
  | direct version e => cases hop

section work

variable {op : Operation α} {v : Versioned (OwnedRegistry α)}

theorem latest_le_work (op : Operation α) (v : Versioned (OwnedRegistry α)) :
    v.latest ≤ (op.work v).latest := by
  cases op with
  | replace rules =>
      rw [Operation.work, Versioned.latest_replace]
      omega
  | direct version e => exact Nat.le_of_eq (Versioned.latest_modifyAt ..).symm
  | _ => exact Nat.le_refl _

theorem latest_work (hop : op.replaces = false) : (op.work v).latest = v.latest := by
  cases op with
  | replace rules => cases hop
  | direct version e => exact Versioned.latest_modifyAt ..
  | _ => rfl

/-- A version that has been replaced is left alone, unless it is worked on directly. -/
theorem get?_work_of_lt {n : Nat} (hn : n < v.latest) (hop : op.worksOn n = false) :
    (op.work v).get? n = v.get? n := by
  cases op with
  | get => rfl
  | getOrInit => rfl
  | push rule => exact v.get?_modify _ (Nat.ne_of_lt hn)
  | applyOptions options => exact v.get?_modify _ (Nat.ne_of_lt hn)
  | replace rules => exact v.get?_replace rules (Nat.le_of_lt hn)
  | direct version e =>
      have hne : version ≠ n := of_decide_eq_false hop
      rw [Operation.work, Versioned.get?_modifyAt, if_neg hne]

/-- The version in force shows what is done to the set and what is done to it directly. -/
theorem current_work (hop : op.replaces = false) :
    (op.work v).current = op.effect v.latest v.current := by
  cases op with
  | replace rules => cases hop
  | direct version e =>
      simp only [Operation.work, Operation.effect, Versioned.modifyAt]
      split
      · rfl
      · rfl
  | _ => rfl

end work

/-! ### Runs -/

/-- What a run does to the versions of a set that has come into being. -/
def works (ops : List (Operation α)) (v : Versioned (OwnedRegistry α)) :
    Versioned (OwnedRegistry α) :=
  ops.foldl (fun v op => op.work v) v

/-- The options that were last applied to a set, which had these to begin with. -/
def lastOptions (options : RegistryOptions) (ops : List (Operation α)) : RegistryOptions :=
  ops.foldl (fun options op => op.optionsAfter options) options

/-- The registry that stays in force under that number all along. -/
def inForce (version : Nat) (ops : List (Operation α)) (r : OwnedRegistry α) : OwnedRegistry α :=
  ops.foldl (fun r op => op.effect version r) r

variable {s : RuleSet α} {v : Versioned (OwnedRegistry α)} {ops : List (Operation α)}

theorem versions?_run (h : s.versions? = some v) (ops : List (Operation α)) :
    (run perform ops s).2.versions? = some (works ops v) := by
  induction ops generalizing s v with
  | nil => exact h
  | cons op ops ih => exact ih (versions?_perform h op)

theorem options_run (ops : List (Operation α)) (s : RuleSet α) :
    (run perform ops s).2.options = lastOptions s.options ops := by
  induction ops generalizing s with
  | nil => rfl
  | cons op ops ih =>
      rw [run_cons_state, ih, options_perform]
      rfl

theorem latest_works (hops : ∀ op ∈ ops, op.replaces = false) :
    (works ops v).latest = v.latest := by
  induction ops generalizing v with
  | nil => rfl
  | cons op ops ih =>
      have hrest := ih (v := op.work v) fun op hop => hops op (List.mem_cons_of_mem _ hop)
      exact hrest.trans (latest_work (hops op List.mem_cons_self))

theorem get?_works_of_lt {n : Nat} (hn : n < v.latest)
    (hops : ∀ op ∈ ops, op.worksOn n = false) : (works ops v).get? n = v.get? n := by
  induction ops generalizing v with
  | nil => rfl
  | cons op ops ih =>
      have hle := latest_le_work op v
      have hrest := ih (v := op.work v) (by omega) fun op hop =>
        hops op (List.mem_cons_of_mem _ hop)
      exact hrest.trans (get?_work_of_lt hn (hops op List.mem_cons_self))

theorem current_works (hops : ∀ op ∈ ops, op.replaces = false) :
    (works ops v).current = inForce v.latest ops v.current := by
  induction ops generalizing v with
  | nil => rfl
  | cons op ops ih =>
      have hop := hops op List.mem_cons_self
      have hrest := ih (v := op.work v) fun op hop => hops op (List.mem_cons_of_mem _ hop)
      rw [latest_work hop, current_work hop] at hrest
      exact hrest

/-- There are no rules until the first operation that brings the set into being. -/
theorem current?_run_eq_none_iff (h : s.versions? = none) :
    (run perform ops s).2.current? = none ↔ ∀ op ∈ ops, op.creates = false := by
  induction ops generalizing s with
  | nil => simp [run, current?, h]
  | cons op ops ih =>
      rw [run_cons_state, List.forall_mem_cons]
      cases hop : op.creates with
      | false => simpa using ih (versions?_perform_of_none h hop)
      | true =>
          obtain ⟨v, hv⟩ := Option.isSome_iff_exists.mp (isSome_versions?_perform s hop)
          have hcurrent : (run perform ops (perform op s).2).2.current? =
              some (works ops v).current := by
            unfold current?
            rw [versions?_run hv]
            rfl
          rw [hcurrent]
          simp

/-- A version that was kept and is no longer in force has been replaced. -/
theorem exists_lt_of_kept? {n : Nat} {r : OwnedRegistry α} (h : s.kept? n = some r)
    (hn : s.version? ≠ some n) : ∃ v, s.versions? = some v ∧ n < v.latest := by
  unfold kept? at h
  obtain ⟨v, hv, hget⟩ := Option.bind_eq_some_iff.mp h
  have hne : n ≠ v.latest := by
    rintro rfl
    unfold version? at hn
    rw [hv] at hn
    exact hn rfl
  refine ⟨v, hv, ?_⟩
  unfold Versioned.get? at hget
  rw [if_neg hne] at hget
  exact (Array.getElem?_eq_some_iff.mp hget).1

theorem exists_of_version? {n : Nat} (h : s.version? = some n) :
    ∃ v, s.versions? = some v ∧ v.latest = n :=
  Option.map_eq_some_iff.mp h

/-- The registry in force is the one that is kept under its number. -/
theorem kept?_of_version? {n : Nat} (h : s.version? = some n) : s.kept? n = s.current? := by
  obtain ⟨v, hv, rfl⟩ := exists_of_version? h
  unfold kept? current?
  rw [hv, Option.bind_some, Option.map_some, Versioned.get?_latest]

theorem exists_current?_of_version? {n : Nat} (h : s.version? = some n) :
    ∃ r, s.current? = some r := by
  obtain ⟨v, hv, -⟩ := exists_of_version? h
  exact ⟨v.current, by rw [current?, hv, Option.map_some]⟩

/-- The number of the registry in force changes with replacements only. -/
theorem version?_run {n : Nat} (h : s.version? = some n)
    (hops : ∀ op ∈ ops, op.replaces = false) : (run perform ops s).2.version? = some n := by
  obtain ⟨v, hv, hlatest⟩ := exists_of_version? h
  unfold version?
  rw [versions?_run hv, Option.map_some, latest_works hops, hlatest]

/-- A registry that has been replaced stays as it is until it is worked on directly. -/
theorem kept?_run_of_retired {n : Nat} {r : OwnedRegistry α} (h : s.kept? n = some r)
    (hn : s.version? ≠ some n) (hops : ∀ op ∈ ops, op.worksOn n = false) :
    (run perform ops s).2.kept? n = some r := by
  obtain ⟨v, hv, hlt⟩ := exists_lt_of_kept? h hn
  unfold kept? at h ⊢
  rw [hv, Option.bind_some] at h
  rw [versions?_run hv, Option.bind_some, get?_works_of_lt hlt hops, h]

/-- The registry in force shows all that is done to the set and to itself. -/
theorem current?_run_of_inForce {n : Nat} {r : OwnedRegistry α} (hn : s.version? = some n)
    (h : s.current? = some r) (hops : ∀ op ∈ ops, op.replaces = false) :
    (run perform ops s).2.current? = some (inForce n ops r) := by
  obtain ⟨v, hv, rfl⟩ := exists_of_version? hn
  unfold current? at h ⊢
  rw [hv, Option.map_some, Option.some.injEq] at h
  rw [versions?_run hv, Option.map_some, current_works hops, h]

theorem kept?_direct {m : Nat} {r : OwnedRegistry α} (h : s.kept? m = some r) (n : Nat)
    (e : Edit (OwnedRegistry α) Unit) :
    (perform (.direct n e) s).2.kept? m = some (if n = m then e.after r else r) := by
  unfold kept? at h ⊢
  obtain ⟨v, hv, hget⟩ := Option.bind_eq_some_iff.mp h
  rw [versions?_perform hv, Option.bind_some, Operation.work, Versioned.get?_modifyAt, hget]
  split
  · rfl
  · rfl

/-- Registries that are created on demand are laid out by the options of the set. -/
theorem ensured_of_current? (h : s.current? = none) :
    s.ensured.current = .ofOptions s.options := by
  have hnone : s.versions? = none := Option.map_eq_none_iff.mp h
  unfold ensured
  rw [hnone]
  rfl

/-- A pushed rule comes last in the registry in force, which is created when there is none. -/
theorem exists_stored (rule : α) (s : RuleSet α) :
    ∃ e r, (perform (.push rule) s).1 = .rule e ∧ e.value = rule ∧
      (perform (.push rule) s).2.current? = some r ∧
      r.registry.toList = s.current?.elim [] (·.registry.toList) ++ [some e] := by
  have hslots : s.ensured.current.registry.toList = s.current?.elim [] (·.registry.toList) := by
    unfold ensured current?
    cases s.versions? with
    | none => rfl
    | some v => rfl
  refine ⟨_, _, rfl, rfl, rfl, ?_⟩
  rw [← hslots]
  exact Registry.toList_append _ _

/-! ### Replacement -/

/-- A replacement warns exactly of slots that it discards. -/
theorem warning_replace_iff (rules : OwnedRegistry α) (s : RuleSet α) (w : Warning) :
    (s.replace rules).1.2 = some w ↔
      ∃ r, s.current? = some r ∧ 0 < r.count ∧ w = .rulesDiscarded r.count := by
  show (s.current?.bind fun r => if r.isEmpty then none else some (.rulesDiscarded r.count)) =
    some w ↔ _
  rw [Option.bind_eq_some_iff]
  refine exists_congr ?_
  intro r
  have hempty : r.isEmpty = true ↔ r.count = 0 := beq_iff_eq
  by_cases h : r.count = 0
  · simp [hempty.mpr h, h]
  · rw [if_neg (mt hempty.mp h)]
    have hpos : 0 < r.count := by omega
    simp [hpos, eq_comm]

/-- A replacement puts a registry in force under a number that denoted none before. -/
theorem exists_version?_replace (rules : OwnedRegistry α) (s : RuleSet α) :
    ∃ n, (s.replace rules).2.version? = some n ∧ s.kept? n = none := by
  unfold replace version? kept?
  cases s.versions? with
  | none => exact ⟨0, rfl, rfl⟩
  | some v =>
      refine ⟨v.latest + 1, congrArg some (v.latest_replace rules), ?_⟩
      have hne : v.latest + 1 ≠ v.latest := by omega
      show v.get? (v.latest + 1) = none
      unfold Versioned.get?
      rw [if_neg hne]
      exact Array.getElem?_eq_none (by unfold Versioned.latest; omega)

/-! ### Sharing -/

/-- What is shared of a rule set that a run has led to, by the run and by any that goes on from
there. -/
structure Shares (options : RegistryOptions) (ops : List (Operation α)) (s : RuleSet α) :
    Prop where
  /-- There is no registry in force until the first operation that brings one about, and one ever
  after. -/
  absent : s.current? = none ↔ ∀ op ∈ ops, op.creates = false
  /-- The number of the registry in force changes with replacements only. -/
  identity : ∀ {n} more, s.version? = some n → (∀ op ∈ more, op.replaces = false) →
    (run perform more s).2.version? = some n
  /-- A replacement puts the given registry in force, under a number of its own. -/
  installed : ∀ rules, (perform (.replace rules) s).2.current? = some rules ∧
    ∃ n, (perform (.replace rules) s).2.version? = some n ∧ s.kept? n = none
  /-- It answers the registry that was in force, which stays under its number, and warns of its
  slots if there are any. -/
  former : ∀ rules, ∃ warning?, (perform (.replace rules) s).1 = .former s.current? warning? ∧
    (∀ n, s.version? = some n → (perform (.replace rules) s).2.kept? n = s.current?) ∧
    ∀ w, warning? = some w ↔ ∃ r, s.current? = some r ∧ 0 < r.count ∧ w = .rulesDiscarded r.count
  /-- A registry that has been replaced stays as it is until it is worked on directly. -/
  retired : ∀ {n r} more, s.kept? n = some r → s.version? ≠ some n →
    (∀ op ∈ more, op.worksOn n = false) → (run perform more s).2.kept? n = some r
  /-- The registry in force shows all that is done to the set and to itself. -/
  shown : ∀ {n r} more, s.version? = some n → s.current? = some r →
    (∀ op ∈ more, op.replaces = false) →
      (run perform more s).2.kept? n = some (inForce n more r) ∧
        (run perform more s).2.current? = some (inForce n more r)
  /-- A direct operation works on its registry alone. -/
  direct : ∀ {n m r} e, s.kept? m = some r →
    (perform (.direct n e) s).2.kept? m = some (if n = m then e.after r else r)
  /-- A registry that is created on demand is laid out by the options last applied, and has no
  slots. -/
  created : s.current? = none → ∃ r, (perform .getOrInit s).2.current? = some r ∧
    r = .ofOptions (lastOptions options ops) ∧
    r.policy = (lastOptions options ops).indexPolicy ∧
    r.capacity = max 1 (min (lastOptions options ops).initialCapacity Registry.maxCapacity) ∧
    r.registry.toList = [] ∧
    ∀ rule, (perform (.push rule) s).2.current? = some (r.append rule).2
  /-- A rule that is pushed is in force, behind all that was. -/
  stored : ∀ rule, ∃ e r, (perform (.push rule) s).1 = .rule e ∧ e.value = rule ∧
    (perform (.push rule) s).2.current? = some r ∧
    r.registry.toList = s.current?.elim [] (·.registry.toList) ++ [some e]
  /-- A registry in force that options are applied to takes over their policy and keeps its
  slots. -/
  switched : ∀ {r} options, s.current? = some r →
    ∃ r', (perform (.applyOptions options) s).2.current? = some r' ∧
      r'.policy = options.indexPolicy ∧ r'.registry.toList = r.registry.toList ∧
        r'.issued = r.issued

/-- After every run on a new rule set, what is shared of it is as it should be. -/
theorem run_shares (options : RegistryOptions) (ops : List (Operation α)) :
    Shares options ops (run perform ops ({ options } : RuleSet α)).2 where
  absent := current?_run_eq_none_iff rfl
  identity _ hn hmore := version?_run hn hmore
  installed rules := ⟨current?_replace rules _, exists_version?_replace rules _⟩
  former rules := by
    refine ⟨_, rfl, ?_, warning_replace_iff rules _⟩
    intro n hn
    have hkept := kept?_of_version? hn
    obtain ⟨r, hr⟩ := exists_current?_of_version? hn
    rw [← hkept]
    exact kept?_replace rules (by rw [hkept, hr]; rfl)
  retired _ hr hn hmore := kept?_run_of_retired hr hn hmore
  shown more hn hr hmore := by
    have hcurrent := current?_run_of_inForce hn hr hmore
    exact ⟨(kept?_of_version? (version?_run hn hmore)).trans hcurrent, hcurrent⟩
  direct e hr := kept?_direct hr _ e
  created hnone := by
    have hensured := ensured_of_current? hnone
    rw [options_run] at hensured
    refine ⟨_, congrArg some hensured, rfl, rfl, rfl, rfl, ?_⟩
    intro rule
    rw [← hensured]
    rfl
  stored rule := exists_stored rule _
  switched := by
    intro r options' hr
    refine ⟨r.applyOptions options', ?_, Registry.policy_applyOptions options' _,
      Registry.toList_applyOptions options' _, rfl⟩
    exact (current?_applyOptions options' _).trans (by rw [hr]; rfl)

/-- A registry is created by the options that were applied before, and one that has been replaced
does not see what is pushed later. -/
theorem run_shares_replaced :
    let roomy : RegistryOptions := { initialCapacity := 4, indexPolicy := .extend }
    let fresh := (run perform [.applyOptions roomy] ({} : RuleSet String)).2
    let replaced := (run perform [.push "a", .replace .empty] ({} : RuleSet String)).2
    (fresh.current? = none ∧ ∃ r, (perform .getOrInit fresh).2.current? = some r ∧
        r.policy = .extend ∧ r.capacity = 4) ∧
      ∃ r, replaced.kept? 0 = some r ∧ r.values = ["a"] ∧ replaced.version? = some 1 ∧
        (run perform [.push "b"] replaced).2.kept? 0 = some r := by
  intro roomy fresh replaced
  have hfresh := run_shares {} [.applyOptions roomy] (α := String)
  have hreplaced := run_shares {} [.push "a", .replace .empty] (α := String)
  obtain ⟨r, hr, -, hpolicy, hcapacity, -, -⟩ := hfresh.created rfl
  obtain ⟨kept, hkept, hvalues⟩ : ∃ r, replaced.kept? 0 = some r ∧ r.values = ["a"] :=
    ⟨_, rfl, OwnedRegistry.values_append "a" (.ofOptions {})⟩
  refine ⟨⟨rfl, r, hr, hpolicy, hcapacity⟩, kept, hkept, hvalues, rfl, ?_⟩
  exact hreplaced.retired [.push "b"] hkept (by decide) (by decide)

end RuleSet

end ExpressModel
