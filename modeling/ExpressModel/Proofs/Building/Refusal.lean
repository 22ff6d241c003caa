import Mathlib
import ExpressModel.Proofs.Building.Operation
import ExpressModel.Proofs.Registry.Sequence

/-! # Refused edits

An edit is atomic when its refusal leaves the state as it was.  Writes into a registry are atomic,
since they check the index before they change anything, and an atomic edit of a part is an atomic
edit of the whole, since putting back a part that has not changed changes nothing
(`Part.atomic`).  A `Part` is a way from a state to a part of it, so registries are covered
wherever they are: on their own, in a rule set, an interface or a rule, in a descriptor or a schema
that no dictionary has yet, and in a dictionary.

`Attempt.refused_unchanged` says this of everything that can be refused.  Bringing a rule set into
being is no part of a write into it: a refused edit of the rules in force leaves them created
(`RuleSet.edit_refused`). -/

namespace ExpressModel

/-! ### Atomic edits -/

namespace Edit

variable {σ τ α β : Type}

/-- A refusal of the edit leaves the state as it was. -/
def Atomic (e : Edit σ α) : Prop :=
  ∀ s err s', e s = .error err s' → s' = s

theorem atomic_modifyGet (f : σ → α × σ) : (modifyGet f : Edit σ α).Atomic := by
  intro s err s' h
  cases h

/-- An edit stays atomic when what follows is never refused. -/
theorem Atomic.bind {e : Edit σ α} {f : α → Edit σ β} (h : e.Atomic)
    (hf : ∀ a s, ∃ b s', f a s = .ok b s') : (e >>= f).Atomic := by
  intro s err s' hbind
  have hbind : EStateM.bind e f s = .error err s' := hbind
  unfold EStateM.bind at hbind
  cases he : e s with
  | ok a t =>
      obtain ⟨b, t', hok⟩ := hf a t
      rw [he] at hbind
      dsimp only at hbind
      rw [hok] at hbind
      cases hbind
  | error err' t =>
      rw [he] at hbind
      cases hbind
      exact h s err s' he

theorem Atomic.map {e : Edit σ α} (h : e.Atomic) (f : α → β) : (f <$> e).Atomic := by
  rw [← bind_pure_comp]
  exact h.bind fun a s => ⟨f a, s, rfl⟩

/-- The edit may depend on the state that it starts from. -/
theorem atomic_get_bind {f : σ → Edit σ α} (h : ∀ s, (f s).Atomic) :
    ((get : Edit σ σ) >>= f).Atomic :=
  fun s => h s s

theorem focus_of_ok {view : σ → Except Error τ} {s : σ} {t : τ} (h : view s = .ok t)
    (put : τ → σ → σ) (e : Edit τ α) :
    focus view put e s = match e t with
      | .ok a t => .ok a (put t s)
      | .error err t => .error err (put t s) := by
  cases he : e t with
  | ok a t' => simp only [focus, h, he]
  | error err t' => simp only [focus, h, he]

theorem within_eq (view : σ → τ) (put : τ → σ → σ) (e : Edit τ α) (s : σ) :
    within view put e s = match e (view s) with
      | .ok a t => .ok a (put t s)
      | .error err t => .error err (put t s) :=
  @focus_of_ok σ τ α (fun s => .ok (view s)) s (view s) rfl put e

/-- An edit of a part is as atomic as it is on its own, provided that putting back the part as it
is changes nothing. -/
theorem Atomic.focus {e : Edit τ α} (h : e.Atomic) {view : σ → Except Error τ} {put : τ → σ → σ}
    (hput : ∀ s t, view s = .ok t → put t s = s) : (focus view put e).Atomic := by
  intro s err s' hfocus
  cases hview : view s with
  | error err' =>
      unfold Edit.focus at hfocus
      rw [hview] at hfocus
      cases hfocus
      rfl
  | ok t =>
      rw [focus_of_ok hview] at hfocus
      cases he : e t with
      | ok a t' =>
          rw [he] at hfocus
          cases hfocus
      | error err' t' =>
          rw [he] at hfocus
          cases hfocus
          rw [h t err t' he]
          exact hput s t hview

theorem Atomic.within {e : Edit τ α} (h : e.Atomic) {view : σ → τ} {put : τ → σ → σ}
    (hput : ∀ s, put (view s) s = s) : (within view put e).Atomic := by
  refine h.focus ?_
  intro s t hview
  cases hview
  exact hput s

end Edit

/-! ### Registries -/

namespace Registry

variable {α : Type}

theorem atomic_write (i : Nat) (a : α) : (write i a).Atomic := by
  intro r err r' h
  by_cases hi : i < max (2 ^ 24) r.capacity
  · rw [write_eq_ok hi] at h
    cases h
  · rw [write_eq_error hi] at h
    cases h
    rfl

theorem atomic_set (i : Nat) (a : α) : (set i a).Atomic := by
  intro r err r' h
  by_cases hi : r.count < i ∧ r.policy = .strict
  · rw [set_beyond_strict hi.1 hi.2] at h
    cases h
    rfl
  · have hwrite : set i a r = write i a r := if_neg hi
    rw [hwrite] at h
    exact atomic_write i a r err r' h

theorem atomic_insert (a : α) (at? : Option Nat) : (insert a at?).Atomic := by
  intro r err r' h
  have hat : insert a at? r = insert a (some (at?.getD r.count)) r := rfl
  rw [hat] at h
  by_cases hi : at?.getD r.count ≤ r.count
  · rw [insert_of_le hi] at h
    cases h
  · cases hp : r.policy with
    | strict =>
        rw [insert_beyond_strict hi hp] at h
        cases h
        rfl
    | extend =>
        rw [insert_beyond hi hp] at h
        cases hw : write (at?.getD r.count) a r with
        | ok _ _ =>
            rw [hw] at h
            cases h
        | error err' r'' =>
            rw [hw] at h
            cases h
            exact atomic_write _ a r err r' hw

end Registry

namespace OwnedRegistry

variable {α β : Type}

theorem atomic_taking (a : α) {edit : Element α → Edit (Registry (Element α)) β}
    (h : ∀ e, (edit e).Atomic) : (taking a edit).Atomic := by
  rintro ⟨registry, issued⟩ err r' htaking
  unfold taking at htaking
  dsimp only at htaking
  cases he : edit ⟨issued, a⟩ registry with
  | ok b registry' =>
      rw [he] at htaking
      cases htaking
  | error err' registry' =>
      rw [he] at htaking
      cases htaking
      rw [h _ registry err registry' he]

theorem atomic_insert (a : α) (at? : Option Nat) : (insert a at?).Atomic :=
  atomic_taking a fun e => Registry.atomic_insert e at?

theorem atomic_set (i : Nat) (a : α) : (set i a).Atomic :=
  (atomic_taking a fun e => Registry.atomic_set i e).map _

end OwnedRegistry

/-- A write into a registry. -/
inductive Write where
  | insert (at? : Option Nat)
  | set (i : Nat)

namespace Write

variable {α : Type}

def into (a : α) : Write → Edit (Registry α) Unit
  | .insert at? => discard (Registry.insert a at?)
  | .set i => Registry.set i a

def intoOwned (a : α) : Write → Edit (OwnedRegistry α) Unit
  | .insert at? => discard (OwnedRegistry.insert a at?)
  | .set i => OwnedRegistry.set i a

theorem atomic_into (w : Write) (a : α) : (w.into a).Atomic := by
  cases w with
  | insert at? => exact (Registry.atomic_insert a at?).map _
  | set i => exact Registry.atomic_set i a

theorem atomic_intoOwned (w : Write) (a : α) : (w.intoOwned a).Atomic := by
  cases w with
  | insert at? => exact (OwnedRegistry.atomic_insert a at?).map _
  | set i => exact OwnedRegistry.atomic_set i a

end Write

/-! ### Parts -/

/-- The rules of a version, which has to have been in force. -/
def RuleSet.requireKept {α : Type} (version : Nat) (s : RuleSet α) :
    Except Error (OwnedRegistry α) :=
  (s.kept? version).elim (.error (.indexOutOfRange version 0)) .ok

theorem RuleSet.requireKept_eq_ok_iff {α : Type} {version : Nat} {s : RuleSet α}
    {r : OwnedRegistry α} : s.requireKept version = .ok r ↔ s.kept? version = some r := by
  unfold requireKept
  cases s.kept? version <;> simp

/-- A way from a state to a part of it that is edited on its own. -/
inductive Part : Type → Type → Type 1 where
  | whole {σ : Type} : Part σ σ
  | within {σ τ υ : Type} (outer : Part σ τ) (inner : Part τ υ) : Part σ υ
  -- of a dictionary
  | type (id : TypeId) : Part Dictionary Descriptor
  | schema (id : SchemaId) : Part Dictionary Schema
  -- of a descriptor
  | entityBody : Part Descriptor EntityBody
  | choices : Part Descriptor (Registry TypeId)
  | whereRules : Part Descriptor (RuleSet WhereRule)
  -- of an entity
  | supertypes : Part EntityBody (Registry EntityId)
  | explicitAttrs : Part EntityBody (OwnedRegistry Attribute)
  | inverseAttrs : Part EntityBody (OwnedRegistry Attribute)
  | uniqueness : Part EntityBody (RuleSet UniquenessRule)
  -- of a schema
  | types : Part Schema (Registry TypeId)
  | entities : Part Schema (Registry EntityId)
  | interfaces (kind : InterfaceKind) : Part Schema (OwnedRegistry Interface)
  | globalRules : Part Schema (RuleSet RuleId)
  | rule (id : RuleId) : Part Schema GlobalRule
  -- of an interface, alone or at an index
  | items : Part Interface (OwnedRegistry ImportItem)
  | itemsAt (i : Nat) : Part (OwnedRegistry Interface) (OwnedRegistry ImportItem)
  -- of a global rule
  | ruleEntities (version : Nat) : Part GlobalRule (Registry EntityId)
  | ruleWhereRules : Part GlobalRule (RuleSet WhereRule)
  -- of a rule set that has come into being: the rules of a version, in force or replaced
  | kept {α : Type} (version : Nat) : Part (RuleSet α) (OwnedRegistry α)

namespace Part

def edit {β : Type} : {σ τ : Type} → Part σ τ → Edit τ β → Edit σ β
  | _, _, .whole, e => e
  | _, _, .within outer inner, e => outer.edit (inner.edit e)
  | _, _, .type id, e => Dictionary.editType id e
  | _, _, .schema id, e => Dictionary.editSchema id e
  | _, _, .entityBody, e =>
    Edit.focus Descriptor.requireEntity (fun b t => t.modifyEntity fun _ => b) e
  | _, _, .choices, e =>
    Edit.focus Descriptor.requireChoices (fun c t => t.modifyChoices fun _ => c) e
  | _, _, .whereRules, e =>
    Edit.within Descriptor.whereRules (fun whereRules t => { t with whereRules }) e
  | _, _, .supertypes, e =>
    Edit.within EntityBody.supertypes (fun supertypes b => { b with supertypes }) e
  | _, _, .explicitAttrs, e =>
    Edit.within EntityBody.explicitAttrs (fun explicitAttrs b => { b with explicitAttrs }) e
  | _, _, .inverseAttrs, e =>
    Edit.within EntityBody.inverseAttrs (fun inverseAttrs b => { b with inverseAttrs }) e
  | _, _, .uniqueness, e =>
    Edit.within EntityBody.uniqueness (fun uniqueness b => { b with uniqueness }) e
  | _, _, .types, e => Edit.within Schema.types (fun types s => { s with types }) e
  | _, _, .entities, e => Edit.within Schema.entities (fun entities s => { s with entities }) e
  | _, _, .interfaces kind, e =>
    Edit.within (Schema.interfaces kind) (Schema.withInterfaces kind) e
  | _, _, .globalRules, e =>
    Edit.within Schema.globalRules (fun globalRules s => { s with globalRules }) e
  | _, _, .rule id, e =>
    Edit.focus (Schema.requireRule id) (fun g => Schema.modifyRule id fun _ => g) e
  | _, _, .items, e => Edit.within Interface.items (fun items i => { i with items }) e
  | _, _, .itemsAt i, e =>
    Edit.focus (fun r => (r.requireAt i).map (·.value.items))
      (fun items r => r.modifyAt i fun interface => { interface with items }) e
  | _, _, .ruleEntities version, e =>
    Edit.within (fun g => (g.entitySets.get? version).getD g.entities)
      (fun r g => { g with entitySets := g.entitySets.modifyAt version fun _ => r }) e
  | _, _, .ruleWhereRules, e =>
    Edit.within GlobalRule.whereRules (fun whereRules g => { g with whereRules }) e
  | _, _, .kept version, e =>
    Edit.focus (RuleSet.requireKept version)
      (fun r s => { s with versions? := s.versions?.map (·.modifyAt version fun _ => r) }) e

example {β : Type} (id : TypeId) (e : Edit (Registry TypeId) β) :
    (within (.type id) .choices).edit e = Dictionary.editChoices id e := rfl

example {β : Type} (schema : SchemaId) (kind : InterfaceKind) (i : Nat)
    (e : Edit (OwnedRegistry ImportItem) β) :
    (within (.schema schema) (.within (.interfaces kind) (.itemsAt i))).edit e =
      Dictionary.editItems schema kind i e := rfl

end Part

/-! ### Putting back -/

theorem Descriptor.modifyEntity_of_requireEntity {t : Descriptor} {b : EntityBody}
    (h : t.requireEntity = .ok b) : (t.modifyEntity fun _ => b) = t := by
  rcases t with ⟨name, description, origin?, referent?, altNames, whereRules, body⟩
  cases body <;> cases h
  rfl

theorem Descriptor.modifyChoices_of_requireChoices {t : Descriptor} {choices : Registry TypeId}
    (h : t.requireChoices = .ok choices) : (t.modifyChoices fun _ => choices) = t := by
  rcases t with ⟨name, description, origin?, referent?, altNames, whereRules, body⟩
  cases body <;> cases h
  rfl

theorem Dictionary.modifyType_of_require {id : TypeId} {t : Descriptor} {d : Dictionary}
    (h : d.require id = .ok t) : (d.modifyType id fun _ => t) = d := by
  unfold modifyType
  rw [modify_self]
  intro u hu
  have hfind : d.find? id = some u := hu
  rw [require_eq_ok_iff.mp h] at hfind
  exact Option.some.inj hfind

theorem Dictionary.modifySchema_of_requireSchema {id : SchemaId} {s : Schema} {d : Dictionary}
    (h : d.requireSchema id = .ok s) : (d.modifySchema id fun _ => s) = d := by
  unfold modifySchema
  rw [modify_self]
  intro u hu
  have hfind : d.schema? id = some u := hu
  rw [requireSchema_eq_ok_iff.mp h] at hfind
  exact Option.some.inj hfind

theorem Schema.withInterfaces_interfaces (kind : InterfaceKind) (s : Schema) :
    s.withInterfaces kind (s.interfaces kind) = s := by
  cases kind <;> rfl

theorem Schema.modifyRule_of_requireRule {id : RuleId} {g : GlobalRule} {s : Schema}
    (h : s.requireRule id = .ok g) : (s.modifyRule id fun _ => g) = s := by
  unfold requireRule at h
  cases hrule : s.rule? id with
  | none =>
      rw [hrule] at h
      cases h
  | some g' =>
      rw [hrule] at h
      cases h
      unfold modifyRule
      rw [Dictionary.modify_self]
      intro u hu
      have hfind : s.rule? id = some u := hu
      rw [hrule] at hfind
      exact Option.some.inj hfind

theorem Registry.modifyAt_self {α : Type} {i : Nat} {f : α → α} {r : Registry α}
    (h : ∀ a, r.get? i = some a → f a = a) : r.modifyAt i f = r := by
  unfold modifyAt
  rw [Dictionary.modify_self]
  intro slot hslot
  cases slot with
  | none => rfl
  | some a =>
      have hget : r.get? i = some a := by
        unfold get?
        rw [hslot]
        rfl
      exact congrArg some (h a hget)

theorem OwnedRegistry.modifyAt_self {α : Type} {i : Nat} {f : α → α} {r : OwnedRegistry α}
    (h : ∀ e, r.get? i = some e → f e.value = e.value) : r.modifyAt i f = r := by
  unfold modifyAt
  rw [Registry.modifyAt_self]
  intro e he
  rw [h e he]

theorem OwnedRegistry.modifyAt_of_requireAt {i : Nat} {items : OwnedRegistry ImportItem}
    {r : OwnedRegistry Interface} (h : (r.requireAt i).map (·.value.items) = .ok items) :
    (r.modifyAt i fun interface => { interface with items }) = r := by
  refine modifyAt_self fun e he => ?_
  unfold requireAt at h
  rw [he] at h
  cases h
  rfl

theorem Versioned.modifyAt_get? {α : Type} (version : Nat) (v : Versioned α) :
    (v.modifyAt version fun _ => (v.get? version).getD v.current) = v := by
  unfold modifyAt get?
  by_cases hlatest : version = v.latest
  · rw [if_pos hlatest, if_pos hlatest]
    rfl
  · rw [if_neg hlatest, if_neg hlatest, Dictionary.modify_self]
    intro a ha
    rw [ha]
    rfl

theorem GlobalRule.put_entities (version : Nat) (g : GlobalRule) :
    { g with entitySets := g.entitySets.modifyAt version fun _ =>
        (g.entitySets.get? version).getD g.entities } = g :=
  congrArg (fun entitySets => { g with entitySets }) (g.entitySets.modifyAt_get? version)

theorem RuleSet.put_kept {α : Type} {version : Nat} {r : OwnedRegistry α} {s : RuleSet α}
    (h : s.requireKept version = .ok r) :
    { s with versions? := s.versions?.map (·.modifyAt version fun _ => r) } = s := by
  rcases s with ⟨versions?, options⟩
  cases versions? with
  | none => rfl
  | some v =>
      have hget : v.get? version = some r := requireKept_eq_ok_iff.mp h
      have hsame := v.modifyAt_get? version
      rw [hget] at hsame
      exact congrArg (fun v => (⟨some v, options⟩ : RuleSet α)) hsame

/-- An atomic edit of a part is an atomic edit of the whole. -/
theorem Part.atomic {σ τ β : Type} (p : Part σ τ) {e : Edit τ β} (h : e.Atomic) :
    (p.edit e).Atomic := by
  induction p with
  | whole => exact h
  | within outer inner houter hinner => exact houter (hinner h)
  | type id => exact h.focus fun d t => Dictionary.modifyType_of_require
  | schema id => exact h.focus fun d s => Dictionary.modifySchema_of_requireSchema
  | entityBody => exact h.focus fun t b => Descriptor.modifyEntity_of_requireEntity
  | choices => exact h.focus fun t c => Descriptor.modifyChoices_of_requireChoices
  | interfaces kind => exact h.within (Schema.withInterfaces_interfaces kind)
  | rule id => exact h.focus fun s g => Schema.modifyRule_of_requireRule
  | itemsAt i => exact h.focus fun r items => OwnedRegistry.modifyAt_of_requireAt
  | ruleEntities version => exact h.within (GlobalRule.put_entities version)
  | kept version => exact h.focus fun s r => RuleSet.put_kept
  | whereRules | supertypes | explicitAttrs | inverseAttrs | uniqueness | types | entities
  | globalRules | items | ruleWhereRules => exact h.within fun _ => rfl

/-! ### Attempts -/

/-- Writes a new rule into a version of the rule set of a schema; a rule that is refused does not
enter the store. -/
def Schema.writeRule (version : Nat) (w : Write) (rule : GlobalRule) : Edit Schema Unit := do
  let id : RuleId := ⟨(← get).ruleStore.size⟩
  (Part.within .globalRules (.kept version)).edit (w.intoOwned id)
  modify fun s => (s.storeRule rule).2

/-- Something that is done to a state and may be refused. -/
inductive Attempt : Type → Type 1 where
  | insertType (schema : SchemaId) (t : Descriptor) : Attempt Dictionary
  | insertEntity (schema : SchemaId) (t : Descriptor) : Attempt Dictionary
  | addAttribute (id : EntityId) (a : Attribute) : Attempt Dictionary
  | addUniqueness (id : EntityId) (rule : UniquenessRule) : Attempt Dictionary
  | addGlobalRule (schema : SchemaId) (rule : GlobalRule) : Attempt Dictionary
  | registerRenames (schema : SchemaId) : Attempt Dictionary
  /-- A write into a registry of handles, wherever it is. -/
  | write {σ α : Type} (p : Part σ (Registry α)) (w : Write) (a : α) : Attempt σ
  /-- A write into a registry that owns its values. -/
  | writeOwned {σ α : Type} (p : Part σ (OwnedRegistry α)) (w : Write) (a : α) : Attempt σ
  /-- A write into the global rules of a schema. -/
  | writeRule {σ : Type} (p : Part σ Schema) (version : Nat) (w : Write) (rule : GlobalRule) :
      Attempt σ

namespace Attempt

def edit : {σ : Type} → Attempt σ → Edit σ Unit
  | _, .insertType schema t => discard (Dictionary.insertType schema t)
  | _, .insertEntity schema t => discard (Dictionary.insertEntity schema t)
  | _, .addAttribute id a => discard (Dictionary.addAttribute id a)
  | _, .addUniqueness id rule => Dictionary.addUniqueness id rule
  | _, .addGlobalRule schema rule => discard (Dictionary.addGlobalRule schema rule)
  | _, .registerRenames schema => discard (Dictionary.registerRenames schema)
  | _, .write p w a => p.edit (w.into a)
  | _, .writeOwned p w a => p.edit (w.intoOwned a)
  | _, .writeRule p version w rule => p.edit (Schema.writeRule version w rule)

end Attempt

namespace Dictionary

theorem atomic_insertType (schema : SchemaId) (t : Descriptor) :
    (insertType schema t).Atomic := by
  intro d err d' h
  rw [insertType_eq] at h
  split at h
  · cases h
    rfl
  · split at h
    · cases h
      rfl
    · cases h

theorem atomic_insertEntity (schema : SchemaId) (t : Descriptor) :
    (insertEntity schema t).Atomic := by
  intro d err d' h
  rw [insertEntity_eq] at h
  split at h
  · split at h
    · cases h
      rfl
    · cases h
  · cases h
    rfl

theorem atomic_registerRenames (schema : SchemaId) : (registerRenames schema).Atomic := by
  intro d err d' h
  rw [registerRenames_eq] at h
  split at h
  · cases h
    rfl
  · cases h

theorem atomic_editEntity {β : Type} (id : EntityId) {e : Edit EntityBody β} (h : e.Atomic) :
    (editEntity id e).Atomic :=
  (Part.within (.type id.toType) .entityBody).atomic h

theorem atomic_addGlobalRule (schema : SchemaId) (rule : GlobalRule) :
    (addGlobalRule schema rule).Atomic :=
  Edit.atomic_get_bind fun _ => (Part.schema schema).atomic (Edit.atomic_modifyGet _)

end Dictionary

theorem Schema.atomic_writeRule (version : Nat) (w : Write) (rule : GlobalRule) :
    (writeRule version w rule).Atomic := by
  refine Edit.atomic_get_bind fun s => ?_
  have hwrite := (Part.within .globalRules (.kept version)).atomic
    (w.atomic_intoOwned (⟨s.ruleStore.size⟩ : RuleId))
  exact hwrite.bind fun _ _ => ⟨(), _, rfl⟩

/-- Whatever is refused has changed nothing. -/
theorem Attempt.refused_unchanged {σ : Type} (x : Attempt σ) {s s' : σ} {err : Error}
    (h : x.edit s = .error err s') : s' = s := by
  suffices hatomic : x.edit.Atomic from hatomic s err s' h
  clear h
  cases x with
  | insertType schema t => exact (Dictionary.atomic_insertType schema t).map _
  | insertEntity schema t => exact (Dictionary.atomic_insertEntity schema t).map _
  | addAttribute id a => exact (Dictionary.atomic_editEntity id (Edit.atomic_modifyGet _)).map _
  | addUniqueness id rule => exact Dictionary.atomic_editEntity id (Edit.atomic_modifyGet _)
  | addGlobalRule schema rule => exact (Dictionary.atomic_addGlobalRule schema rule).map _
  | registerRenames schema => exact (Dictionary.atomic_registerRenames schema).map _
  | write p w a => exact p.atomic (w.atomic_into a)
  | writeOwned p w a => exact p.atomic (w.atomic_intoOwned a)
  | writeRule p version w rule => exact p.atomic (Schema.atomic_writeRule version w rule)

namespace Dictionary

/-- A schema in which a select type is declared, without choices so far. -/
def openSelect : Dictionary :=
  built {} [.addSchema "drawing",
    .insertType ⟨0⟩ { name := "content", description := "SELECT", body := .select {} }]

/-- Its fourth choice is refused before it has a first. -/
theorem refused_unchanged_openSelect :
    ∃ d, (Attempt.write (.within (.type ⟨8⟩) .choices) (.insert (some 3)) (⟨0⟩ : TypeId)).edit
      openSelect = .error (.indexOutOfRange 3 0) d ∧ d = openSelect := by
  obtain ⟨d, h⟩ : ∃ d, (Attempt.write (.within (.type ⟨8⟩) .choices) (.insert (some 3))
      (⟨0⟩ : TypeId)).edit openSelect = .error (.indexOutOfRange 3 0) d := ⟨_, by rfl⟩
  exact ⟨d, h, Attempt.refused_unchanged _ h⟩

end Dictionary

/-! ### Rules in force -/

def Versioned.editCurrent {α β : Type} (e : Edit α β) : Edit (Versioned α) β :=
  Edit.within Versioned.current (fun current v => { v with current }) e

/-- An edit of the rules in force creates them first, and they stay when it is refused. -/
theorem RuleSet.edit_refused {α β : Type} {e : Edit (OwnedRegistry α) β} (h : e.Atomic)
    {s s' : RuleSet α} {err : Error} (hedit : RuleSet.edit e s = .error err s') :
    s' = s.init := by
  have hatomic : (Versioned.editCurrent e).Atomic := h.within fun _ => rfl
  have hedit : Edit.within RuleSet.ensured (fun v s => { s with versions? := some v })
      (Versioned.editCurrent e) s = .error err s' := hedit
  rw [Edit.within_eq] at hedit
  cases hcurrent : Versioned.editCurrent e s.ensured with
  | ok b v =>
      rw [hcurrent] at hedit
      cases hedit
  | error err' v =>
      rw [hcurrent] at hedit
      cases hedit
      rw [hatomic s.ensured err v hcurrent]
      rfl

end ExpressModel
