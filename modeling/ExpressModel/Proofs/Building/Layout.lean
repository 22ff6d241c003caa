import Mathlib
import ExpressModel.Proofs.Building.Operation
import ExpressModel.Proofs.Registry.Layout

/-! # Configured dictionaries

Whatever a dictionary holds has its registries laid out as the dictionary is configured: the lists
of its schemas, the items of their interfaces, the registries in the descriptors and in the global
rules, and the rules of every set, in force or yet to be created (`Configured`).  Descriptors,
interfaces and rules enter with layouts of their own and are switched over then, with the contents
they have (`Adopts`); later additions leave the layouts as they are.

A global rule that is pushed straight into the rule set of a schema is switched over by nobody.
Such rules are the only ones to be left out (`built_configured`), and left out they have to be
(`not_configured_straightRule`). -/

namespace ExpressModel

open Layout (HasRoom Meets)

namespace Edit

variable {σ τ α : Type}

theorem outcome_focus (view : σ → Except Error τ) (put : τ → σ → σ) (e : Edit τ α) (s : σ) :
    (focus view put e).outcome s = match view s with
      | .ok t => ((e.outcome t).1, put (e.outcome t).2 s)
      | .error err => (.error err, s) := by
  unfold outcome focus
  cases view s with
  | error err => rfl
  | ok t =>
      dsimp only
      cases e t <;> rfl

end Edit

/-! ### The registries of an object -/

namespace EntityBody

variable {b : EntityBody} {options : RegistryOptions}

/-- Every registry of the body has such a layout. -/
structure All (P : Layout → Prop) (b : EntityBody) : Prop where
  supertypes : P b.supertypes.layout
  explicitAttrs : P b.explicitAttrs.layout
  inverseAttrs : P b.inverseAttrs.layout
  uniqueness : P b.uniqueness.layout

/-- A body without the layouts of its registries. -/
def bare (b : EntityBody) : EntityBody :=
  { b with
    supertypes := b.supertypes.bare
    explicitAttrs := b.explicitAttrs.bare
    inverseAttrs := b.inverseAttrs.bare
    uniqueness := b.uniqueness.bare }

theorem all_applyOptions (h : b.All HasRoom) (options : RegistryOptions) :
    (b.applyOptions options).All (Meets options) :=
  ⟨Registry.meets_applyOptions h.supertypes options,
    OwnedRegistry.meets_applyOptions h.explicitAttrs options,
    OwnedRegistry.meets_applyOptions h.inverseAttrs options,
    RuleSet.meets_applyOptions h.uniqueness options⟩

@[simp] theorem bare_applyOptions (options : RegistryOptions) (b : EntityBody) :
    (b.applyOptions options).bare = b.bare := by
  simp [bare, applyOptions]

theorem all_addSupertype (h : b.All (Meets options)) (e : EntityId) :
    (b.addSupertype e).2.All (Meets options) :=
  ⟨Registry.meets_append h.supertypes e, h.explicitAttrs, h.inverseAttrs, h.uniqueness⟩

theorem all_addAttribute (h : b.All (Meets options)) (a : Attribute) :
    (b.addAttribute a).2.All (Meets options) := by
  unfold addAttribute
  split
  · exact ⟨h.supertypes, h.explicitAttrs, OwnedRegistry.meets_append h.inverseAttrs a, h.uniqueness⟩
  · exact ⟨h.supertypes, OwnedRegistry.meets_append h.explicitAttrs a, h.inverseAttrs, h.uniqueness⟩

theorem all_addUniqueness (h : b.All (Meets options)) (rule : UniquenessRule) :
    (b.addUniqueness rule).All (Meets options) :=
  ⟨h.supertypes, h.explicitAttrs, h.inverseAttrs, RuleSet.meets_push h.uniqueness rule⟩

end EntityBody

namespace Body

/-- Every registry of the body has such a layout. -/
def All (P : Layout → Prop) : Body → Prop
  | .entity b => b.All P
  | .select b => P b.choices.layout
  | .plain _ | .enumeration _ | .aggregate _ => True

/-- A body without the layouts of its registries. -/
def bare : Body → Body
  | .entity b => .entity b.bare
  | .select b => .select { b with choices := b.choices.bare }
  | .plain kind => .plain kind
  | .enumeration factory? => .enumeration factory?
  | .aggregate b => .aggregate b

theorem all_applyOptions {b : Body} (h : b.All HasRoom) (options : RegistryOptions) :
    (b.applyOptions options).All (Meets options) := by
  cases b with
  | entity b => exact EntityBody.all_applyOptions h options
  | select b => exact Registry.meets_applyOptions h options
  | plain kind => trivial
  | enumeration factory? => trivial
  | aggregate b => trivial

@[simp] theorem bare_applyOptions (options : RegistryOptions) (b : Body) :
    (b.applyOptions options).bare = b.bare := by
  cases b <;> simp [bare, applyOptions]

end Body

namespace Descriptor

variable {t : Descriptor} {options : RegistryOptions}

/-- Every registry of the descriptor has such a layout. -/
structure All (P : Layout → Prop) (t : Descriptor) : Prop where
  whereRules : P t.whereRules.layout
  body : t.body.All P

/-- A descriptor without the layouts of its registries. -/
def bare (t : Descriptor) : Descriptor :=
  { t with whereRules := t.whereRules.bare, body := t.body.bare }

theorem all_applyOptions (h : t.All HasRoom) (options : RegistryOptions) :
    (t.applyOptions options).All (Meets options) :=
  ⟨RuleSet.meets_applyOptions h.whereRules options, Body.all_applyOptions h.body options⟩

@[simp] theorem bare_applyOptions (options : RegistryOptions) (t : Descriptor) :
    (t.applyOptions options).bare = t.bare := by
  simp [bare, applyOptions]

theorem all_modifyEntity (h : t.All (Meets options)) {f : EntityBody → EntityBody}
    (hf : ∀ b, b.All (Meets options) → (f b).All (Meets options)) :
    (t.modifyEntity f).All (Meets options) := by
  obtain ⟨name, description, origin?, referent?, altNames, whereRules, body⟩ := t
  cases body with
  | entity b => exact ⟨h.whereRules, hf b h.body⟩
  | _ => exact h

theorem all_modifyChoices (h : t.All (Meets options)) {f : Registry TypeId → Registry TypeId}
    (hf : ∀ r, r.layout.Meets options → (f r).layout.Meets options) :
    (t.modifyChoices f).All (Meets options) := by
  obtain ⟨name, description, origin?, referent?, altNames, whereRules, body⟩ := t
  cases body with
  | select b => exact ⟨h.whereRules, hf b.choices h.body⟩
  | _ => exact h

end Descriptor

namespace Interface

/-- An interface without the layout of its items. -/
def bare (i : Interface) : Interface :=
  { i with items := i.items.bare }

@[simp] theorem bare_applyOptions (options : RegistryOptions) (i : Interface) :
    (i.applyOptions options).bare = i.bare := by
  simp [bare, applyOptions]

end Interface

namespace GlobalRule

variable {g : GlobalRule} {options : RegistryOptions}

/-- Every registry of the rule that is in force has such a layout. -/
structure All (P : Layout → Prop) (g : GlobalRule) : Prop where
  entities : P g.entities.layout
  whereRules : P g.whereRules.layout

/-- A rule without the layouts of its registries. -/
def bare (g : GlobalRule) : GlobalRule :=
  { g with entitySets := g.entitySets.modify Registry.bare, whereRules := g.whereRules.bare }

theorem all_applyOptions (h : g.All HasRoom) (options : RegistryOptions) :
    (g.applyOptions options).All (Meets options) :=
  ⟨Registry.meets_applyOptions h.entities options,
    RuleSet.meets_applyOptions h.whereRules options⟩

@[simp] theorem bare_applyOptions (options : RegistryOptions) (g : GlobalRule) :
    (g.applyOptions options).bare = g.bare := by
  simp [bare, applyOptions, Versioned.modify]

end GlobalRule

namespace Schema

variable {s : Schema} {options : RegistryOptions}

/-- Every registry of the schema and of its interfaces is laid out by the options, and interfaces
to come will be. -/
structure Configured (options : RegistryOptions) (s : Schema) : Prop where
  types : s.types.layout.Meets options
  entities : s.entities.layout.Meets options
  interfaces : ∀ kind, (s.interfaces kind).layout.Meets options
  items : ∀ kind, ∀ i ∈ (s.interfaces kind).values, i.items.layout.Meets options
  globalRules : s.globalRules.layout.Meets options
  options : s.options = options

theorem configured_new (name : String) (options : RegistryOptions) :
    (new name options).Configured options := by
  refine ⟨Registry.meets_ofOptions options, Registry.meets_ofOptions options, ?_, ?_,
    RuleSet.meets_new options, rfl⟩
  · intro kind
    cases kind <;> exact OwnedRegistry.meets_ofOptions options
  · intro kind i hi
    have hnone : ((new name options).interfaces kind).values = [] := by
      cases kind <;> exact OwnedRegistry.values_new ..
    rw [hnone] at hi
    cases hi

theorem interfaces_withInterfaces (kind other : InterfaceKind) (r : OwnedRegistry Interface)
    (s : Schema) :
    (s.withInterfaces kind r).interfaces other =
      if kind = other then r else s.interfaces other := by
  cases kind <;> cases other <;> rfl

theorem configured_enlist (h : s.Configured options) (id : TypeId) (l : Listing) :
    (s.enlist id l).Configured options := by
  cases l with
  | types =>
      exact ⟨Registry.meets_append h.types id, h.entities, h.interfaces, h.items, h.globalRules,
        h.options⟩
  | entities =>
      exact ⟨h.types, Registry.meets_append h.entities ⟨id⟩, h.interfaces, h.items, h.globalRules,
        h.options⟩

theorem configured_withInterfaces (h : s.Configured options) (kind : InterfaceKind)
    {r : OwnedRegistry Interface} (hr : r.layout.Meets options)
    (hitems : ∀ i ∈ r.values, i.items.layout.Meets options) :
    (s.withInterfaces kind r).Configured options := by
  have hinterfaces : ∀ other, ((s.withInterfaces kind r).interfaces other).layout.Meets options ∧
      ∀ i ∈ ((s.withInterfaces kind r).interfaces other).values, i.items.layout.Meets options := by
    intro other
    rw [interfaces_withInterfaces]
    split
    · exact ⟨hr, hitems⟩
    · exact ⟨h.interfaces other, h.items other⟩
  have hlists := sameLists_withInterfaces kind r s
  refine ⟨?_, ?_, fun other => (hinterfaces other).1, fun other => (hinterfaces other).2, ?_, ?_⟩
  · rw [hlists.types]
    exact h.types
  · rw [hlists.entities]
    exact h.entities
  · cases kind <;> exact h.globalRules
  · cases kind <;> exact h.options

theorem addInterface_eq (kind : InterfaceKind) (i : Interface) (s : Schema) :
    (s.addInterface kind i).2 =
      s.withInterfaces kind ((s.interfaces kind).append (i.applyOptions s.options)).2 := rfl

theorem configured_addInterface (h : s.Configured options) (kind : InterfaceKind) {i : Interface}
    (hi : i.items.layout.HasRoom) : (s.addInterface kind i).2.Configured options := by
  rw [addInterface_eq]
  refine configured_withInterfaces h kind (OwnedRegistry.meets_append (h.interfaces kind) _) ?_
  intro j hj
  rw [OwnedRegistry.values_append, List.mem_append, List.mem_singleton] at hj
  rcases hj with hj | rfl
  · exact h.items kind j hj
  · rw [h.options]
    exact OwnedRegistry.meets_applyOptions hi options

theorem configured_pushRule (h : s.Configured options) (g : GlobalRule) :
    (s.pushRule g).2.Configured options :=
  ⟨h.types, h.entities, h.interfaces, h.items, RuleSet.meets_push h.globalRules _, h.options⟩

theorem rule?_modifyRule (id other : RuleId) (f : GlobalRule → GlobalRule) (s : Schema) :
    (s.modifyRule id f).rule? other =
      if id = other then (s.rule? other).map f else s.rule? other := by
  obtain ⟨i⟩ := id
  obtain ⟨j⟩ := other
  simp [modifyRule, rule?, Array.getElem?_modify]

theorem after_focus_requireRule (id : RuleId) (e : Edit GlobalRule Unit) (s : Schema) :
    (Edit.focus (requireRule id) (fun g => modifyRule id fun _ => g) e).after s =
      s.modifyRule id e.after := by
  rw [Edit.after_focus]
  unfold requireRule modifyRule
  cases hg : s.rule? id with
  | none =>
      have hnone : s.ruleStore.modify id.index e.after = s.ruleStore := by
        refine Dictionary.modify_self ?_
        intro g hg'
        exact absurd (hg.symm.trans hg') (by simp)
      rw [hnone]
      rfl
  | some g =>
      have hsame : s.ruleStore.modify id.index (fun _ => e.after g) =
          s.ruleStore.modify id.index e.after := by
        refine Dictionary.modify_congr ?_
        intro u hu
        rw [Option.some.inj (hg.symm.trans hu)]
      exact congrArg (fun ruleStore => { s with ruleStore }) hsame

theorem rule?_pushRule (g : GlobalRule) (s : Schema) (id : RuleId) :
    (s.pushRule g).2.rule? id = if id = ⟨s.ruleStore.size⟩ then some g else s.rule? id := by
  obtain ⟨n⟩ := id
  simp [pushRule, storeRule, rule?, Array.getElem?_push]

end Schema

namespace Dictionary

variable {d : Dictionary} {options : RegistryOptions} {straight : List (SchemaId × RuleId)}

/-! ### Additions -/

/-- An operation that adds to a descriptor: a choice, a supertype, an attribute or a rule.  An
attribute or a uniqueness rule may also be added to the body itself, without an owner. -/
inductive TypeEdit.Adds : TypeEdit → Prop
  | addChoice (choice : TypeId) : Adds (.addChoice choice)
  | addSupertype (supertype : EntityId) : Adds (.addSupertype supertype)
  | addAttribute (a : Attribute) : Adds (.addAttribute a)
  | addAttributeToBody (a : Attribute) : Adds (.editEntity (modify fun b => (b.addAttribute a).2))
  | addUniqueness (rule : UniquenessRule) : Adds (.addUniqueness rule)
  | addUniquenessToBody (rule : UniquenessRule) : Adds (.editEntity (modify (·.addUniqueness rule)))
  | addWhereRule (rule : WhereRule) : Adds (.addWhereRule rule)

/-- An operation that adds to a schema: an interface or a global rule that was built beforehand, in
registries with room for a slot at least, or a WHERE rule of a global rule. -/
inductive SchemaEdit.Adds : SchemaEdit → Prop
  | addInterface (kind : InterfaceKind) {i : Interface} (h : i.items.layout.HasRoom) :
      Adds (.addInterface kind i)
  | addGlobalRule {rule : GlobalRule} (h : rule.All HasRoom) : Adds (.addGlobalRule rule)
  | pushGlobalRule (rule : GlobalRule) : Adds (.pushGlobalRule rule)
  | addWhereRule (id : RuleId) (rule : WhereRule) :
      Adds (.editRule id (modify fun g => { g with whereRules := (g.whereRules.push rule).2 }))

/-- An operation that adds a schema, a descriptor that was built beforehand, in registries with
room for a slot at least (as every registry has, `Registry.hasRoom_run`), or something to one of
them. -/
inductive Operation.Adds : Operation → Prop
  | addSchema (name : String) : Adds (.addSchema name)
  | addUnnamed (origin? : Option SchemaId) {t : Descriptor} (h : t.All HasRoom) :
      Adds (.addUnnamed origin? t)
  | insertType (schema : SchemaId) {t : Descriptor} (h : t.All HasRoom) :
      Adds (.insertType schema t)
  | insertEntity (schema : SchemaId) {t : Descriptor} (h : t.All HasRoom) :
      Adds (.insertEntity schema t)
  | onType (id : TypeId) {e : TypeEdit} (h : e.Adds) : Adds (.onType id e)
  | onSchema (schema : SchemaId) {e : SchemaEdit} (h : e.Adds) : Adds (.onSchema schema e)

/-- The handle under which a global rule was pushed straight into the rule set of a schema. -/
def straight? : Operation × Except Error Reply → Option (SchemaId × RuleId)
  | (.onSchema schema (.pushGlobalRule _), .ok (.rule id)) => some (schema, id)
  | _ => none

/-- Everything in a dictionary is laid out by the options, but for the global rules under some
handles. -/
structure Configured (options : RegistryOptions) (straight : List (SchemaId × RuleId))
    (d : Dictionary) : Prop where
  config : d.config.registry = options
  types : ∀ {id t}, d.find? id = some t → t.All (Meets options)
  schemas : ∀ {schema s}, d.schema? schema = some s → s.Configured options
  rules : ∀ {schema id g}, d.rule? schema id = some g → (schema, id) ∉ straight →
    g.All (Meets options)

theorem Configured.mono {straight' : List (SchemaId × RuleId)}
    (h : d.Configured options straight) (hsub : straight ⊆ straight') :
    d.Configured options straight' := by
  refine ⟨h.config, h.types, h.schemas, ?_⟩
  intro schema id g hg hstraight
  exact h.rules hg fun hmem => hstraight (hsub hmem)

/-! ### Descriptors -/

theorem configured_addUnnamed (h : d.Configured options straight) (origin? : Option SchemaId)
    {t : Descriptor} (ht : t.All HasRoom) :
    (addUnnamed origin? t d).2.Configured options straight := by
  refine ⟨h.config, ?_, h.schemas, h.rules⟩
  intro id u hu
  rw [find?_addUnnamed] at hu
  split at hu
  · cases hu
    rw [h.config]
    have horigin : ({ t with origin? } : Descriptor).All HasRoom := ⟨ht.whereRules, ht.body⟩
    exact Descriptor.all_applyOptions horigin options
  · exact h.types hu

theorem configured_modifyType (h : d.Configured options straight) (id : TypeId)
    {f : Descriptor → Descriptor} (hf : ∀ t, t.All (Meets options) → (f t).All (Meets options)) :
    (d.modifyType id f).Configured options straight := by
  refine ⟨h.config, ?_, h.schemas, h.rules⟩
  intro other u hu
  rw [find?_modifyType] at hu
  split at hu
  · obtain ⟨t, ht, rfl⟩ := Option.map_eq_some_iff.mp hu
    exact hf t (h.types ht)
  · exact h.types hu

/-! ### Schemas -/

theorem configured_modifySchema {straight' : List (SchemaId × RuleId)}
    (h : d.Configured options straight) (hsub : straight ⊆ straight') (schema : SchemaId)
    {f : Schema → Schema} (hf : ∀ s, d.schema? schema = some s → (f s).Configured options)
    (hrules : ∀ s, d.schema? schema = some s → ∀ id g, (f s).rule? id = some g →
      (schema, id) ∉ straight' → g.All (Meets options)) :
    (d.modifySchema schema f).Configured options straight' := by
  refine ⟨h.config, h.types, ?_, ?_⟩
  · intro other u hu
    rw [schema?_modifySchema] at hu
    split at hu
    · next heq =>
      subst heq
      obtain ⟨s, hs, rfl⟩ := Option.map_eq_some_iff.mp hu
      exact hf s hs
    · exact h.schemas hu
  · intro other id g hg hstraight
    unfold rule? at hg
    rw [schema?_modifySchema] at hg
    split at hg
    · next heq =>
      subst heq
      obtain ⟨u, hu, hg⟩ := Option.bind_eq_some_iff.mp hg
      obtain ⟨s, hs, rfl⟩ := Option.map_eq_some_iff.mp hu
      exact hrules s hs id g hg hstraight
    · exact h.rules hg fun hmem => hstraight (hsub hmem)

/-- A change of a schema that leaves its global rules alone. -/
theorem configured_modifySchema_of_store (h : d.Configured options straight) (schema : SchemaId)
    {f : Schema → Schema} (hf : ∀ s, d.schema? schema = some s → (f s).Configured options)
    (hstore : ∀ s, d.schema? schema = some s → ∀ id, (f s).rule? id = s.rule? id) :
    (d.modifySchema schema f).Configured options straight := by
  refine configured_modifySchema h (List.Subset.refl _) schema hf ?_
  intro s hs id g hg
  rw [hstore s hs] at hg
  refine h.rules ?_
  unfold rule?
  rw [hs]
  exact hg

theorem configured_declare (h : d.Configured options straight) (l : Listing) (schema : SchemaId)
    {t : Descriptor} (ht : t.All HasRoom) :
    (declare l schema t d).Configured options straight := by
  refine configured_modifySchema_of_store (configured_addUnnamed h (some schema) ht) schema ?_ ?_
  · intro s hs
    exact Schema.configured_enlist (h.schemas hs) _ l
  · intro s _ id
    cases l <;> rfl

theorem configured_addSchema (h : d.Configured options straight) (name : String) :
    (addSchema name d).2.Configured options straight := by
  refine ⟨h.config, h.types, ?_, ?_⟩
  · intro schema s hs
    rw [schema?_addSchema] at hs
    split at hs
    · cases hs
      rw [h.config]
      exact Schema.configured_new name options
    · exact h.schemas hs
  · intro schema id g hg hstraight
    unfold rule? at hg
    rw [schema?_addSchema] at hg
    split at hg
    · cases hg
    · exact h.rules hg hstraight

/-! ### Single operations -/

theorem TypeEdit.all_change (id : TypeId) {e : TypeEdit} (he : e.Adds) {t : Descriptor}
    (ht : t.All (Meets options)) : (e.change id t).All (Meets options) := by
  cases he with
  | addChoice choice =>
      exact Descriptor.all_modifyChoices ht fun r hr => Registry.meets_append hr choice
  | addSupertype supertype =>
      exact Descriptor.all_modifyEntity ht fun b hb => EntityBody.all_addSupertype hb supertype
  | addAttribute a =>
      exact Descriptor.all_modifyEntity ht fun b hb => EntityBody.all_addAttribute hb _
  | addAttributeToBody a =>
      exact Descriptor.all_modifyEntity ht fun b hb => EntityBody.all_addAttribute hb a
  | addUniqueness rule =>
      exact Descriptor.all_modifyEntity ht fun b hb => EntityBody.all_addUniqueness hb _
  | addUniquenessToBody rule =>
      exact Descriptor.all_modifyEntity ht fun b hb => EntityBody.all_addUniqueness hb rule
  | addWhereRule rule => exact ⟨RuleSet.meets_push ht.whereRules rule, ht.body⟩

theorem outcome_editSchema {β : Type} (schema : SchemaId) (f : Schema → β × Schema)
    (d : Dictionary) :
    (editSchema schema (modifyGet f)).outcome d = match d.schema? schema with
      | none => (.error (.unknownSchema schema), d)
      | some s => (.ok (f s).1, d.modifySchema schema fun _ => (f s).2) := by
  unfold editSchema
  rw [Edit.outcome_focus]
  cases hs : d.schema? schema with
  | none => rw [requireSchema_of_none hs]
  | some s => rw [requireSchema_eq_ok_iff.mpr hs]; rfl

theorem perform_addInterface (schema : SchemaId) (kind : InterfaceKind) (i : Interface)
    (d : Dictionary) :
    perform (.onSchema schema (.addInterface kind i)) d = match d.schema? schema with
      | none => (.error (.unknownSchema schema), d)
      | some s => (.ok (.interface (s.addInterface kind i).1),
          d.modifySchema schema fun _ => (s.addInterface kind i).2) := by
  refine (Edit.outcome_map Reply.interface (addInterface schema kind i) d).trans ?_
  unfold addInterface
  rw [outcome_editSchema]
  cases d.schema? schema <;> rfl

theorem perform_pushGlobalRule (schema : SchemaId) (rule : GlobalRule) (d : Dictionary) :
    perform (.onSchema schema (.pushGlobalRule rule)) d = match d.schema? schema with
      | none => (.error (.unknownSchema schema), d)
      | some s => (.ok (.rule ⟨s.ruleStore.size⟩),
          d.modifySchema schema fun _ => (s.pushRule rule).2) := by
  refine (Edit.outcome_map Reply.rule (pushGlobalRule schema rule) d).trans ?_
  unfold pushGlobalRule
  rw [outcome_editSchema]
  cases d.schema? schema <;> rfl

/-- A global rule that is added is pushed as the options of the dictionary have it. -/
theorem perform_addGlobalRule (schema : SchemaId) (rule : GlobalRule) (d : Dictionary) :
    perform (.onSchema schema (.addGlobalRule rule)) d =
      perform (.onSchema schema (.pushGlobalRule
        { rule.applyOptions d.config.registry with parent := some schema })) d := rfl

theorem configured_addInterface (h : d.Configured options straight) (schema : SchemaId)
    (kind : InterfaceKind) {i : Interface} (hi : i.items.layout.HasRoom) :
    (perform (.onSchema schema (.addInterface kind i)) d).2.Configured options straight := by
  rw [perform_addInterface]
  cases hs : d.schema? schema with
  | none => exact h
  | some s =>
      refine configured_modifySchema_of_store h schema ?_ ?_
      · intro _ _
        exact Schema.configured_addInterface (h.schemas hs) kind hi
      · intro u hu id
        rw [hs] at hu
        cases hu
        cases kind <;> rfl

/-- A rule that is pushed is laid out by the options, or it is one of those left out. -/
theorem configured_pushGlobalRule {straight' : List (SchemaId × RuleId)}
    (h : d.Configured options straight) (hsub : straight ⊆ straight') (schema : SchemaId)
    {rule : GlobalRule} (hrule : ∀ s, d.schema? schema = some s →
      (schema, ⟨s.ruleStore.size⟩) ∉ straight' → rule.All (Meets options)) :
    (perform (.onSchema schema (.pushGlobalRule rule)) d).2.Configured options straight' := by
  rw [perform_pushGlobalRule]
  cases hs : d.schema? schema with
  | none => exact h.mono hsub
  | some s =>
      refine configured_modifySchema h hsub schema ?_ ?_
      · intro _ _
        exact Schema.configured_pushRule (h.schemas hs) rule
      · intro _ _ id g hg hstraight
        rw [Schema.rule?_pushRule] at hg
        split at hg
        · next hid =>
          cases hg
          rw [hid] at hstraight
          exact hrule s hs hstraight
        · have hold : d.rule? schema id = some g := by
            unfold rule?
            rw [hs]
            exact hg
          exact h.rules hold fun hmem => hstraight (hsub hmem)

theorem perform_editRule (schema : SchemaId) (id : RuleId) (e : Edit GlobalRule Unit)
    (d : Dictionary) :
    (perform (.onSchema schema (.editRule id e)) d).2 =
      d.modifySchema schema (Schema.modifyRule id e.after) := by
  refine (Edit.after_map (fun _ => Reply.done) (editRule schema id e) d).trans ?_
  unfold editRule
  rw [after_editSchema]
  exact congrArg (modifySchema schema · d) (funext fun s => Schema.after_focus_requireRule id e s)

theorem configured_addWhereRule (h : d.Configured options straight) (schema : SchemaId)
    (id : RuleId) (rule : WhereRule) :
    (perform (.onSchema schema (.editRule id
      (modify fun g => { g with whereRules := (g.whereRules.push rule).2 }))) d).2.Configured
        options straight := by
  rw [perform_editRule]
  refine configured_modifySchema h (List.Subset.refl _) schema ?_ ?_
  · intro s hs
    have hconfigured := h.schemas hs
    exact ⟨hconfigured.types, hconfigured.entities, hconfigured.interfaces, hconfigured.items,
      hconfigured.globalRules, hconfigured.options⟩
  · intro s hs other g hg hstraight
    have hold : ∀ u, s.rule? other = some u → u.All (Meets options) := by
      intro u hu
      have hrule : d.rule? schema other = some u := by
        unfold rule?
        rw [hs]
        exact hu
      exact h.rules hrule hstraight
    rw [Schema.rule?_modifyRule] at hg
    split at hg
    · obtain ⟨u, hu, rfl⟩ := Option.map_eq_some_iff.mp hg
      have hall := hold u hu
      exact ⟨hall.entities, RuleSet.meets_push hall.whereRules rule⟩
    · exact hold g hg

theorem configured_perform {op : Operation} (hop : op.Adds) (h : d.Configured options straight) :
    (perform op d).2.Configured options
      (straight ++ (straight? (op, (perform op d).1)).toList) := by
  have hsub := List.subset_append_left straight (straight? (op, (perform op d).1)).toList
  cases hop with
  | addSchema name => exact (configured_addSchema h name).mono hsub
  | addUnnamed origin? ht => exact (configured_addUnnamed h origin? ht).mono hsub
  | @insertType schema t ht =>
      rcases perform_insertType schema t d with ⟨err, hop⟩ | ⟨s, -, -, hop⟩
      · rw [hop]
        exact h.mono (List.subset_append_left ..)
      · rw [hop]
        exact (configured_declare h .types schema ht).mono (List.subset_append_left ..)
  | @insertEntity schema t ht =>
      rcases perform_insertEntity schema t d with ⟨err, hop⟩ | ⟨s, -, -, hop⟩
      · rw [hop]
        exact h.mono (List.subset_append_left ..)
      · rw [hop]
        exact (configured_declare h .entities schema ht).mono (List.subset_append_left ..)
  | onType id he =>
      rw [perform_onType]
      exact (configured_modifyType h id fun t ht => TypeEdit.all_change id he ht).mono hsub
  | onSchema schema he =>
      cases he with
      | addInterface kind hi => exact (configured_addInterface h schema kind hi).mono hsub
      | @addGlobalRule rule hrule =>
          rw [perform_addGlobalRule]
          refine configured_pushGlobalRule h hsub schema ?_
          intro _ _ _
          rw [h.config]
          have hall := GlobalRule.all_applyOptions hrule options
          exact ⟨hall.entities, hall.whereRules⟩
      | pushGlobalRule rule =>
          refine configured_pushGlobalRule h hsub schema ?_
          intro s hs hstraight
          rw [perform_pushGlobalRule, hs] at hstraight
          exact absurd (by simp [straight?]) hstraight
      | addWhereRule id rule => exact (configured_addWhereRule h schema id rule).mono hsub

/-! ### Runs -/

theorem configured_run {ops : List Operation} (hops : ∀ op ∈ ops, op.Adds)
    (h : d.Configured options straight) :
    (run perform ops d).2.Configured options (straight ++ events perform straight? ops d) := by
  induction ops generalizing d straight with
  | nil => exact h.mono (List.subset_append_left ..)
  | cons op ops ih =>
      rw [events_cons, ← List.append_assoc]
      exact ih (fun op hop => hops op (List.mem_cons_of_mem _ hop))
        (configured_perform (hops op List.mem_cons_self) h)

theorem configured_new (config : Config) : (new config).Configured config.registry [] := by
  refine ⟨rfl, ?_, ?_, ?_⟩
  · intro id t ht
    have hmem : t ∈ PrimitiveKind.builtins.map fun k =>
        (Descriptor.builtin k).applyOptions config.registry :=
      List.mem_toArray.mp (Array.mem_of_getElem? ht)
    obtain ⟨k, -, rfl⟩ := List.mem_map.mp hmem
    have hroom : (Descriptor.builtin k).All HasRoom := ⟨(RuleSet.meets_new {}).hasRoom, trivial⟩
    exact Descriptor.all_applyOptions hroom config.registry
  · intro schema s hs
    cases hs
  · intro schema id g hg
    cases hg

/-! ### What enters -/

/-- The descriptor that an insertion puts in the dictionary, with the schema it is declared in. -/
def Operation.entering? : Operation → Option (Option SchemaId × Descriptor)
  | .addUnnamed origin? t => some (origin?, t)
  | .insertType schema t | .insertEntity schema t => some (some schema, t)
  | _ => none

/-- Whatever enters a dictionary next is there with the contents it had, its layouts apart. -/
structure Adopts (d : Dictionary) : Prop where
  descriptor : ∀ {op origin? t reply}, op.entering? = some (origin?, t) →
    (perform op d).1 = .ok reply →
      ∃ u, (perform op d).2.find? ⟨d.typeCount⟩ = some u ∧ u.bare = { t with origin? }.bare
  interface : ∀ {schema kind i e}, (perform (.onSchema schema (.addInterface kind i)) d).1 =
    .ok (.interface e) → e.value.bare = i.bare ∧
      ∃ s, (perform (.onSchema schema (.addInterface kind i)) d).2.schema? schema = some s ∧
        e ∈ (s.interfaces kind).live
  rule : ∀ {schema rule id}, (perform (.onSchema schema (.addGlobalRule rule)) d).1 =
    .ok (.rule id) → ∃ g,
      (perform (.onSchema schema (.addGlobalRule rule)) d).2.rule? schema id = some g ∧
        g.bare = { rule with parent := some schema }.bare

theorem bare_find?_addUnnamed (origin? : Option SchemaId) (t : Descriptor) (d : Dictionary) :
    ∃ u, (addUnnamed origin? t d).2.find? ⟨d.typeCount⟩ = some u ∧
      u.bare = { t with origin? }.bare := by
  rw [find?_addUnnamed, if_pos rfl]
  exact ⟨_, rfl, Descriptor.bare_applyOptions ..⟩

theorem mem_live_append {α : Type} (a : α) (r : OwnedRegistry α) :
    (r.append a).1 ∈ (r.append a).2.live := by
  show (⟨r.issued, a⟩ : Element α) ∈ (r.registry.append ⟨r.issued, a⟩).live
  rw [Registry.live_eq, Registry.toList_append, List.filterMap_append]
  exact List.mem_append_right _ List.mem_cons_self

theorem adopts (d : Dictionary) : d.Adopts where
  descriptor {op origin? t reply} hop hreply := by
    cases op with
    | addUnnamed other u =>
        cases hop
        exact bare_find?_addUnnamed origin? t d
    | insertType schema u =>
        cases hop
        rcases perform_insertType schema t d with ⟨err, h⟩ | ⟨s, -, -, h⟩
        · rw [h] at hreply
          cases hreply
        · rw [h]
          exact bare_find?_addUnnamed (some schema) t d
    | insertEntity schema u =>
        cases hop
        rcases perform_insertEntity schema t d with ⟨err, h⟩ | ⟨s, -, -, h⟩
        · rw [h] at hreply
          cases hreply
        · rw [h]
          exact bare_find?_addUnnamed (some schema) t d
    | addSchema name => cases hop
    | onType id e => cases hop
    | onSchema schema e => cases hop
    | registerRenames schema => cases hop
  interface {schema kind i e} hreply := by
    rw [perform_addInterface] at hreply ⊢
    cases hs : d.schema? schema with
    | none =>
        rw [hs] at hreply
        cases hreply
    | some s =>
        rw [hs] at hreply
        cases hreply
        refine ⟨Interface.bare_applyOptions s.options i, (s.addInterface kind i).2, ?_, ?_⟩
        · rw [schema?_modifySchema, if_pos rfl, hs, Option.map_some]
        · rw [Schema.addInterface_eq, Schema.interfaces_withInterfaces, if_pos rfl]
          exact mem_live_append _ _
  rule {schema rule id} hreply := by
    rw [perform_addGlobalRule, perform_pushGlobalRule] at hreply ⊢
    cases hs : d.schema? schema with
    | none =>
        rw [hs] at hreply
        cases hreply
    | some s =>
        rw [hs] at hreply
        cases hreply
        refine ⟨{ rule.applyOptions d.config.registry with parent := some schema }, ?_, ?_⟩
        · unfold rule?
          rw [schema?_modifySchema, if_pos rfl, hs, Option.map_some, Option.bind_some,
            Schema.rule?_pushRule, if_pos rfl]
        · exact congrArg (fun g : GlobalRule => { g with parent := some schema })
            (GlobalRule.bare_applyOptions d.config.registry rule)

/-! ### Built dictionaries -/

/-- Whatever has been added to a new dictionary is laid out as the dictionary is configured, but
for the global rules that were pushed straight into the rule set of a schema; and whatever is added
next keeps its contents. -/
theorem built_configured (config : Config) {ops : List Operation}
    (hops : ∀ op ∈ ops, op.Adds) :
    (built config ops).Configured config.registry (events perform straight? ops (new config)) ∧
      (built config ops).Adopts := by
  have hrun := configured_run hops (configured_new config)
  rw [List.nil_append] at hrun
  exact ⟨hrun, adopts _⟩

/-- Registries with gaps, and more room than by default. -/
def roomy : Config where
  registry := { initialCapacity := 40, indexPolicy := .extend }

/-- A schema with an entity, an attribute of it, an interface and a global rule with a WHERE
rule. -/
def pointSchema : List Operation :=
  [.addSchema "geometry", .insertEntity ⟨0⟩ (.entity "point" (.ofOptions {})),
    .onType ⟨8⟩ (.addAttribute { name := "x", domain? := some ⟨1⟩ }),
    .onSchema ⟨0⟩ (.addInterface .use { current := "geometry", foreign := "support" }),
    .onSchema ⟨0⟩ (.addGlobalRule (.new "origin" "RULE origin FOR (point); END_RULE;" {})),
    .onSchema ⟨0⟩ (.editRule ⟨0⟩
      (modify fun g => { g with whereRules := (g.whereRules.push { label := "WR1" }).2 }))]

theorem built_configured_pointSchema :
    (∀ op ∈ pointSchema, op.Adds) ∧ events perform straight? pointSchema (new roomy) = [] ∧
      (built roomy pointSchema).Configured roomy.registry
        (events perform straight? pointSchema (new roomy)) ∧
      (built roomy pointSchema).Adopts := by
  have hregistry : (Registry.ofOptions {} : Registry EntityId).layout.HasRoom :=
    (Registry.meets_ofOptions {}).hasRoom
  have hbody : (EntityBody.ofOptions {}).All HasRoom := ⟨hregistry, hregistry, hregistry, hregistry⟩
  have hops : ∀ op ∈ pointSchema, op.Adds := by
    simp only [pointSchema, List.forall_mem_cons]
    exact ⟨.addSchema _, .insertEntity _ ⟨hregistry, hbody⟩, .onType _ (.addAttribute _),
      .onSchema _ (.addInterface _ hregistry), .onSchema _ (.addGlobalRule ⟨hregistry, hregistry⟩),
      .onSchema _ (.addWhereRule _ _), by simp⟩
  exact ⟨hops, by cbv, built_configured roomy hops⟩

/-- A global rule that is pushed straight into the rule set of a schema. -/
def straightRule : List Operation :=
  [.addSchema "geometry", .onSchema ⟨0⟩ (.pushGlobalRule (.new "origin" "" {}))]

/-- Registries with gaps, and the default room. -/
def gapped : Config where
  registry := { indexPolicy := .extend }

/-- Such a rule keeps the policy that it was built with. -/
theorem not_configured_straightRule :
    (∀ op ∈ straightRule, op.Adds) ∧
      ((built gapped straightRule).rule? ⟨0⟩ ⟨0⟩).map (·.entities.policy) = some .strict ∧
      ¬ (built gapped straightRule).Configured gapped.registry [] := by
  have hpolicy : ((built gapped straightRule).rule? ⟨0⟩ ⟨0⟩).map (·.entities.policy) =
      some .strict := by cbv
  refine ⟨?_, hpolicy, ?_⟩
  · simp only [straightRule, List.forall_mem_cons]
    exact ⟨.addSchema _, .onSchema _ (.pushGlobalRule _), by simp⟩
  · intro h
    obtain ⟨g, hg, hstrict⟩ := Option.map_eq_some_iff.mp hpolicy
    have hextend : g.entities.policy = .extend := (h.rules hg (by simp)).entities.policy
    rw [hstrict] at hextend
    cases hextend

end Dictionary

end ExpressModel
