import ExpressModel.Proofs.Building.Effect
import ExpressModel.Proofs.Run

/-! # Building operations

Everything that can be done to a dictionary, as data: schemas and descriptors enter, the parts of
a descriptor or of a schema are edited, and renames are registered.  Edits of bodies, choices,
rules and interfaces are arbitrary here; only the lists of declarations are left to the
insertions.

`TypeEdit.after_edit` and `SchemaEdit.after_edit` say what an operation on parts changes, and
`perform_extends` that no operation takes a descriptor away or makes it another one. -/

namespace ExpressModel.Dictionary

/-! ### Operations -/

/-- An operation on a descriptor. -/
inductive TypeEdit where
  | setReferent (referent? : Option TypeId)
  | addChoice (choice : TypeId)
  | addSupertype (supertype : EntityId)
  | addAttribute (a : Attribute)
  | addUniqueness (rule : UniquenessRule)
  | addWhereRule (rule : WhereRule)
  | addAltName (schema name : String)
  | applyOptions (options : RegistryOptions)
  | editEntity (e : Edit EntityBody Unit)
  | editChoices (e : Edit (Registry TypeId) Unit)
  | editWhereRules (e : Edit (RuleSet WhereRule) Unit)

/-- An operation on a schema, its lists of declarations apart. -/
inductive SchemaEdit where
  | addInterface (kind : InterfaceKind) (i : Interface)
  | addGlobalRule (rule : GlobalRule)
  | pushGlobalRule (rule : GlobalRule)
  | addFunction (text : String)
  | addProcedure (text : String)
  | editInterfaces (kind : InterfaceKind) (e : Edit (OwnedRegistry Interface) Unit)
  | editItems (kind : InterfaceKind) (i : Nat) (e : Edit (OwnedRegistry ImportItem) Unit)
  | editGlobalRules (e : Edit (RuleSet RuleId) Unit)
  | editRule (id : RuleId) (e : Edit GlobalRule Unit)

/-- An operation on a dictionary. -/
inductive Operation where
  | addSchema (name : String)
  | addUnnamed (origin? : Option SchemaId) (t : Descriptor)
  | insertType (schema : SchemaId) (t : Descriptor)
  | insertEntity (schema : SchemaId) (t : Descriptor)
  | onType (id : TypeId) (e : TypeEdit)
  | onSchema (schema : SchemaId) (e : SchemaEdit)
  | registerRenames (schema : SchemaId)

/-- What an operation answers. -/
inductive Reply where
  | done
  | schema (id : SchemaId)
  | type (id : TypeId)
  | entity (id : EntityId)
  | index (i : Nat)
  | attribute (e : Element Attribute)
  | interface (e : Element Interface)
  | rule (id : RuleId)
  | count (n : Nat)

/-- Performs an operation on a descriptor. -/
def TypeEdit.edit (id : TypeId) : TypeEdit → Edit Dictionary Reply
  | .setReferent referent? => (fun _ => .done) <$> Dictionary.setReferent id referent?
  | .addChoice choice => .index <$> Dictionary.addChoice id choice
  | .addSupertype supertype => .index <$> Dictionary.addSupertype ⟨id⟩ supertype
  | .addAttribute a => .attribute <$> Dictionary.addAttribute ⟨id⟩ a
  | .addUniqueness rule => (fun _ => .done) <$> Dictionary.addUniqueness ⟨id⟩ rule
  | .addWhereRule rule =>
    (fun _ => .done) <$> Dictionary.editWhereRules id (modifyGet fun rules => rules.push rule)
  | .addAltName schema name => (fun _ => .done) <$> Dictionary.addAltName id schema name
  | .applyOptions options => (fun _ => .done) <$> Dictionary.applyOptions id options
  | .editEntity e => (fun _ => .done) <$> Dictionary.editEntity ⟨id⟩ e
  | .editChoices e => (fun _ => .done) <$> Dictionary.editChoices id e
  | .editWhereRules e => (fun _ => .done) <$> Dictionary.editWhereRules id e

def SchemaEdit.edit (schema : SchemaId) : SchemaEdit → Edit Dictionary Reply
  | .addInterface kind i => .interface <$> Dictionary.addInterface schema kind i
  | .addGlobalRule rule => .rule <$> Dictionary.addGlobalRule schema rule
  | .pushGlobalRule rule => .rule <$> Dictionary.pushGlobalRule schema rule
  | .addFunction text => (fun _ => .done) <$> Dictionary.addFunction schema text
  | .addProcedure text => (fun _ => .done) <$> Dictionary.addProcedure schema text
  | .editInterfaces kind e => (fun _ => .done) <$> Dictionary.editInterfaces schema kind e
  | .editItems kind i e => (fun _ => .done) <$> Dictionary.editItems schema kind i e
  | .editGlobalRules e =>
    (fun _ => .done) <$> Dictionary.editSchema schema
      (Edit.within Schema.globalRules (fun globalRules s => { s with globalRules }) e)
  | .editRule id e => (fun _ => .done) <$> Dictionary.editRule schema id e

def Operation.edit : Operation → Edit Dictionary Reply
  | .addSchema name => .schema <$> modifyGet (Dictionary.addSchema name)
  | .addUnnamed origin? t => .type <$> modifyGet (Dictionary.addUnnamed origin? t)
  | .insertType schema t => .type <$> Dictionary.insertType schema t
  | .insertEntity schema t => .entity <$> Dictionary.insertEntity schema t
  | .onType id e => e.edit id
  | .onSchema schema e => e.edit schema
  | .registerRenames schema => .count <$> Dictionary.registerRenames schema

/-- Performs an operation: its answer or its refusal, and the dictionary afterwards. -/
def perform (op : Operation) (d : Dictionary) : Except Error Reply × Dictionary :=
  op.edit.outcome d

/-- The dictionary that operations build from a new one. -/
def built (config : Config) (ops : List Operation) : Dictionary :=
  (run perform ops (new config)).2

/-! ### Operations on descriptors -/

/-- What an operation changes in the descriptor. -/
def TypeEdit.change (id : TypeId) : TypeEdit → Descriptor → Descriptor
  | .setReferent referent?, t => { t with referent? }
  | .addChoice choice, t => t.modifyChoices (·.append choice)
  | .addSupertype supertype, t => t.modifyEntity fun b => (b.addSupertype supertype).2
  | .addAttribute a, t => t.modifyEntity fun b => (b.addAttribute { a with owner? := some ⟨id⟩ }).2
  | .addUniqueness rule, t => t.modifyEntity (·.addUniqueness { rule with parent := some ⟨id⟩ })
  | .addWhereRule rule, t => { t with whereRules := (t.whereRules.push rule).2 }
  | .addAltName schema name, t => t.addAltName schema name
  | .applyOptions options, t => t.applyOptions options
  | .editEntity e, t => t.modifyEntity e.after
  | .editChoices e, t => t.modifyChoices e.after
  | .editWhereRules e, t => { t with whereRules := e.after t.whereRules }

/-- An operation on a descriptor changes this one alone. -/
theorem TypeEdit.after_edit (id : TypeId) (e : TypeEdit) (d : Dictionary) :
    (e.edit id).after d = d.modifyType id (e.change id) := by
  unfold edit
  cases e with
  | setReferent referent? => rw [Edit.after_map]; exact after_editType id _ d
  | addChoice choice => rw [Edit.after_map]; exact after_editChoices id _ d
  | addSupertype supertype => rw [Edit.after_map]; exact after_editEntity ⟨id⟩ _ d
  | addAttribute a => rw [Edit.after_map]; exact after_editEntity ⟨id⟩ _ d
  | addUniqueness rule => rw [Edit.after_map]; exact after_editEntity ⟨id⟩ _ d
  | addWhereRule rule => rw [Edit.after_map]; exact after_editWhereRules id _ d
  | addAltName schema name => rw [Edit.after_map]; exact after_editType id _ d
  | applyOptions options => rw [Edit.after_map]; exact after_editType id _ d
  | editEntity e => rw [Edit.after_map]; exact after_editEntity ⟨id⟩ e d
  | editChoices e => rw [Edit.after_map]; exact after_editChoices id e d
  | editWhereRules e => rw [Edit.after_map]; exact after_editWhereRules id e d

end ExpressModel.Dictionary

namespace ExpressModel

/-! ### What stays -/

/-- A descriptor in two states: what it was declared with is the same. -/
structure Descriptor.Keeps (t u : Descriptor) : Prop where
  name : u.name = t.name
  description : u.description = t.description
  origin? : u.origin? = t.origin?
  kind : u.kind = t.kind

namespace Descriptor

variable {t u v : Descriptor}

theorem Keeps.refl (t : Descriptor) : t.Keeps t :=
  ⟨rfl, rfl, rfl, rfl⟩

theorem Keeps.trans (h : t.Keeps u) (h' : u.Keeps v) : t.Keeps v :=
  ⟨h'.name.trans h.name, h'.description.trans h.description, h'.origin?.trans h.origin?,
    h'.kind.trans h.kind⟩

theorem Keeps.isEntity (h : t.Keeps u) : u.isEntity = t.isEntity := by
  rw [Bool.eq_iff_iff, ← kind_eq_entity_iff, ← kind_eq_entity_iff, h.kind]

theorem keeps_modifyEntity (f : EntityBody → EntityBody) (t : Descriptor) :
    t.Keeps (t.modifyEntity f) := by
  rcases t with ⟨name, description, origin?, referent?, altNames, whereRules, body⟩
  cases body <;> exact ⟨rfl, rfl, rfl, rfl⟩

theorem keeps_modifyChoices (f : Registry TypeId → Registry TypeId) (t : Descriptor) :
    t.Keeps (t.modifyChoices f) := by
  rcases t with ⟨name, description, origin?, referent?, altNames, whereRules, body⟩
  cases body <;> exact ⟨rfl, rfl, rfl, rfl⟩

theorem keeps_addAltName (schema name : String) (t : Descriptor) :
    t.Keeps (t.addAltName schema name) :=
  ⟨rfl, rfl, rfl, rfl⟩

theorem keeps_applyOptions (options : RegistryOptions) (t : Descriptor) :
    t.Keeps (t.applyOptions options) := by
  rcases t with ⟨name, description, origin?, referent?, altNames, whereRules, body⟩
  cases body <;> exact ⟨rfl, rfl, rfl, rfl⟩

end Descriptor

/-- A schema in two states: its name and what it declares are the same. -/
structure Schema.Keeps (s u : Schema) : Prop where
  name : u.name = s.name
  listed : ∀ l, u.listed l = s.listed l

namespace Schema

variable {s : Schema}

/-- A schema in two states: its name and the slots of its lists are the same. -/
structure SameLists (s u : Schema) : Prop where
  name : u.name = s.name
  types : u.types = s.types
  entities : u.entities = s.entities

theorem SameLists.refl (s : Schema) : s.SameLists s :=
  ⟨rfl, rfl, rfl⟩

theorem SameLists.keeps {u : Schema} (h : s.SameLists u) : s.Keeps u := by
  refine ⟨h.name, ?_⟩
  rintro (_ | _)
  · exact congrArg Registry.live h.types
  · exact congrArg (fun r => r.live.map EntityId.toType) h.entities

theorem sameLists_withInterfaces (kind : InterfaceKind) (interfaces : OwnedRegistry Interface)
    (s : Schema) : s.SameLists (s.withInterfaces kind interfaces) := by
  cases kind <;> exact ⟨rfl, rfl, rfl⟩

end Schema

namespace Dictionary

variable {d d' d'' : Dictionary}

/-- Every descriptor and every schema of a dictionary is still there in another. -/
structure Extends (d d' : Dictionary) : Prop where
  config : d'.config = d.config
  types : ∀ {id t}, d.find? id = some t → ∃ u, d'.find? id = some u ∧ t.Keeps u
  schemas : ∀ {schema s}, d.schema? schema = some s →
    ∃ u, d'.schema? schema = some u ∧ u.name = s.name

theorem Extends.refl (d : Dictionary) : d.Extends d :=
  ⟨rfl, fun h => ⟨_, h, .refl _⟩, fun h => ⟨_, h, rfl⟩⟩

theorem Extends.trans (h : d.Extends d') (h' : d'.Extends d'') : d.Extends d'' := by
  refine ⟨h'.config.trans h.config, ?_, ?_⟩
  · intro id t ht
    obtain ⟨u, hu, hkeeps⟩ := h.types ht
    obtain ⟨v, hv, hkeeps'⟩ := h'.types hu
    exact ⟨v, hv, hkeeps.trans hkeeps'⟩
  · intro schema s hs
    obtain ⟨u, hu, hname⟩ := h.schemas hs
    obtain ⟨v, hv, hname'⟩ := h'.schemas hu
    exact ⟨v, hv, hname'.trans hname⟩

theorem extends_modifyType (id : TypeId) {f : Descriptor → Descriptor}
    (hf : ∀ t : Descriptor, t.Keeps (f t)) (d : Dictionary) : d.Extends (d.modifyType id f) := by
  refine ⟨rfl, ?_, fun h => ⟨_, h, rfl⟩⟩
  intro other t ht
  rw [find?_modifyType, ht]
  split
  · exact ⟨f t, rfl, hf t⟩
  · exact ⟨t, rfl, .refl t⟩

theorem extends_modifySchema (schema : SchemaId) {f : Schema → Schema}
    (hf : ∀ s, (f s).name = s.name) (d : Dictionary) :
    d.Extends (d.modifySchema schema f) := by
  refine ⟨rfl, fun h => ⟨_, h, .refl _⟩, ?_⟩
  intro other s hs
  rw [schema?_modifySchema, hs]
  split
  · exact ⟨f s, rfl, hf s⟩
  · exact ⟨s, rfl, rfl⟩

theorem extends_addUnnamed (origin? : Option SchemaId) (t : Descriptor) (d : Dictionary) :
    d.Extends (addUnnamed origin? t d).2 := by
  refine ⟨rfl, ?_, fun h => ⟨_, h, rfl⟩⟩
  intro id u hu
  exact ⟨u, find?_addUnnamed_of_some hu origin? t, .refl u⟩

theorem extends_declare (l : Listing) (schema : SchemaId) (t : Descriptor) (d : Dictionary) :
    d.Extends (declare l schema t d) :=
  (extends_addUnnamed (some schema) t d).trans
    (extends_modifySchema schema (Schema.name_enlist _ l) _)

theorem extends_addSchema (name : String) (d : Dictionary) :
    d.Extends (addSchema name d).2 := by
  refine ⟨rfl, fun h => ⟨_, h, .refl _⟩, ?_⟩
  intro schema s hs
  exact ⟨s, schema?_addSchema_of_some hs name, rfl⟩

theorem extends_recordRenames (schema : String) (renames : List (TypeId × String))
    (d : Dictionary) : d.Extends (recordRenames schema renames d) := by
  unfold recordRenames
  induction renames generalizing d with
  | nil => exact .refl d
  | cons rename renames ih =>
      have hfirst : d.Extends (d.modifyType rename.1 (·.addAltName schema rename.2)) :=
        extends_modifyType rename.1 (fun t => Descriptor.keeps_addAltName schema rename.2 t) d
      exact hfirst.trans (ih _)

theorem TypeEdit.keeps_change (id : TypeId) (e : TypeEdit) (t : Descriptor) :
    t.Keeps (e.change id t) := by
  cases e with
  | setReferent referent? => exact ⟨rfl, rfl, rfl, rfl⟩
  | addChoice choice => exact Descriptor.keeps_modifyChoices _ t
  | addSupertype supertype => exact Descriptor.keeps_modifyEntity _ t
  | addAttribute a => exact Descriptor.keeps_modifyEntity _ t
  | addUniqueness rule => exact Descriptor.keeps_modifyEntity _ t
  | addWhereRule rule => exact ⟨rfl, rfl, rfl, rfl⟩
  | addAltName schema name => exact Descriptor.keeps_addAltName schema name t
  | applyOptions options => exact Descriptor.keeps_applyOptions options t
  | editEntity e => exact Descriptor.keeps_modifyEntity _ t
  | editChoices e => exact Descriptor.keeps_modifyChoices _ t
  | editWhereRules e => exact ⟨rfl, rfl, rfl, rfl⟩

/-- An operation on a schema changes this one alone, and neither its name nor its lists of
declarations. -/
theorem SchemaEdit.after_edit (schema : SchemaId) (e : SchemaEdit) (d : Dictionary) :
    ∃ f : Schema → Schema, (∀ s : Schema, s.SameLists (f s)) ∧
      (e.edit schema).after d = d.modifySchema schema f := by
  unfold edit
  cases e with
  | addInterface kind i =>
      refine ⟨_, ?_, by rw [Edit.after_map]; exact after_editSchema schema _ d⟩
      intro s
      exact Schema.sameLists_withInterfaces kind _ s
  | addGlobalRule rule =>
      refine ⟨_, ?_, by rw [Edit.after_map]; exact after_addGlobalRule schema rule d⟩
      intro s
      exact ⟨rfl, rfl, rfl⟩
  | pushGlobalRule rule =>
      refine ⟨_, ?_, by rw [Edit.after_map]; exact after_editSchema schema _ d⟩
      intro s
      exact ⟨rfl, rfl, rfl⟩
  | addFunction text =>
      refine ⟨_, ?_, by rw [Edit.after_map]; exact after_editSchema schema _ d⟩
      intro s
      exact ⟨rfl, rfl, rfl⟩
  | addProcedure text =>
      refine ⟨_, ?_, by rw [Edit.after_map]; exact after_editSchema schema _ d⟩
      intro s
      exact ⟨rfl, rfl, rfl⟩
  | editInterfaces kind e =>
      refine ⟨_, ?_, by rw [Edit.after_map]; exact after_editSchema schema _ d⟩
      intro s
      rw [Edit.after_within]
      exact Schema.sameLists_withInterfaces kind _ s
  | editItems kind i e =>
      refine ⟨_, ?_, by rw [Edit.after_map]; exact after_editSchema schema _ d⟩
      intro s
      rw [Edit.after_within]
      exact Schema.sameLists_withInterfaces kind _ s
  | editGlobalRules e =>
      refine ⟨_, ?_, by rw [Edit.after_map]; exact after_editSchema schema _ d⟩
      intro s
      rw [Edit.after_within]
      exact ⟨rfl, rfl, rfl⟩
  | editRule id e =>
      refine ⟨_, ?_, by rw [Edit.after_map]; exact after_editSchema schema _ d⟩
      intro s
      rw [Edit.after_focus]
      split
      · exact ⟨rfl, rfl, rfl⟩
      · exact .refl s

/-! ### The dictionary after an operation -/

theorem perform_onType (id : TypeId) (e : TypeEdit) (d : Dictionary) :
    (perform (.onType id e) d).2 = d.modifyType id (e.change id) :=
  e.after_edit id d

theorem perform_onSchema_sameLists (schema : SchemaId) (e : SchemaEdit) (d : Dictionary) :
    ∃ f : Schema → Schema, (∀ s : Schema, s.SameLists (f s)) ∧
      (perform (.onSchema schema e) d).2 = d.modifySchema schema f :=
  e.after_edit schema d

theorem perform_onSchema (schema : SchemaId) (e : SchemaEdit) (d : Dictionary) :
    ∃ f : Schema → Schema, (∀ s : Schema, s.Keeps (f s)) ∧
      (perform (.onSchema schema e) d).2 = d.modifySchema schema f := by
  obtain ⟨f, hf, h⟩ := perform_onSchema_sameLists schema e d
  exact ⟨f, fun s => (hf s).keeps, h⟩

theorem perform_addSchema (name : String) (d : Dictionary) :
    perform (.addSchema name) d = (.ok (.schema ⟨d.schemaCount⟩), (addSchema name d).2) := rfl

theorem perform_addUnnamed (origin? : Option SchemaId) (t : Descriptor) (d : Dictionary) :
    perform (.addUnnamed origin? t) d =
      (.ok (.type ⟨d.typeCount⟩), (addUnnamed origin? t d).2) := rfl

/-- A refused insertion changes nothing; any other declares a type of its schema. -/
theorem perform_insertType (schema : SchemaId) (t : Descriptor) (d : Dictionary) :
    (∃ err, perform (.insertType schema t) d = (.error err, d)) ∨
      ∃ s, d.schema? schema = some s ∧ t.isEntity = false ∧
        perform (.insertType schema t) d =
          (.ok (.type ⟨d.typeCount⟩), declare .types schema t d) := by
  have hperform : perform (.insertType schema t) d =
      (((insertType schema t).outcome d).1.map .type, ((insertType schema t).outcome d).2) :=
    Edit.outcome_map Reply.type (insertType schema t) d
  rw [hperform]
  unfold Edit.outcome
  rw [insertType_eq]
  cases ht : t.isEntity with
  | true => exact .inl ⟨_, rfl⟩
  | false =>
      cases hs : d.schema? schema with
      | none => exact .inl ⟨_, rfl⟩
      | some s => exact .inr ⟨s, rfl, rfl, rfl⟩

theorem perform_insertEntity (schema : SchemaId) (t : Descriptor) (d : Dictionary) :
    (∃ err, perform (.insertEntity schema t) d = (.error err, d)) ∨
      ∃ s, d.schema? schema = some s ∧ t.isEntity = true ∧
        perform (.insertEntity schema t) d =
          (.ok (.entity ⟨⟨d.typeCount⟩⟩), declare .entities schema t d) := by
  have hperform : perform (.insertEntity schema t) d =
      (((insertEntity schema t).outcome d).1.map .entity,
        ((insertEntity schema t).outcome d).2) :=
    Edit.outcome_map Reply.entity (insertEntity schema t) d
  rw [hperform]
  unfold Edit.outcome
  rw [insertEntity_eq]
  cases ht : t.isEntity with
  | false => exact .inl ⟨_, rfl⟩
  | true =>
      cases hs : d.schema? schema with
      | none => exact .inl ⟨_, rfl⟩
      | some s => exact .inr ⟨s, rfl, rfl, rfl⟩

theorem perform_registerRenames (schema : SchemaId) (d : Dictionary) :
    (d.schema? schema = none ∧ (perform (.registerRenames schema) d).2 = d) ∨
      ∃ s, d.schema? schema = some s ∧
        (perform (.registerRenames schema) d).2 = recordRenames s.name (d.renames s) d := by
  have hafter : (perform (.registerRenames schema) d).2 = (registerRenames schema).after d :=
    Edit.after_map Reply.count (registerRenames schema) d
  rw [hafter]
  unfold Edit.after Edit.outcome
  rw [registerRenames_eq]
  cases hs : d.schema? schema with
  | none => exact .inl ⟨rfl, rfl⟩
  | some s => exact .inr ⟨s, rfl, rfl⟩

theorem perform_extends (op : Operation) (d : Dictionary) : d.Extends (perform op d).2 := by
  cases op with
  | addSchema name => exact extends_addSchema name d
  | addUnnamed origin? t => exact extends_addUnnamed origin? t d
  | insertType schema t =>
      rcases perform_insertType schema t d with ⟨err, h⟩ | ⟨s, -, -, h⟩
      · rw [h]
        exact .refl d
      · rw [h]
        exact extends_declare .types schema t d
  | insertEntity schema t =>
      rcases perform_insertEntity schema t d with ⟨err, h⟩ | ⟨s, -, -, h⟩
      · rw [h]
        exact .refl d
      · rw [h]
        exact extends_declare .entities schema t d
  | onType id e =>
      rw [perform_onType]
      exact extends_modifyType id (e.keeps_change id) d
  | onSchema schema e =>
      obtain ⟨f, hf, h⟩ := perform_onSchema schema e d
      rw [h]
      exact extends_modifySchema schema (fun s => (hf s).name) d
  | registerRenames schema =>
      rcases perform_registerRenames schema d with ⟨-, h⟩ | ⟨s, -, h⟩
      · rw [h]
        exact .refl d
      · rw [h]
        exact extends_recordRenames s.name _ d

theorem run_extends (ops : List Operation) (d : Dictionary) :
    d.Extends (run perform ops d).2 :=
  run_preserves (fun op _ h => h.trans (perform_extends op _)) ops (.refl d)

theorem config_built (config : Config) (ops : List Operation) :
    (built config ops).config = config :=
  (run_extends ops (new config)).config

end Dictionary

end ExpressModel
