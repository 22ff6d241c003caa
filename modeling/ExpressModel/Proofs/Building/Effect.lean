import ExpressModel.Dictionary.Build

/-! # The effect of an edit

What an edit leaves behind, whether it is refused or not.  An edit of a part leaves the whole with
that part changed (`after_focus`), so every edit of a descriptor is a change of that descriptor in
place (`after_editType`), and every edit of a schema a change of that schema (`after_editSchema`);
where there is nothing to edit, there is nothing to change either.  Insertions either are refused
or declare a descriptor (`insertType_eq`, `insertEntity_eq`). -/

namespace ExpressModel

namespace Edit

variable {σ τ α β : Type}

/-- The answer of an edit and the state it leaves. -/
def outcome (e : Edit σ α) (s : σ) : Except Error α × σ :=
  match e s with
  | .ok a s => (.ok a, s)
  | .error err s => (.error err, s)

def after (e : Edit σ α) (s : σ) : σ :=
  (e.outcome s).2

theorem outcome_map (f : α → β) (e : Edit σ α) (s : σ) :
    (f <$> e).outcome s = ((e.outcome s).1.map f, (e.outcome s).2) := by
  show outcome (EStateM.map f e) s = _
  unfold outcome EStateM.map
  cases e s <;> rfl

theorem after_map (f : α → β) (e : Edit σ α) (s : σ) : (f <$> e).after s = e.after s := by
  unfold after
  rw [outcome_map]

theorem after_focus (view : σ → Except Error τ) (put : τ → σ → σ) (e : Edit τ α) (s : σ) :
    (focus view put e).after s = match view s with
      | .ok t => put (e.after t) s
      | .error _ => s := by
  simp only [after, outcome, focus]
  cases view s with
  | error err => rfl
  | ok t =>
      dsimp only
      cases e t <;> rfl

theorem after_within (view : σ → τ) (put : τ → σ → σ) (e : Edit τ α) (s : σ) :
    (within view put e).after s = put (e.after (view s)) s :=
  after_focus _ put e s

theorem query_bind (f : σ → Except Error α) (next : α → Edit σ β) (s : σ) :
    (query f >>= next) s = match f s with
      | .ok a => next a s
      | .error err => .error err s := by
  show EStateM.bind (query f) next s = _
  unfold EStateM.bind query
  cases f s <;> rfl

end Edit

/-! ### Listings -/

/-- The lists in which a schema declares descriptors. -/
inductive Listing where
  | types
  | entities
  deriving DecidableEq

/-- Are the descriptors of the list entities? -/
def Listing.ofEntities : Listing → Bool
  | .types => false
  | .entities => true

namespace Schema

/-- The descriptors that a schema declares, in order. -/
def listed : Listing → Schema → List TypeId
  | .types, s => s.types.live
  | .entities, s => s.entities.live.map EntityId.toType

/-- Declares a descriptor, at the end of its list. -/
def enlist (id : TypeId) : Listing → Schema → Schema
  | .types, s => { s with types := s.types.append id }
  | .entities, s => { s with entities := s.entities.append ⟨id⟩ }

theorem listed_enlist (id : TypeId) (l other : Listing) (s : Schema) :
    (s.enlist id l).listed other = s.listed other ++ if l = other then [id] else [] := by
  cases l <;> cases other <;> simp [listed, enlist, Registry.live_eq]

@[simp] theorem name_enlist (id : TypeId) (l : Listing) (s : Schema) :
    (s.enlist id l).name = s.name := by
  cases l <;> rfl

end Schema

namespace Dictionary

variable {β : Type}

/-! ### Descriptors -/

/-- What a change does to other elements does not matter. -/
theorem modify_congr {α : Type} {as : Array α} {i : Nat} {f g : α → α}
    (h : ∀ a, as[i]? = some a → f a = g a) : as.modify i f = as.modify i g := by
  apply Array.ext_getElem?
  intro j
  rw [Array.getElem?_modify, Array.getElem?_modify]
  split
  · next hij =>
    subst hij
    cases ha : as[i]? with
    | none => rfl
    | some a => exact congrArg some (h a ha)
  · rfl

theorem modify_self {α : Type} {as : Array α} {i : Nat} {f : α → α}
    (h : ∀ a, as[i]? = some a → f a = a) : as.modify i f = as := by
  rw [modify_congr h]
  apply Array.ext_getElem?
  intro j
  rw [Array.getElem?_modify, Option.map_id']
  exact ite_self _

theorem modifyType_congr {id : TypeId} {f g : Descriptor → Descriptor} {d : Dictionary}
    (h : ∀ t, d.find? id = some t → f t = g t) : d.modifyType id f = d.modifyType id g := by
  unfold modifyType
  rw [modify_congr h]

theorem after_editType (id : TypeId) (e : Edit Descriptor β) (d : Dictionary) :
    (editType id e).after d = d.modifyType id e.after := by
  unfold editType
  rw [Edit.after_focus]
  unfold require
  cases ht : d.find? id with
  | none =>
      have hsame : d.descriptors.modify id.index e.after = d.descriptors := by
        refine modify_self ?_
        intro t ht'
        exact absurd (ht.symm.trans ht') (by simp)
      unfold modifyType
      rw [hsame]
  | some t =>
      refine modifyType_congr ?_
      intro u hu
      rw [ht] at hu
      cases hu
      rfl

theorem after_editWhereRules (id : TypeId) (e : Edit (RuleSet WhereRule) β) (d : Dictionary) :
    (editWhereRules id e).after d =
      d.modifyType id fun t => { t with whereRules := e.after t.whereRules } := by
  unfold editWhereRules
  rw [after_editType]
  refine modifyType_congr ?_
  intro t _
  exact Edit.after_within _ _ e t

theorem after_editEntity (id : EntityId) (e : Edit EntityBody β) (d : Dictionary) :
    (editEntity id e).after d = d.modifyType id.toType fun t => t.modifyEntity e.after := by
  unfold editEntity
  rw [after_editType]
  refine modifyType_congr ?_
  intro t _
  rw [Edit.after_focus]
  unfold Descriptor.requireEntity Descriptor.entity? Descriptor.modifyEntity
  cases t.body <;> rfl

theorem after_editChoices (id : TypeId) (e : Edit (Registry TypeId) β) (d : Dictionary) :
    (editChoices id e).after d = d.modifyType id fun t => t.modifyChoices e.after := by
  unfold editChoices
  rw [after_editType]
  refine modifyType_congr ?_
  intro t _
  rw [Edit.after_focus]
  unfold Descriptor.requireChoices Descriptor.select? Descriptor.modifyChoices
  cases t.body <;> rfl

/-! ### Schemas -/

theorem after_editSchema (schema : SchemaId) (e : Edit Schema β) (d : Dictionary) :
    (editSchema schema e).after d = d.modifySchema schema e.after := by
  unfold editSchema
  rw [Edit.after_focus]
  unfold requireSchema
  cases hs : d.schema? schema with
  | none =>
      have hsame : d.schemas.modify schema.index e.after = d.schemas := by
        refine modify_self ?_
        intro s hs'
        exact absurd (hs.symm.trans hs') (by simp)
      unfold modifySchema
      rw [hsame]
  | some s =>
      unfold modifySchema
      rw [modify_congr]
      intro u hu
      have hu : d.schema? schema = some u := hu
      rw [hs] at hu
      cases hu
      rfl

theorem after_addGlobalRule (schema : SchemaId) (rule : GlobalRule) (d : Dictionary) :
    (addGlobalRule schema rule).after d = d.modifySchema schema fun s =>
      (s.pushRule { rule.applyOptions d.config.registry with parent := some schema }).2 := by
  refine Eq.trans ?_ (after_editSchema schema
    (modifyGet (·.pushRule { rule.applyOptions d.config.registry with parent := some schema })) d)
  rfl

/-! ### Insertions -/

theorem index_lt_typeCount {id : TypeId} {t : Descriptor} {d : Dictionary}
    (h : d.find? id = some t) : id.index < d.typeCount :=
  (Array.getElem?_eq_some_iff.mp h).1

theorem index_lt_schemaCount {schema : SchemaId} {s : Schema} {d : Dictionary}
    (h : d.schema? schema = some s) : schema.index < d.schemaCount :=
  (Array.getElem?_eq_some_iff.mp h).1

theorem schema?_addSchema (name : String) (d : Dictionary) (schema : SchemaId) :
    (addSchema name d).2.schema? schema =
      if schema = ⟨d.schemaCount⟩ then some (Schema.new name d.config.registry)
      else d.schema? schema := by
  rcases schema with ⟨n⟩
  simp [addSchema, schema?, schemaCount, Array.getElem?_push]

theorem find?_addUnnamed_of_some {id : TypeId} {u : Descriptor} {d : Dictionary}
    (h : d.find? id = some u) (origin? : Option SchemaId) (t : Descriptor) :
    (addUnnamed origin? t d).2.find? id = some u := by
  rw [find?_addUnnamed, if_neg, h]
  rintro rfl
  exact Nat.lt_irrefl _ (index_lt_typeCount h)

theorem schema?_addSchema_of_some {schema : SchemaId} {s : Schema} {d : Dictionary}
    (h : d.schema? schema = some s) (name : String) :
    (addSchema name d).2.schema? schema = some s := by
  rw [schema?_addSchema, if_neg, h]
  rintro rfl
  exact Nat.lt_irrefl _ (index_lt_schemaCount h)

theorem requireSchema_of_none {schema : SchemaId} {d : Dictionary} (h : d.schema? schema = none) :
    d.requireSchema schema = .error (.unknownSchema schema) := by
  unfold requireSchema
  rw [h]

/-- The dictionary with a descriptor more, declared in a schema. -/
def declare (l : Listing) (schema : SchemaId) (t : Descriptor) (d : Dictionary) : Dictionary :=
  (addUnnamed (some schema) t d).2.modifySchema schema (Schema.enlist ⟨d.typeCount⟩ l)

theorem insertType_eq (schema : SchemaId) (t : Descriptor) (d : Dictionary) :
    insertType schema t d =
      if t.isEntity then .error (.kindMismatch t.name .nonEntity) d
      else match d.schema? schema with
        | none => .error (.unknownSchema schema) d
        | some _ => .ok ⟨d.typeCount⟩ (declare .types schema t d) := by
  unfold insertType
  cases ht : t.isEntity with
  | true => rfl
  | false =>
      show (Edit.query (·.requireSchema schema) >>= _) d = _
      rw [Edit.query_bind]
      cases hs : d.schema? schema with
      | none => rw [requireSchema_of_none hs]; rfl
      | some s => rw [requireSchema_eq_ok_iff.mpr hs]; rfl

theorem insertEntity_eq (schema : SchemaId) (t : Descriptor) (d : Dictionary) :
    insertEntity schema t d =
      if t.isEntity then match d.schema? schema with
        | none => .error (.unknownSchema schema) d
        | some _ => .ok ⟨⟨d.typeCount⟩⟩ (declare .entities schema t d)
      else .error (.kindMismatch t.name .entity) d := by
  unfold insertEntity
  cases ht : t.isEntity with
  | false => rfl
  | true =>
      show (Edit.query (·.requireSchema schema) >>= _) d = _
      rw [Edit.query_bind]
      cases hs : d.schema? schema with
      | none => rw [requireSchema_of_none hs]; rfl
      | some s => rw [requireSchema_eq_ok_iff.mpr hs]; rfl

/-! ### Renames -/

theorem registerRenames_eq (schema : SchemaId) (d : Dictionary) :
    registerRenames schema d = match d.schema? schema with
      | none => .error (.unknownSchema schema) d
      | some s => .ok (d.renames s).length (recordRenames s.name (d.renames s) d) := by
  unfold registerRenames
  rw [Edit.query_bind]
  cases hs : d.schema? schema with
  | none => rw [requireSchema_of_none hs]
  | some s => rw [requireSchema_eq_ok_iff.mpr hs]; rfl

end Dictionary

end ExpressModel
