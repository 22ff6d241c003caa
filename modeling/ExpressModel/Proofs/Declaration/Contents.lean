import Mathlib
import ExpressModel.Declaration.SchemaText
import ExpressModel.Proofs.Building.Operation
import ExpressModel.Proofs.Declaration.Traversal
import ExpressModel.Proofs.Resolve.Mirror

/-! # What texts are made of

The contents of a dictionary are what its texts are made of: of a registry the values in order,
vacant slots left out, of a rule set its rules, and of an entity its explicit, its derived and its
inverse attributes, each in a list of their own.  How registries are laid out is no part of them,
nor whether a rule set without rules has come into being, nor how explicit and derived attributes
alternate.

The texts of schemas and of single declarations are functions of the contents, refusals included
(`texts_eq_of_contents_eq`).  Every step on the way from a registry to the text therefore asks for
its live elements, never for its slots. -/

namespace ExpressModel

/-! ### Contents -/

/-- What the declaration of an entity is made of, beside what those of all types are. -/
structure EntityBody.Contents where
  supertypeStatement? : Option String
  supertypes : List EntityId
  explicit : List Attribute
  derived : List Attribute
  inverse : List Attribute
  uniqueness : List UniquenessRule

/-- The contents of the body of an entity. -/
def EntityBody.contents (b : EntityBody) : EntityBody.Contents where
  supertypeStatement? := b.supertypeStatement?
  supertypes := b.supertypes.live
  explicit := b.explicitAttrs.values.filter (!·.isDerived)
  derived := b.explicitAttrs.values.filter (·.isDerived)
  inverse := b.inverseAttrs.values
  uniqueness := b.uniqueness.values

/-- What the declaration of a type is made of. -/
structure Descriptor.Contents where
  name : String
  description : String
  origin? : Option SchemaId
  altNames : List AltName
  isEnumeration : Bool
  whereRules : List WhereRule
  entity? : Option EntityBody.Contents

def Descriptor.contents (t : Descriptor) : Descriptor.Contents where
  name := t.name
  description := t.description
  origin? := t.origin?
  altNames := t.altNames
  isEnumeration := t.isEnumeration
  whereRules := t.whereRules.values
  entity? := t.entity?.map EntityBody.contents

/-- What the clause of an interface is made of. -/
structure Interface.Contents where
  foreign : String
  importsAll : Bool
  items : List ImportItem

def Interface.contents (i : Interface) : Interface.Contents where
  foreign := i.foreign
  importsAll := i.importsAll
  items := i.items.values

/-- What the text of a schema is made of, beside the declarations that it lists. -/
structure Schema.Contents where
  name : String
  types : List TypeId
  entities : List EntityId
  useInterfaces : List Interface.Contents
  referenceInterfaces : List Interface.Contents
  ruleTexts : List String
  functions : List String
  procedures : List String

def Schema.contents (s : Schema) : Schema.Contents where
  name := s.name
  types := s.types.live
  entities := s.entities.live
  useInterfaces := s.useInterfaces.values.map Interface.contents
  referenceInterfaces := s.referenceInterfaces.values.map Interface.contents
  ruleTexts := s.liveRules.map GlobalRule.text
  functions := s.functions.toList
  procedures := s.procedures.toList

/-- What the texts of a dictionary are made of. -/
structure Dictionary.Contents where
  generation : GenerationOptions
  types : List Descriptor.Contents
  schemas : List Schema.Contents

def Dictionary.contents (d : Dictionary) : Dictionary.Contents where
  generation := d.config.generation
  types := d.descriptors.toList.map Descriptor.contents
  schemas := d.schemas.toList.map Schema.contents

/-! ### Parts of declarations -/

/-- Where one reading of a value decides another, so it does on lists. -/
theorem map_eq_map_of_imp {α β γ : Type} {f : α → β} {g : α → γ}
    (hfg : ∀ a b, f a = f b → g a = g b) {as bs : List α} (h : as.map f = bs.map f) :
    as.map g = bs.map g := by
  rw [← List.forall₂_eq_eq_eq, List.forall₂_map_left_iff, List.forall₂_map_right_iff] at h ⊢
  exact h.imp hfg

/-- Optional values that read the same are both there or both missing. -/
theorem map_eq_map_cases {α β : Type} {f : α → β} {o o' : Option α} (h : o'.map f = o.map f) :
    (o = none ∧ o' = none) ∨ ∃ a b, o = some a ∧ o' = some b ∧ f b = f a := by
  cases o with
  | none =>
      rw [Option.map_none, Option.map_eq_none_iff] at h
      exact .inl ⟨rfl, h⟩
  | some a =>
      rw [Option.map_some, Option.map_eq_some_iff] at h
      obtain ⟨b, hb, hf⟩ := h
      exact .inr ⟨a, b, rfl, hb, hf⟩

namespace Declaration

theorem ruleBlock_of_values {ρ : Type} [RuleText ρ] (keyword : String) {rules rules' : RuleSet ρ}
    (h : rules'.values = rules.values) : ruleBlock keyword rules' = ruleBlock keyword rules := by
  unfold ruleBlock
  rw [h]

theorem supertypeStatement_of_contents {b b' : EntityBody} (h : b'.contents = b.contents) :
    supertypeStatement b' = supertypeStatement b := by
  have hstatement : b'.supertypeStatement? = b.supertypeStatement? :=
    congrArg EntityBody.Contents.supertypeStatement? h
  unfold supertypeStatement
  rw [hstatement]

theorem typeText_of_contents {t u : Descriptor} (h : u.contents = t.contents) :
    typeText u = typeText t := by
  have hname : u.name = t.name := congrArg Descriptor.Contents.name h
  have hdescription : u.description = t.description :=
    congrArg Descriptor.Contents.description h
  have henumeration : u.isEnumeration = t.isEnumeration :=
    congrArg Descriptor.Contents.isEnumeration h
  have hrules : u.whereRules.values = t.whereRules.values :=
    congrArg Descriptor.Contents.whereRules h
  unfold typeText underlyingText
  rw [hname, hdescription, henumeration, ruleBlock_of_values "WHERE" hrules]

theorem interfaceText_of_contents (kind : InterfaceKind) (i j : Interface)
    (h : i.contents = j.contents) : interfaceText kind i = interfaceText kind j := by
  have hforeign : i.foreign = j.foreign := congrArg Interface.Contents.foreign h
  have hall : i.importsAll = j.importsAll := congrArg Interface.Contents.importsAll h
  have hitems : i.items.values = j.items.values := congrArg Interface.Contents.items h
  unfold interfaceText
  rw [hforeign, hall, hitems]

theorem interfacesText_of_contents {s s' : Schema} (h : s'.contents = s.contents) :
    interfacesText s' = interfacesText s := by
  have hinterfaces : ∀ kind, (s'.interfaces kind).values.map Interface.contents =
      (s.interfaces kind).values.map Interface.contents := by
    intro kind
    cases kind with
    | use => exact congrArg Schema.Contents.useInterfaces h
    | reference => exact congrArg Schema.Contents.referenceInterfaces h
  have htexts : ∀ kind, (s'.interfaces kind).values.map (interfaceText kind) =
      (s.interfaces kind).values.map (interfaceText kind) := fun kind =>
    map_eq_map_of_imp (interfaceText_of_contents kind) (hinterfaces kind)
  unfold interfacesText
  simp only [htexts]

theorem algorithmsText_of_contents {s s' : Schema} (h : s'.contents = s.contents) :
    algorithmsText s' = algorithmsText s := by
  have hrules : s'.liveRules.map GlobalRule.text = s.liveRules.map GlobalRule.text :=
    congrArg Schema.Contents.ruleTexts h
  have hfunctions : s'.functions.toList = s.functions.toList :=
    congrArg Schema.Contents.functions h
  have hprocedures : s'.procedures.toList = s.procedures.toList :=
    congrArg Schema.Contents.procedures h
  unfold algorithmsText
  rw [hrules, hfunctions, hprocedures]

end Declaration

theorem Descriptor.domainText_of_contents {t u : Descriptor} (h : u.contents = t.contents)
    (schema? : Option String) : u.domainText schema? = t.domainText schema? := by
  have hname : u.name = t.name := congrArg Contents.name h
  have hdescription : u.description = t.description := congrArg Contents.description h
  have haltNames : u.altNames = t.altNames := congrArg Contents.altNames h
  unfold domainText isNamed nameIn
  rw [hname, hdescription, haltNames]

theorem Descriptor.isEntity_of_contents {t u : Descriptor} (h : u.contents = t.contents) :
    u.isEntity = t.isEntity := by
  have hentity : u.entity?.map EntityBody.contents = t.entity?.map EntityBody.contents :=
    congrArg Contents.entity? h
  unfold isEntity
  rw [← Option.isSome_map, hentity, Option.isSome_map]

/-! ### Handles -/

namespace Dictionary

variable {d d' : Dictionary}

theorem map_contents_find? (d : Dictionary) (type : TypeId) :
    (d.find? type).map Descriptor.contents = d.contents.types[type.index]? := by
  unfold find? contents
  rw [List.getElem?_map, Array.getElem?_toList]

theorem map_contents_schema? (d : Dictionary) (schema : SchemaId) :
    (d.schema? schema).map Schema.contents = d.contents.schemas[schema.index]? := by
  unfold schema? contents
  rw [List.getElem?_map, Array.getElem?_toList]

section contents

variable (h : d'.contents = d.contents)

include h

theorem agree_require (type : TypeId) :
    Agree (fun e : Error => e) (fun t u => u.contents = t.contents) (d.require type)
      (d'.require type) := by
  have hsame : (d'.find? type).map Descriptor.contents =
      (d.find? type).map Descriptor.contents := by
    rw [map_contents_find?, map_contents_find?, h]
  unfold require
  rcases map_eq_map_cases hsame with ⟨ht, hu⟩ | ⟨t, u, ht, hu, htu⟩
  · rw [ht, hu]
    exact .error rfl
  · rw [ht, hu]
    exact .ok htu

theorem agree_requireEntity (e : EntityId) :
    Agree (fun e : Error => e) (fun t u => u.contents = t.contents) (d.requireEntity e)
      (d'.requireEntity e) := by
  rw [requireEntity_eq, requireEntity_eq]
  refine (agree_require h e.toType).bind ?_
  intro t u htu
  have hname : u.name = t.name := congrArg Descriptor.Contents.name htu
  rw [Descriptor.isEntity_of_contents htu, hname]
  split
  · exact .ok htu
  · exact .error rfl

theorem agree_requireSchema (schema : SchemaId) :
    Agree (fun e : Error => e) (fun s s' => s'.contents = s.contents) (d.requireSchema schema)
      (d'.requireSchema schema) := by
  have hsame : (d'.schema? schema).map Schema.contents =
      (d.schema? schema).map Schema.contents := by
    rw [map_contents_schema?, map_contents_schema?, h]
  unfold requireSchema
  rcases map_eq_map_cases hsame with ⟨hs, hs'⟩ | ⟨s, s', hs, hs', hcontents⟩
  · rw [hs, hs']
    exact .error rfl
  · rw [hs, hs']
    exact .ok hcontents

/-! ### Entities -/

theorem domainText_of_contents (a : Attribute) (schema? : Option String) :
    a.domainText d' schema? = a.domainText d schema? := by
  unfold Attribute.domainText
  cases a.domain? with
  | none => rfl
  | some domain =>
      refine ((agree_require h domain).map_eq ?_).eq
      intro t u htu
      exact (Descriptor.domainText_of_contents htu schema?).symm

theorem attributeText_of_contents :
    Declaration.attributeText d' = Declaration.attributeText d := by
  funext schema? a
  unfold Declaration.attributeText
  rw [domainText_of_contents h]

theorem attributeSections_of_contents (schema? : Option String) {b b' : EntityBody}
    (hb : b'.contents = b.contents) :
    Declaration.attributeSections d' schema? b' = Declaration.attributeSections d schema? b := by
  have hexplicit : b'.explicitAttrs.values.filter (!·.isDerived) =
      b.explicitAttrs.values.filter (!·.isDerived) := congrArg EntityBody.Contents.explicit hb
  have hderived : b'.explicitAttrs.values.filter (·.isDerived) =
      b.explicitAttrs.values.filter (·.isDerived) := congrArg EntityBody.Contents.derived hb
  have hinverse : b'.inverseAttrs.values = b.inverseAttrs.values :=
    congrArg EntityBody.Contents.inverse hb
  unfold Declaration.attributeSections Declaration.attributeSection Declaration.attributeLines
  dsimp only
  rw [attributeText_of_contents h, hexplicit, hderived, hinverse]

theorem subtypeClause_of_contents (supertypes : List EntityId) :
    Declaration.subtypeClause d' supertypes = Declaration.subtypeClause d supertypes := by
  unfold Declaration.subtypeClause
  rw [Traversal.mapM_congr]
  intro e _
  refine ((agree_require h e.toType).map_eq ?_).eq
  intro t u htu
  have hname : u.name = t.name := congrArg Descriptor.Contents.name htu
  rw [hname]

theorem declaration_entityText_of_contents (schema? : Option String) {t u : Descriptor}
    (htu : u.contents = t.contents) :
    Declaration.entityText d' schema? u = Declaration.entityText d schema? t := by
  have hname : u.name = t.name := congrArg Descriptor.Contents.name htu
  have hrules : u.whereRules.values = t.whereRules.values :=
    congrArg Descriptor.Contents.whereRules htu
  have hentity : u.entity?.map EntityBody.contents = t.entity?.map EntityBody.contents :=
    congrArg Descriptor.Contents.entity? htu
  unfold Declaration.entityText
  dsimp only
  rw [hname, Declaration.ruleBlock_of_values "WHERE" hrules]
  rcases map_eq_map_cases hentity with ⟨ht, hu⟩ | ⟨b, b', ht, hu, hcontents⟩
  · rw [ht, hu]
  · have hsupertypes : b'.supertypes.live = b.supertypes.live :=
      congrArg EntityBody.Contents.supertypes hcontents
    have huniqueness : b'.uniqueness.values = b.uniqueness.values :=
      congrArg EntityBody.Contents.uniqueness hcontents
    rw [ht, hu]
    dsimp only
    rw [hsupertypes, subtypeClause_of_contents h, attributeSections_of_contents h _ hcontents,
      Declaration.supertypeStatement_of_contents hcontents,
      Declaration.ruleBlock_of_values "UNIQUE" huniqueness]

/-! ### Texts -/

theorem typesText_of_contents (types : List TypeId) :
    Declaration.typesText d' types = Declaration.typesText d types := by
  unfold Declaration.typesText
  rw [Traversal.mapM_congr]
  intro type _
  refine ((agree_require h type).map_eq ?_).eq
  intro t u htu
  exact (Declaration.typeText_of_contents htu).symm

theorem entitiesText_of_contents (schema : String) (entities : List EntityId) :
    Declaration.entitiesText d' schema entities = Declaration.entitiesText d schema entities := by
  unfold Declaration.entitiesText
  rw [Traversal.mapM_congr]
  intro e _
  refine ((agree_requireEntity h e).bind ?_).eq
  intro t u htu
  rw [declaration_entityText_of_contents h _ htu]
  exact .refl _

theorem schemaText_of_contents (schema : SchemaId) :
    d'.schemaText schema = d.schemaText schema := by
  unfold schemaText
  refine ((agree_requireSchema h schema).bind ?_).eq
  intro s s' hs
  have hgeneration : d'.config.generation = d.config.generation :=
    congrArg Contents.generation h
  have hname : s'.name = s.name := congrArg Schema.Contents.name hs
  have htypes : s'.types.live = s.types.live := congrArg Schema.Contents.types hs
  have hentities : s'.entities.live = s.entities.live := congrArg Schema.Contents.entities hs
  have hruleCount : s'.liveRules.length = s.liveRules.length := by
    have hrules : s'.liveRules.map GlobalRule.text = s.liveRules.map GlobalRule.text :=
      congrArg Schema.Contents.ruleTexts hs
    rw [← List.length_map GlobalRule.text, hrules, List.length_map]
  rw [hgeneration, hname, htypes, hentities, hruleCount, typesText_of_contents h,
    entitiesText_of_contents h, Declaration.interfacesText_of_contents hs,
    Declaration.algorithmsText_of_contents hs]
  exact .refl _

theorem typeText_of_contents (type : TypeId) : d'.typeText type = d.typeText type := by
  unfold typeText
  refine ((agree_require h type).bind ?_).eq
  intro t u htu
  have hname : u.name = t.name := congrArg Descriptor.Contents.name htu
  rw [Descriptor.isEntity_of_contents htu, hname, Declaration.typeText_of_contents htu]
  exact .refl _

theorem entityText_of_contents (e : EntityId) : d'.entityText e = d.entityText e := by
  have hschema : ∀ schema, (d'.schema? schema).map Schema.name =
      (d.schema? schema).map Schema.name := by
    intro schema
    have hsame : (d'.schema? schema).map Schema.contents =
        (d.schema? schema).map Schema.contents := by
      rw [map_contents_schema?, map_contents_schema?, h]
    have hnames := congrArg (Option.map Schema.Contents.name) hsame
    rw [Option.map_map, Option.map_map] at hnames
    exact hnames
  unfold entityText
  refine ((agree_requireEntity h e).bind ?_).eq
  intro t u htu
  have horigin : u.origin? = t.origin? := congrArg Descriptor.Contents.origin? htu
  rw [horigin, Option.map_bind, Option.map_bind, declaration_entityText_of_contents h _ htu]
  simp only [Function.comp_def, hschema]
  exact .refl _

end contents

/-- The texts of schemas, with their numbers of declarations, and the declarations of types and
entities are the same in dictionaries of the same contents, and so are the refusals. -/
theorem texts_eq_of_contents_eq (h : d'.contents = d.contents) :
    (∀ schema, d'.schemaText schema = d.schemaText schema) ∧
      (∀ schema, d'.expressText schema = d.expressText schema) ∧
      (∀ type, d'.typeText type = d.typeText type) ∧
      ∀ e, d'.entityText e = d.entityText e := by
  refine ⟨schemaText_of_contents h, ?_, typeText_of_contents h, entityText_of_contents h⟩
  intro schema
  unfold expressText
  rw [schemaText_of_contents h]

/-- A circle below a shape, with a radius and an area. -/
def circle : List Operation :=
  [.addSchema "Drawing",
    .insertEntity ⟨0⟩ (.entity "Shape" (.ofOptions {})),
    .insertEntity ⟨0⟩ (.entity "Circle" (.ofOptions {})),
    .onType ⟨9⟩ (.addSupertype ⟨⟨8⟩⟩),
    .onType ⟨9⟩ (.addAttribute { name := "radius", domain? := some ⟨1⟩ }),
    .onType ⟨9⟩ (.addAttribute { name := "area", role := .derived none, domain? := some ⟨1⟩ })]

/-- The same circle with its area before its radius, with a vacant slot before its supertype and
with sets of rules that have none. -/
def looseCircle : List Operation :=
  [.addSchema "Drawing",
    .insertEntity ⟨0⟩ (.entity "Shape" (.ofOptions {})),
    .insertEntity ⟨0⟩ (.entity "Circle" (.ofOptions {})),
    .onType ⟨9⟩ (.addAttribute { name := "area", role := .derived none, domain? := some ⟨1⟩ }),
    .onType ⟨9⟩ (.addAttribute { name := "radius", domain? := some ⟨1⟩ }),
    .onType ⟨9⟩ (.editEntity (Edit.within EntityBody.supertypes
      (fun supertypes b => { b with supertypes }) (Registry.set 1 ⟨⟨8⟩⟩))),
    .onType ⟨9⟩ (.editWhereRules (modify RuleSet.init)),
    .onSchema ⟨0⟩ (.editGlobalRules (modify RuleSet.init))]

theorem texts_eq_circle :
    ((built { registry := ⟨4, .extend⟩ } looseCircle).find? ⟨9⟩).map (fun t =>
        t.entity?.map fun b => b.supertypes.toList) = some (some [none, some ⟨⟨8⟩⟩]) ∧
      (built { registry := ⟨4, .extend⟩ } looseCircle).contents = (built {} circle).contents ∧
      (built { registry := ⟨4, .extend⟩ } looseCircle).schemaText ⟨0⟩ =
        (built {} circle).schemaText ⟨0⟩ := by
  have hcontents : (built { registry := ⟨4, .extend⟩ } looseCircle).contents =
      (built {} circle).contents := by cbv
  refine ⟨?_, hcontents, (texts_eq_of_contents_eq hcontents).1 ⟨0⟩⟩
  cbv

end Dictionary

end ExpressModel
