import Mathlib
import ExpressModel.Declaration.SchemaText
import ExpressModel.Proofs.Building.Renames
import ExpressModel.Proofs.Declaration.Traversal

/-! # Names of supertypes and of domains

The declaration of an entity refers to other descriptors in two places.  An attribute names its
domain as the schema does that the declaration is written for; the clause of supertypes gives every
supertype its own name, whatever names are recorded for it.  The two agree on a descriptor exactly
when its name in the schema is its own, letter case ignored (`NamesReferences`).

Registering the renames of a schema records for each descriptor the last of the new names that its
items give it (`nameIn_recordRenames`).  Attributes then write that name, while the clause goes on
with the name that the item was imported from. -/

namespace ExpressModel

/-! ### The clause -/

namespace Declaration

/-- The clause that lists supertypes under the given names. -/
def subtypeOf (names : List String) : String :=
  if names.isEmpty then "" else "\n  SUBTYPE OF (" ++ String.intercalate ",\n\t\t" names ++ ")"

/-- The declaration of an entity around its clause and its attribute sections. -/
def entityAround (t : Descriptor) (b : EntityBody) (clause sections : String) : String :=
  "ENTITY " ++ Text.lower t.name ++ supertypeStatement b ++ clause ++ ";\n" ++ sections ++
    ruleBlock "UNIQUE" b.uniqueness ++ ruleBlock "WHERE" t.whereRules ++ "END_ENTITY;\n"

theorem subtypeClause_eq (d : Dictionary) (supertypes : List EntityId) :
    subtypeClause d supertypes = (supertypes.mapM fun e => d.require e.toType).map fun us =>
      subtypeOf (us.map fun u => Text.lower u.name) := by
  unfold subtypeClause
  rw [Traversal.mapM_map]
  cases supertypes.mapM fun e => d.require e.toType <;> rfl

/-- An entity has a declaration when its supertypes are there and its attributes have theirs; the
clause lists the supertypes under their own names. -/
theorem entityText_eq_ok_iff (d : Dictionary) (schema? : Option String) {t : Descriptor}
    {b : EntityBody} (hb : t.entity? = some b) {text : String} :
    entityText d schema? t = .ok text ↔ ∃ us sections,
      List.Forall₂ (fun e u => d.find? e.toType = some u) b.supertypes.live us ∧
      attributeSections d schema? b = .ok sections ∧
      text = entityAround t b (subtypeOf (us.map fun u => Text.lower u.name)) sections := by
  have hfound : ∀ us, b.supertypes.live.mapM (fun e => d.require e.toType) = .ok us ↔
      List.Forall₂ (fun e u => d.find? e.toType = some u) b.supertypes.live us := by
    intro us
    rw [Traversal.mapM_eq_ok_iff]
    simp only [Dictionary.require_eq_ok_iff]
  unfold entityText
  rw [hb]
  dsimp only
  rw [Traversal.bind_eq_ok_iff, subtypeClause_eq]
  constructor
  · rintro ⟨clause, hclause, htext⟩
    obtain ⟨us, hus, rfl⟩ := Traversal.map_eq_ok_iff.mp hclause
    obtain ⟨sections, hsections, htext⟩ := Traversal.bind_eq_ok_iff.mp htext
    exact ⟨us, sections, (hfound us).mp hus, hsections, (Except.ok.inj htext).symm⟩
  · rintro ⟨us, sections, hus, hsections, rfl⟩
    refine ⟨_, Traversal.map_eq_ok_iff.mpr ⟨us, (hfound us).mpr hus, rfl⟩, ?_⟩
    exact Traversal.bind_eq_ok_iff.mpr ⟨sections, hsections, rfl⟩

end Declaration

/-! ### Names in a schema -/

namespace Descriptor

variable {schema : String}

theorem nameIn_addAltName (schema name : String) (t : Descriptor) :
    (t.addAltName schema name).nameIn (some schema) = name := by
  unfold nameIn addAltName
  rw [Option.bind_some, altNameFor?_recordAltName]
  rfl

/-- The name in a schema is the own name, letter case ignored, unless another is recorded. -/
theorem lower_name_eq_iff (schema : String) (t : Descriptor) :
    Text.lower t.name = Text.lower (t.nameIn (some schema)) ↔
      ∀ alt ∈ altNameFor? schema t.altNames, Text.sameName t.name alt.name = true := by
  unfold nameIn
  rw [Option.bind_some]
  cases altNameFor? schema t.altNames with
  | none => simp
  | some alt => simp [Text.sameName_iff]

theorem domainText_of_isNamed {t : Descriptor} (h : t.isNamed = true) (schema? : Option String) :
    t.domainText schema? = Text.lower (t.nameIn schema?) :=
  if_pos h

end Descriptor

/-! ### Renames -/

namespace Dictionary

variable {d : Dictionary} {schema : SchemaId} {s : Schema} {id : TypeId} {t : Descriptor}

/-- After renames a descriptor has its own name as before, and in the schema the last name that
they give it. -/
theorem nameIn_recordRenames (schema : String) (renames : List (TypeId × String))
    (h : d.find? id = some t) : ∃ u, (recordRenames schema renames d).find? id = some u ∧
      u.name = t.name ∧
      u.nameIn (some schema) = (lastRename? renames id).getD (t.nameIn (some schema)) := by
  refine ⟨_, by rw [find?_recordRenames, h]; rfl, ?_, ?_⟩
  · cases lastRename? renames id <;> rfl
  · cases lastRename? renames id with
    | none => rfl
    | some last => exact Descriptor.nameIn_addAltName schema last t

theorem mem_renames {kind : InterfaceKind} {i : Interface} {item : ImportItem}
    {foreign : SchemaId} {newName : String} (hi : i ∈ (s.interfaces kind).values)
    (hitem : item ∈ i.items.values) (hnew : item.newName? = some newName)
    (hforeign : d.schemaByName? i.foreign = some foreign)
    (hid : d.findType? foreign item.name = some id) : (id, newName) ∈ d.renames s := by
  have hrename : (id, newName) ∈ d.interfaceRenames i := by
    unfold interfaceRenames
    rw [hforeign]
    refine List.mem_filterMap.mpr ⟨item, hitem, ?_⟩
    rw [hnew, hid]
    rfl
  have hkind : kind ∈ InterfaceKind.all := by
    cases kind <;> decide
  exact List.mem_flatMap.mpr ⟨kind, hkind, List.mem_flatMap.mpr ⟨i, hi, hrename⟩⟩

/-- A renamed item denotes a descriptor that keeps the name the item was imported from, and that
attributes of the schema write under the last name that it is given. -/
theorem domainText_of_mem_items {kind : InterfaceKind} {i : Interface} {item : ImportItem}
    {foreign : SchemaId} {newName : String} (hi : i ∈ (s.interfaces kind).values)
    (hitem : item ∈ i.items.values) (hnew : item.newName? = some newName)
    (hforeign : d.schemaByName? i.foreign = some foreign)
    (hid : d.findType? foreign item.name = some id) :
    ∃ u last, (recordRenames s.name (d.renames s) d).find? id = some u ∧
      lastRename? (d.renames s) id = some last ∧ (id, last) ∈ d.renames s ∧
      Text.lower u.name = Text.lower item.name ∧
      u.domainText (some s.name) = Text.lower last := by
  obtain ⟨t, ht, hnamed, hown⟩ := isNamedBy_of_findType? hid
  obtain ⟨last, hlast, hmem⟩ := exists_lastRename? (mem_renames hi hitem hnew hforeign hid)
  obtain ⟨u, hu, hname, hin⟩ := nameIn_recordRenames s.name (d.renames s) ht
  refine ⟨u, last, hu, hlast, hmem, ?_, ?_⟩
  · rw [hname]
    exact Text.sameName_iff.mp hown
  · have hu' : u.isNamed = true := by
      unfold Descriptor.isNamed at hnamed ⊢
      rw [hname, hnamed]
    rw [Descriptor.domainText_of_isNamed hu', hin, hlast]
    rfl

/-! ### References -/

/-- How the declarations that a schema prints refer to other descriptors. -/
structure NamesReferences (d : Dictionary) (schema : SchemaId) (s : Schema) : Prop where
  /-- The clause of an entity lists its supertypes under their own names. -/
  supertypes : ∀ {t b}, t.entity? = some b → ∀ text,
    Declaration.entityText d (some s.name) t = .ok text ↔ ∃ us sections,
      List.Forall₂ (fun e u => d.find? e.toType = some u) b.supertypes.live us ∧
      Declaration.attributeSections d (some s.name) b = .ok sections ∧
      text = Declaration.entityAround t b
        (Declaration.subtypeOf (us.map fun u => Text.lower u.name)) sections
  /-- An attribute writes its domain under the name that it has in the schema. -/
  domain : ∀ {a : Attribute} {id u}, a.domain? = some id → d.find? id = some u →
    u.isNamed = true → a.domainText d (some s.name) = .ok (Text.lower (u.nameIn (some s.name)))
  /-- These are the same exactly when no other name is recorded for the schema. -/
  same : ∀ u : Descriptor, Text.lower u.name = Text.lower (u.nameIn (some s.name)) ↔
    ∀ alt ∈ Descriptor.altNameFor? s.name u.altNames, Text.sameName u.name alt.name = true
  /-- Once the renames of the schema are registered, a renamed item is still listed under the name
  it was imported from, while attributes write the last name it is given. -/
  renamed : ∃ d', registerRenames schema d = .ok (d.renames s).length d' ∧
    d'.schema? schema = some s ∧
    ∀ {kind} {i : Interface} {item : ImportItem} {foreign id newName},
      i ∈ (s.interfaces kind).values → item ∈ i.items.values → item.newName? = some newName →
      d.schemaByName? i.foreign = some foreign → d.findType? foreign item.name = some id →
      ∃ u last, d'.find? id = some u ∧ lastRename? (d.renames s) id = some last ∧
        (id, last) ∈ d.renames s ∧ Text.lower u.name = Text.lower item.name ∧
        u.domainText (some s.name) = Text.lower last

/-- What a schema prints names domains as the schema does, and supertypes as they name
themselves. -/
theorem namesReferences (hs : d.schema? schema = some s) : d.NamesReferences schema s where
  supertypes hb _ := Declaration.entityText_eq_ok_iff d (some s.name) hb
  domain {a id u} ha hu hnamed := by
    unfold Attribute.domainText
    rw [ha]
    show (d.require id).map _ = _
    rw [require_eq_ok_iff.mpr hu, ← Descriptor.domainText_of_isNamed hnamed]
    rfl
  same := Descriptor.lower_name_eq_iff s.name
  renamed := by
    refine ⟨recordRenames s.name (d.renames s) d, ?_, ?_, domainText_of_mem_items⟩
    · rw [registerRenames_eq, hs]
    · rw [schema?_recordRenames, hs]

/-- A schema that imports a shape as a figure, with a circle below it that has one for an
outline. -/
def figures : List Operation :=
  [.addSchema "Support",
    .insertEntity ⟨0⟩ (.entity "Shape" (.ofOptions {})),
    .addSchema "Drawing",
    .onSchema ⟨1⟩ (.addInterface .use
      (Interface.withItem (.renamed "shape" "Figure")
        { current := "Drawing", foreign := "Support" })),
    .insertEntity ⟨1⟩ (.entity "Circle" (.ofOptions {})),
    .onType ⟨9⟩ (.addSupertype ⟨⟨8⟩⟩),
    .onType ⟨9⟩ (.addAttribute { name := "outline", domain? := some ⟨8⟩ })]

theorem namesReferences_figures : ∃ s, (built {} figures).schema? ⟨1⟩ = some s ∧
    (built {} figures).NamesReferences ⟨1⟩ s := by
  obtain ⟨s, hs⟩ : ∃ s, (built {} figures).schema? ⟨1⟩ = some s := ⟨_, by cbv⟩
  exact ⟨s, hs, namesReferences hs⟩

/-- Where the shape is called a figure, the circle is written below a shape, and with a figure for
an outline. -/
theorem entityText_figures :
    ((built {} (figures ++ [.registerRenames ⟨1⟩])).find? ⟨8⟩).map
        (·.nameIn (some "Drawing")) = some "Figure" ∧
      (built {} (figures ++ [.registerRenames ⟨1⟩])).entityText ⟨⟨9⟩⟩ =
        .ok "ENTITY circle\n  SUBTYPE OF (shape);\n    outline : figure;\nEND_ENTITY;\n" := by
  constructor
  · cbv
  · cbv

end Dictionary

end ExpressModel
