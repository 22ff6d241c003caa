import Mathlib
import ExpressModel.Proofs.Building.Listing
import ExpressModel.Proofs.Declaration.SchemaParts
import ExpressModel.Proofs.Declaration.Traversal

/-! # Texts of schemas

The text of a schema is put together from its parts, among them the declarations of what it lists,
each written as it is on its own.  A schema names the domains of attributes by its own name and a
single entity by that of the schema it was declared in: the two agree on dictionaries whose schemas
list only what was declared in them (`entitiesText_eq`).  Such are all dictionaries that operations
build, which gives `schemaText_built`. -/

namespace ExpressModel.Dictionary

open Declaration

variable {d : Dictionary} {schema : SchemaId} {s : Schema}

/-! ### Declarations of a list -/

theorem typeText_of_declaredIn {id : TypeId} (h : d.DeclaredIn .types schema id) :
    ∃ t, d.require id = .ok t ∧ d.typeText id = .ok (Declaration.typeText t) := by
  obtain ⟨t, ht, hentity, -⟩ := h
  have hrequire : d.require id = .ok t := require_eq_ok_iff.mpr ht
  refine ⟨t, hrequire, ?_⟩
  unfold Dictionary.typeText
  rw [hrequire]
  show (if t.isEntity = true then _ else _) = _
  rw [hentity]
  rfl

theorem typesText_eq {ids : List TypeId} (h : ∀ id ∈ ids, d.DeclaredIn .types schema id) :
    ∃ texts, ids.mapM d.typeText = .ok texts ∧
      typesText d ids = .ok (String.join (texts.map ("\n" ++ ·))) := by
  have hsame : ids.mapM (fun id => (d.require id).map Declaration.typeText) =
      ids.mapM d.typeText := by
    refine Traversal.mapM_congr ?_
    intro id hid
    obtain ⟨t, hrequire, htext⟩ := typeText_of_declaredIn (h id hid)
    rw [hrequire, htext]
    rfl
  obtain ⟨texts, htexts⟩ : ∃ texts, ids.mapM d.typeText = .ok texts := by
    rw [Traversal.exists_mapM_eq_ok_iff]
    intro id hid
    obtain ⟨t, -, htext⟩ := typeText_of_declaredIn (h id hid)
    exact ⟨_, htext⟩
  refine ⟨texts, htexts, ?_⟩
  unfold typesText
  rw [hsame, htexts]
  rfl

/-- An entity names the domains of its attributes as the schema does that it was declared in. -/
theorem entityText_of_declaredIn (hs : d.schema? schema = some s) {e : EntityId}
    (h : d.DeclaredIn .entities schema e.toType) :
    d.entityText e = (d.requireEntity e).bind (Declaration.entityText d (some s.name)) := by
  obtain ⟨t, ht, hentity, horigin⟩ := h
  have hrequire : d.requireEntity e = .ok t := requireEntity_eq_ok_iff.mpr ⟨ht, hentity⟩
  unfold Dictionary.entityText
  rw [hrequire]
  show Declaration.entityText d ((t.origin?.bind d.schema?).map Schema.name) t = _
  rw [horigin, Option.bind_some, hs]
  rfl

theorem entitiesText_eq (hs : d.schema? schema = some s) {es : List EntityId}
    (h : ∀ e ∈ es, d.DeclaredIn .entities schema e.toType) :
    entitiesText d s.name es =
      (es.mapM d.entityText).map fun texts => String.join (texts.map ("\n" ++ ·)) := by
  have hsame : es.mapM (fun e => (d.requireEntity e).bind
      (Declaration.entityText d (some s.name))) = es.mapM d.entityText := by
    refine Traversal.mapM_congr ?_
    intro e he
    exact (entityText_of_declaredIn hs (h e he)).symm
  show (es.mapM (fun e => (d.requireEntity e).bind
    (Declaration.entityText d (some s.name)))).map _ = _
  rw [hsame]

/-! ### The whole text -/

/-- The text of a schema is made of the declarations of its types, which all have one, and of its
entities, whose first refusal refuses the whole. -/
theorem schemaText_eq (hd : d.WellListed) (hs : d.schema? schema = some s) :
    ∃ typeTexts, s.types.live.mapM d.typeText = .ok typeTexts ∧
      d.schemaText schema = (s.entities.live.mapM d.entityText).map fun entityTexts =>
        { text := (SchemaParts.written d.config.generation s typeTexts entityTexts).text s.name
          typeCount := s.types.live.length
          entityCount := s.entities.live.length
          ruleCount := s.liveRules.length } := by
  have htypes : ∀ id ∈ s.types.live, d.DeclaredIn .types schema id := by
    intro id hid
    refine hd .types schema id ?_
    rw [listed_of_some hs]
    exact hid
  have hentities : ∀ e ∈ s.entities.live, d.DeclaredIn .entities schema e.toType := by
    intro e he
    refine hd .entities schema e.toType ?_
    rw [listed_of_some hs]
    exact List.mem_map_of_mem he
  obtain ⟨typeTexts, htexts, htypesText⟩ := typesText_eq htypes
  refine ⟨typeTexts, htexts, ?_⟩
  unfold schemaText
  rw [requireSchema_eq_ok_iff.mpr hs]
  show (typesText d s.types.live >>= _) = _
  rw [htypesText]
  show (entitiesText d s.name s.entities.live >>= _) = _
  rw [entitiesText_eq hs hentities]
  simp only [SchemaParts.text_written]
  cases s.entities.live.mapM d.entityText <;> rfl

/-- What a run has declared in a schema is what the schema lists. -/
theorem live_built {config : Config} {ops : List Operation}
    (hs : (built config ops).schema? schema = some s) :
    s.types.live = declared .types schema ops (new config) ∧
      s.entities.live =
        (declared .entities schema ops (new config)).map EntityId.mk := by
  have hnone : (new config).schema? schema = none := rfl
  have htypes := listed_run .types schema ops (new config)
  have hentities := listed_run .entities schema ops (new config)
  rw [listed_of_none hnone, List.nil_append] at htypes hentities
  have hs : (run perform ops (new config)).2.schema? schema = some s := hs
  rw [listed_of_some hs] at htypes hentities
  refine ⟨htypes, ?_⟩
  rw [← hentities]
  show _ = (s.entities.live.map EntityId.toType).map EntityId.mk
  rw [List.map_map]
  exact (List.map_id' _).symm

/-- The text of a schema and the texts of its declarations, in every dictionary that operations
build: there is one if all entities declared in the schema have one, and then it is made of the
declarations in the order in which they were inserted; otherwise the refusal is that of the first
entity that is refused. -/
theorem schemaText_built (config : Config) (ops : List Operation) (schema : SchemaId) (s : Schema)
    (hs : (built config ops).schema? schema = some s) :
    let d := built config ops
    let types := declared .types schema ops (new config)
    let entities := (declared .entities schema ops (new config)).map EntityId.mk
    ((∃ out, d.schemaText schema = .ok out) ↔ ∀ e ∈ entities, ∃ text, d.entityText e = .ok text) ∧
    (∀ err, d.schemaText schema = .error err ↔
      ∃ before e after, entities = before ++ e :: after ∧
        (∀ b ∈ before, ∃ text, d.entityText b = .ok text) ∧ d.entityText e = .error err) ∧
    ∀ out, d.schemaText schema = .ok out ↔
      ∃ parts : SchemaParts, parts.IsFor config.generation s ∧
        List.Forall₂ (fun id text => d.typeText id = .ok text) types parts.types ∧
        List.Forall₂ (fun e text => d.entityText e = .ok text) entities parts.entities ∧
        out = {
          text := parts.text s.name
          typeCount := types.length
          entityCount := entities.length
          ruleCount := s.liveRules.length } := by
  intro d types entities
  obtain ⟨htypes, hentities⟩ := live_built hs
  obtain ⟨typeTexts, htexts, htext⟩ := schemaText_eq (wellListed_built config ops) hs
  rw [config_built, htypes, hentities] at htext
  rw [htypes] at htexts
  have htypeTexts : ∀ texts, List.Forall₂ (fun id text => d.typeText id = .ok text) types texts →
      texts = typeTexts := by
    intro texts htexts'
    rw [← Traversal.mapM_eq_ok_iff] at htexts'
    exact Except.ok.inj (htexts'.symm.trans htexts)
  refine ⟨?_, ?_, ?_⟩
  · rw [htext, Traversal.exists_map_eq_ok_iff]
    exact Traversal.exists_mapM_eq_ok_iff
  · intro err
    rw [htext, Traversal.map_eq_error_iff]
    exact Traversal.mapM_eq_error_iff
  · intro out
    rw [htext, Traversal.map_eq_ok_iff]
    constructor
    · rintro ⟨entityTexts, hentityTexts, rfl⟩
      exact ⟨.written config.generation s typeTexts entityTexts, SchemaParts.isFor_iff.mpr rfl,
        Traversal.mapM_eq_ok_iff.mp htexts, Traversal.mapM_eq_ok_iff.mp hentityTexts, rfl⟩
    · rintro ⟨parts, hparts, htexts', hentityTexts, rfl⟩
      refine ⟨parts.entities, Traversal.mapM_eq_ok_iff.mpr hentityTexts, ?_⟩
      rw [← htypeTexts parts.types htexts', ← SchemaParts.isFor_iff.mp hparts]

/-- A schema with a type and an entity, whose attribute has the type under another name. -/
def labelledPoint : List Operation :=
  [.addSchema "Geometry",
    .insertType ⟨0⟩ { name := "Label", description := "STRING", body := .plain .string },
    .insertEntity ⟨0⟩ (.entity "Point" (.ofOptions {})),
    .onType ⟨9⟩ (.addAttribute { name := "tag", domain? := some ⟨8⟩ }),
    .onType ⟨8⟩ (.addAltName "geometry" "Mark")]

/-- The same schema with interfaces, a rule, a function and a procedure. -/
def importingPoint : List Operation :=
  labelledPoint ++
    [.onSchema ⟨0⟩ (.addInterface .reference
        { current := "Geometry", foreign := "Units", importsAll := true }),
      .onSchema ⟨0⟩ (.addInterface .use
        (Interface.withItem (.renamed "Edge" "") (Interface.withItem (.renamed "Vertex" "Corner")
          { current := "Geometry", foreign := "Topology" }))),
      .onSchema ⟨0⟩ (.pushGlobalRule (.new "one" "RULE one FOR (point);\nEND_RULE;" {})),
      .onSchema ⟨0⟩ (.addFunction "FUNCTION f;\nEND_FUNCTION;"),
      .onSchema ⟨0⟩ (.addProcedure "PROCEDURE p;\nEND_PROCEDURE;")]

/-- The parts of the text of the schema. -/
def importingPointParts : SchemaParts where
  banner := "\n(* Generating: Geometry *)\n"
  uses := ["\n    USE FROM topology\n       (vertex AS corner,\n\tedge);\n"]
  references := ["\n    REFERENCE FROM units;\n"]
  types := ["TYPE label = string;\nEND_TYPE;\n"]
  entities := ["ENTITY point;\n    tag : mark;\nEND_ENTITY;\n"]
  rules := "\n(* *************RULES************* *)\n\nRULE one FOR (point);\nEND_RULE;\n"
  functions := "(* *************FUNCTIONS************* *)\n\nFUNCTION f;\nEND_FUNCTION;\n"
  procedures := "(* *************PROCEDURES************* *)\n\nPROCEDURE p;\nEND_PROCEDURE;\n"

theorem schemaText_importingPoint : ∃ s, (built {} importingPoint).schema? ⟨0⟩ = some s ∧
    importingPointParts.IsFor {} s ∧
    (built {} importingPoint).schemaText ⟨0⟩ = .ok {
      text := "\n(* Generating: Geometry *)\n" ++ "\nSCHEMA geometry;\n" ++
        "\n    USE FROM topology\n       (vertex AS corner,\n\tedge);\n" ++
        "\n    REFERENCE FROM units;\n" ++
        "\n(* ////////////// TYPE Definitions *)\n" ++
        "\nTYPE label = string;\nEND_TYPE;\n" ++
        "\n(* ////////////// ENTITY Definitions *)\n" ++
        "\nENTITY point;\n    tag : mark;\nEND_ENTITY;\n" ++
        "\n(* *************RULES************* *)\n\nRULE one FOR (point);\nEND_RULE;\n" ++
        "(* *************FUNCTIONS************* *)\n\nFUNCTION f;\nEND_FUNCTION;\n" ++
        "(* *************PROCEDURES************* *)\n\nPROCEDURE p;\nEND_PROCEDURE;\n" ++
        "\nEND_SCHEMA;\n"
      typeCount := 1
      entityCount := 1
      ruleCount := 1 } := by
  obtain ⟨s, hs⟩ : ∃ s, (built {} importingPoint).schema? ⟨0⟩ = some s := ⟨_, by cbv⟩
  have htypes : declared .types ⟨0⟩ importingPoint (new {}) = [⟨8⟩] := by cbv
  have hentities : declared .entities ⟨0⟩ importingPoint (new {}) = [⟨9⟩] := by cbv
  have hlabel : (built {} importingPoint).typeText ⟨8⟩ =
      .ok "TYPE label = string;\nEND_TYPE;\n" := by cbv
  have hpoint : (built {} importingPoint).entityText ⟨⟨9⟩⟩ =
      .ok "ENTITY point;\n    tag : mark;\nEND_ENTITY;\n" := by cbv
  have hschema : ((built {} importingPoint).schema? ⟨0⟩).map (fun s =>
      (SchemaParts.written {} s importingPointParts.types importingPointParts.entities,
        s.name, s.liveRules.length)) = some (importingPointParts, "Geometry", 1) := by cbv
  rw [hs] at hschema
  obtain ⟨hparts, hname, hrules⟩ : _ ∧ s.name = _ ∧ s.liveRules.length = _ := by
    simpa using hschema
  refine ⟨s, hs, SchemaParts.isFor_iff.mpr hparts.symm, ?_⟩
  rw [(schemaText_built {} importingPoint ⟨0⟩ s hs).2.2, htypes, hentities]
  refine ⟨importingPointParts, SchemaParts.isFor_iff.mpr hparts.symm, .cons hlabel .nil,
    .cons hpoint .nil, ?_⟩
  rw [hname, hrules]
  decide +kernel

end ExpressModel.Dictionary
