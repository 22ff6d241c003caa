import Mathlib
import ExpressModel.Declaration.SchemaText

/-! # Parts of schema texts

What the text of a schema is made of, and what each part has to be: the clauses of the interfaces
(`ImportClause`), the raw texts under their headings (`UnderHeading`), and the declarations.  These
are relations, and each part that is so related is the one that is written
(`SchemaParts.isFor_iff`). -/

namespace ExpressModel

theorem intercalate_cons_eq (sep first : String) (others : List String) :
    String.intercalate sep (first :: others) = first ++ String.join (others.map (sep ++ ·)) := by
  induction others generalizing first with
  | nil => simp
  | cons next others ih =>
      rw [String.intercalate_cons_cons, ih, List.map_cons, String.join_cons]
      simp [String.append_assoc]

/-- Elements are related to what a function gives for them. -/
theorem forall₂_iff_map_eq {α β : Type} {R : α → β → Prop} {f : α → β}
    (h : ∀ a b, R a b ↔ f a = b) {as : List α} {bs : List β} :
    List.Forall₂ R as bs ↔ as.map f = bs := by
  have hR : R = fun a b => f a = b := funext fun a => funext fun b => propext (h a b)
  rw [hR, ← List.forall₂_map_left_iff, List.forall₂_eq_eq_eq]

namespace Declaration

/-! ### Interfaces -/

/-- An imported item is given by its name, and by its other name where it has one. -/
inductive ImportName : ImportItem → String → Prop where
  | own (name : String) : ImportName ⟨name, none⟩ (Text.lower name)
  | other (name newName : String) :
      ImportName ⟨name, some newName⟩ (Text.lower name ++ " AS " ++ Text.lower newName)

/-- The clause of an interface lists its items, or imports the whole schema where nothing is listed.
An interface that imports nothing has no clause. -/
inductive ImportClause (keyword : String) (i : Interface) : String → Prop where
  | items {first : ImportItem} {others : List ImportItem} {name : String} {names : List String}
      (hitems : i.items.values = first :: others) (hfirst : ImportName first name)
      (hothers : List.Forall₂ ImportName others names) :
      ImportClause keyword i ("\n    " ++ keyword ++ " FROM " ++ Text.lower i.foreign ++
        "\n       (" ++ (name ++ String.join (names.map (",\n\t" ++ ·))) ++ ");\n")
  | whole (hitems : i.items.values = []) (hall : i.importsAll = true) :
      ImportClause keyword i ("\n    " ++ keyword ++ " FROM " ++ Text.lower i.foreign ++ ";\n")
  | nothing (hitems : i.items.values = []) (hall : i.importsAll = false) :
      ImportClause keyword i ""

theorem importName_iff (item : ImportItem) (text : String) :
    ImportName item text ↔ itemText item = text := by
  constructor
  · intro h
    cases h <;> rfl
  · rintro rfl
    obtain ⟨name, _ | newName⟩ := item
    · exact .own name
    · exact .other name newName

theorem importClause_iff (kind : InterfaceKind) (i : Interface) (text : String) :
    ImportClause kind.keyword i text ↔ interfaceText kind i = text := by
  unfold interfaceText
  constructor
  · intro h
    cases h with
    | items hitems hfirst hothers =>
        rw [importName_iff] at hfirst
        rw [forall₂_iff_map_eq importName_iff] at hothers
        simp [hitems, hfirst, hothers, intercalate_cons_eq]
    | whole hitems hall => simp [hitems, hall]
    | nothing hitems hall => simp [hitems, hall]
  · rintro rfl
    cases hitems : i.items.values with
    | nil =>
        cases hall : i.importsAll with
        | false => exact .nothing hitems hall
        | true => exact .whole hitems hall
    | cons first others =>
        have hnames : List.Forall₂ ImportName others (others.map itemText) :=
          (forall₂_iff_map_eq importName_iff).mpr rfl
        have hclause : ImportClause kind.keyword i _ :=
          .items hitems ((importName_iff first _).mpr rfl) hnames
        rw [← intercalate_cons_eq] at hclause
        exact hclause

/-! ### Raw texts -/

/-- Texts stand under a heading, each between empty lines; without texts there is no heading. -/
inductive UnderHeading (heading : String) : List String → String → Prop where
  | nothing : UnderHeading heading [] ""
  | texts (first : String) (others : List String) :
      UnderHeading heading (first :: others)
        (heading ++ String.join ((first :: others).map fun text => "\n" ++ text ++ "\n"))

theorem underHeading_iff {heading text : String} {texts : List String} :
    UnderHeading heading texts text ↔ text = rawSection heading texts := by
  constructor
  · intro h
    cases h <;> rfl
  · rintro rfl
    cases texts with
    | nil => exact .nothing
    | cons first others => exact .texts first others

/-! ### The whole text -/

/-- The parts of the text of a schema. -/
structure SchemaParts where
  banner : String
  uses : List String
  references : List String
  types : List String
  entities : List String
  rules : String
  functions : String
  procedures : String

namespace SchemaParts

/-- The parts put together, every declaration behind an empty line. -/
def text (name : String) (parts : SchemaParts) : String :=
  parts.banner ++ "\nSCHEMA " ++ Text.lower name ++ ";\n" ++
    String.join parts.uses ++ String.join parts.references ++
    "\n(* ////////////// TYPE Definitions *)\n" ++ String.join (parts.types.map ("\n" ++ ·)) ++
    "\n(* ////////////// ENTITY Definitions *)\n" ++ String.join (parts.entities.map ("\n" ++ ·)) ++
    parts.rules ++ parts.functions ++ parts.procedures ++ "\nEND_SCHEMA;\n"

/-- The parts around the declarations are those of a schema. -/
structure IsFor (options : GenerationOptions) (s : Schema) (parts : SchemaParts) : Prop where
  banner : parts.banner =
    if options.headerComment then "\n(* Generating: " ++ s.name ++ " *)\n" else ""
  uses : List.Forall₂ (ImportClause "USE") s.useInterfaces.values parts.uses
  references : List.Forall₂ (ImportClause "REFERENCE") s.referenceInterfaces.values parts.references
  rules : UnderHeading "\n(* *************RULES************* *)\n"
    (s.liveRules.map GlobalRule.text) parts.rules
  functions : UnderHeading "(* *************FUNCTIONS************* *)\n"
    s.functions.toList parts.functions
  procedures : UnderHeading "(* *************PROCEDURES************* *)\n"
    s.procedures.toList parts.procedures

/-- The parts that are written for a schema, with the given declarations. -/
def written (options : GenerationOptions) (s : Schema) (types entities : List String) :
    SchemaParts where
  banner := bannerText options s.name
  uses := s.useInterfaces.values.map (interfaceText .use)
  references := s.referenceInterfaces.values.map (interfaceText .reference)
  types := types
  entities := entities
  rules := rawSection "\n(* *************RULES************* *)\n" (s.liveRules.map GlobalRule.text)
  functions := rawSection "(* *************FUNCTIONS************* *)\n" s.functions.toList
  procedures := rawSection "(* *************PROCEDURES************* *)\n" s.procedures.toList

variable {options : GenerationOptions} {s : Schema} {parts : SchemaParts}

theorem isFor_iff :
    parts.IsFor options s ↔ parts = written options s parts.types parts.entities := by
  constructor
  · intro h
    have hbanner : parts.banner = bannerText options s.name := h.banner
    have huses := (forall₂_iff_map_eq (importClause_iff .use)).mp h.uses
    have hreferences := (forall₂_iff_map_eq (importClause_iff .reference)).mp h.references
    unfold written
    rw [← hbanner, huses, hreferences,
      ← underHeading_iff.mp h.rules, ← underHeading_iff.mp h.functions,
      ← underHeading_iff.mp h.procedures]
  · intro h
    rw [h]
    exact
      { banner := rfl
        uses := (forall₂_iff_map_eq (importClause_iff .use)).mpr rfl
        references := (forall₂_iff_map_eq (importClause_iff .reference)).mpr rfl
        rules := underHeading_iff.mpr rfl
        functions := underHeading_iff.mpr rfl
        procedures := underHeading_iff.mpr rfl }

theorem text_written (types entities : List String) :
    (written options s types entities).text s.name =
      bannerText options s.name ++ "\nSCHEMA " ++ Text.lower s.name ++ ";\n" ++ interfacesText s ++
        "\n(* ////////////// TYPE Definitions *)\n" ++ String.join (types.map ("\n" ++ ·)) ++
        "\n(* ////////////// ENTITY Definitions *)\n" ++ String.join (entities.map ("\n" ++ ·)) ++
        algorithmsText s ++ "\nEND_SCHEMA;\n" := by
  have hinterfaces : interfacesText s =
      String.join (s.useInterfaces.values.map (interfaceText .use)) ++
        String.join (s.referenceInterfaces.values.map (interfaceText .reference)) := by
    simp [interfacesText, InterfaceKind.all, Schema.interfaces]
  rw [hinterfaces]
  simp only [text, written, algorithmsText, String.append_assoc]

end SchemaParts

end Declaration

end ExpressModel
