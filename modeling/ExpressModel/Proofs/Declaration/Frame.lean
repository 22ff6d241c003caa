import ExpressModel.Proofs.Declaration.SchemaText

/-! # What the text of a schema depends on

A schema that has a text is written alike in every dictionary that agrees with the one at hand on
what the text is made of: the schema itself, the declarations that it lists, and the names that it
uses for any other descriptor (`AgreesOn`, `schemaText_of_agreesOn`).

An operation that works on other schemas, on descriptors that are not listed, or on links that are
not written down, leaves all of that alone (`agreesOn_perform`); hence so does every run of such
operations (`schemaText_run`). -/

namespace ExpressModel

open Declaration
open Traversal (AnswersIn)

/-! ### Descriptors -/

namespace Descriptor

/-- A descriptor in two states, the same to a schema that refers to it. -/
structure NamedAlike (schema : String) (t u : Descriptor) : Prop where
  name : u.name = t.name
  description : u.description = t.description
  nameIn : u.nameIn (some schema) = t.nameIn (some schema)

/-- A descriptor in two states with the same declaration, its name and description apart. -/
structure DeclaredAlike (t u : Descriptor) : Prop where
  entity? : u.entity? = t.entity?
  isEnumeration : u.isEnumeration = t.isEnumeration
  whereRules : u.whereRules = t.whereRules

variable {schema : String} {t u v : Descriptor}

theorem nameIn_modifyEntity (f : EntityBody → EntityBody) (t : Descriptor)
    (schema? : Option String) : (t.modifyEntity f).nameIn schema? = t.nameIn schema? := by
  rcases t with ⟨name, description, origin?, referent?, altNames, whereRules, body⟩
  cases body <;> rfl

theorem nameIn_modifyChoices (f : Registry TypeId → Registry TypeId) (t : Descriptor)
    (schema? : Option String) : (t.modifyChoices f).nameIn schema? = t.nameIn schema? := by
  rcases t with ⟨name, description, origin?, referent?, altNames, whereRules, body⟩
  cases body <;> rfl

theorem NamedAlike.refl (schema : String) (t : Descriptor) : t.NamedAlike schema t :=
  ⟨rfl, rfl, rfl⟩

theorem NamedAlike.trans (h : t.NamedAlike schema u) (h' : u.NamedAlike schema v) :
    t.NamedAlike schema v :=
  ⟨h'.name.trans h.name, h'.description.trans h.description, h'.nameIn.trans h.nameIn⟩

theorem NamedAlike.domainText (h : t.NamedAlike schema u) :
    u.domainText (some schema) = t.domainText (some schema) := by
  unfold Descriptor.domainText isNamed
  rw [h.name, h.description, h.nameIn]

theorem DeclaredAlike.refl (t : Descriptor) : t.DeclaredAlike t :=
  ⟨rfl, rfl, rfl⟩

theorem DeclaredAlike.trans (h : t.DeclaredAlike u) (h' : u.DeclaredAlike v) :
    t.DeclaredAlike v :=
  ⟨h'.entity?.trans h.entity?, h'.isEnumeration.trans h.isEnumeration,
    h'.whereRules.trans h.whereRules⟩

theorem typeText_of_alike (hname : t.NamedAlike schema u) (h : t.DeclaredAlike u) :
    Declaration.typeText u = Declaration.typeText t := by
  unfold Declaration.typeText underlyingText
  rw [hname.name, hname.description, h.isEnumeration, h.whereRules]

end Descriptor

/-! ### Agreement -/

namespace Dictionary

variable {d d' d'' : Dictionary} {schema : SchemaId}

/-- Two dictionaries agree on what the text of a schema is made of. -/
structure AgreesOn (schema : SchemaId) (s : Schema) (d d' : Dictionary) : Prop where
  config : d'.config = d.config
  schema? : d'.schema? schema = d.schema? schema
  types : ∀ {id t}, d.find? id = some t → ∃ u, d'.find? id = some u ∧
    t.NamedAlike s.name u ∧ ∀ l, id ∈ s.listed l → t.DeclaredAlike u

variable {s : Schema}

theorem AgreesOn.refl (schema : SchemaId) (s : Schema) (d : Dictionary) :
    AgreesOn schema s d d :=
  ⟨rfl, rfl, fun h => ⟨_, h, .refl _ _, fun _ _ => .refl _⟩⟩

theorem AgreesOn.trans (h : AgreesOn schema s d d') (h' : AgreesOn schema s d' d'') :
    AgreesOn schema s d d'' := by
  refine ⟨h'.config.trans h.config, h'.schema?.trans h.schema?, ?_⟩
  intro id t ht
  obtain ⟨u, hu, hname, hdecl⟩ := h.types ht
  obtain ⟨v, hv, hname', hdecl'⟩ := h'.types hu
  exact ⟨v, hv, hname.trans hname', fun l hl => (hdecl l hl).trans (hdecl' l hl)⟩

theorem AgreesOn.require (h : AgreesOn schema s d d') {id : TypeId} {t : Descriptor}
    (ht : d.require id = .ok t) : ∃ u, d'.require id = .ok u ∧ t.NamedAlike s.name u ∧
      ∀ l, id ∈ s.listed l → t.DeclaredAlike u := by
  obtain ⟨u, hu, hname, hdecl⟩ := h.types (require_eq_ok_iff.mp ht)
  exact ⟨u, require_eq_ok_iff.mpr hu, hname, hdecl⟩

/-! ### Texts -/

/-- What is read off a descriptor alike in both states is answered alike. -/
theorem AgreesOn.answersIn_require {α : Type} (h : AgreesOn schema s d d') (id : TypeId)
    {read : Descriptor → α}
    (hread : ∀ {t u : Descriptor}, t.NamedAlike s.name u → read u = read t) :
    AnswersIn ((d.require id).map read) ((d'.require id).map read) := by
  intro a ha
  obtain ⟨t, ht, rfl⟩ := Traversal.map_eq_ok_iff.mp ha
  obtain ⟨u, hu, hname, -⟩ := h.require ht
  exact Traversal.map_eq_ok_iff.mpr ⟨u, hu, hread hname⟩

theorem AgreesOn.domainText (h : AgreesOn schema s d d') (a : Attribute) :
    AnswersIn (a.domainText d (some s.name)) (a.domainText d' (some s.name)) := by
  unfold Attribute.domainText
  cases a.domain? with
  | none => exact .refl _
  | some id => exact h.answersIn_require id fun hname => hname.domainText

theorem AgreesOn.attributeText (h : AgreesOn schema s d d') (a : Attribute) :
    AnswersIn (attributeText d (some s.name) a) (attributeText d' (some s.name) a) :=
  (h.domainText a).bind fun _ => .refl _

theorem AgreesOn.attributeLines (h : AgreesOn schema s d d') (attrs : List Attribute) :
    AnswersIn (attributeLines d (some s.name) attrs) (attributeLines d' (some s.name) attrs) := by
  refine AnswersIn.bind (AnswersIn.mapM ?_) fun _ => .refl _
  intro a _
  exact h.attributeText a

theorem AgreesOn.attributeSection (h : AgreesOn schema s d d') (heading : String)
    (attrs : List Attribute) :
    AnswersIn (attributeSection d (some s.name) heading attrs)
      (attributeSection d' (some s.name) heading attrs) := by
  unfold Declaration.attributeSection
  split
  · exact .refl _
  · exact (h.attributeLines attrs).map _

theorem AgreesOn.attributeSections (h : AgreesOn schema s d d') (b : EntityBody) :
    AnswersIn (attributeSections d (some s.name) b) (attributeSections d' (some s.name) b) := by
  refine (h.attributeLines _).bind ?_
  intro explicit
  refine (h.attributeSection _ _).bind ?_
  intro derived
  refine (h.attributeSection _ _).bind ?_
  intro inverse
  exact .refl _

theorem AgreesOn.subtypeClause (h : AgreesOn schema s d d') (supertypes : List EntityId) :
    AnswersIn (subtypeClause d supertypes) (subtypeClause d' supertypes) := by
  refine AnswersIn.bind (AnswersIn.mapM ?_) fun _ => .refl _
  intro e _
  refine h.answersIn_require e.toType ?_
  intro t u hname
  rw [hname.name]

theorem AgreesOn.entityText (h : AgreesOn schema s d d') {t u : Descriptor}
    (hname : t.NamedAlike s.name u) (hdecl : t.DeclaredAlike u) :
    AnswersIn (Declaration.entityText d (some s.name) t)
      (Declaration.entityText d' (some s.name) u) := by
  unfold Declaration.entityText
  dsimp only
  rw [hname.name, hdecl.entity?, hdecl.whereRules]
  cases t.entity? with
  | none => exact .refl _
  | some b =>
      refine (h.subtypeClause _).bind ?_
      intro clause
      refine (h.attributeSections b).bind ?_
      intro sections
      exact .refl _

theorem AgreesOn.typesText (h : AgreesOn schema s d d') :
    AnswersIn (typesText d s.types.live) (typesText d' s.types.live) := by
  refine AnswersIn.bind (AnswersIn.mapM ?_) fun _ => .refl _
  intro id hid text htext
  obtain ⟨t, ht, rfl⟩ := Traversal.map_eq_ok_iff.mp htext
  obtain ⟨u, hu, hname, hdecl⟩ := h.require ht
  exact Traversal.map_eq_ok_iff.mpr
    ⟨u, hu, Descriptor.typeText_of_alike hname (hdecl .types hid)⟩

theorem AgreesOn.requireEntity (h : AgreesOn schema s d d') {e : EntityId} {t : Descriptor}
    (he : e ∈ s.entities.live) (ht : d.requireEntity e = .ok t) :
    ∃ u, d'.requireEntity e = .ok u ∧ t.NamedAlike s.name u ∧ t.DeclaredAlike u := by
  obtain ⟨ht, hentity⟩ := requireEntity_eq_ok_iff.mp ht
  obtain ⟨u, hu, hname, hdecl⟩ := h.types ht
  have hdecl : t.DeclaredAlike u := hdecl .entities (List.mem_map_of_mem he)
  refine ⟨u, requireEntity_eq_ok_iff.mpr ⟨hu, ?_⟩, hname, hdecl⟩
  unfold Descriptor.isEntity at hentity ⊢
  rw [hdecl.entity?, hentity]

theorem AgreesOn.entitiesText (h : AgreesOn schema s d d') :
    AnswersIn (entitiesText d s.name s.entities.live)
      (entitiesText d' s.name s.entities.live) := by
  refine AnswersIn.bind (AnswersIn.mapM ?_) fun _ => .refl _
  intro e he text htext
  obtain ⟨t, ht, htext⟩ := Traversal.bind_eq_ok_iff.mp htext
  obtain ⟨u, hu, hname, hdecl⟩ := h.requireEntity he ht
  exact Traversal.bind_eq_ok_iff.mpr ⟨u, hu, h.entityText hname hdecl text htext⟩

/-- A schema that has a text has the same text in a dictionary that agrees on it. -/
theorem schemaText_of_agreesOn (h : AgreesOn schema s d d') (hs : d.schema? schema = some s) :
    AnswersIn (d.schemaText schema) (d'.schemaText schema) := by
  have hs' : d'.schema? schema = some s := h.schema?.trans hs
  unfold schemaText
  rw [requireSchema_eq_ok_iff.mpr hs, requireSchema_eq_ok_iff.mpr hs', h.config]
  refine h.typesText.bind ?_
  intro types
  refine h.entitiesText.bind ?_
  intro entities
  exact .refl _

/-! ### Operations that spare a schema -/

/-- Is it an operation on links that no text shows? -/
def TypeEdit.relinks : TypeEdit → Bool
  | .setReferent _ => true
  | .addChoice _ => true
  | _ => false

/-- Does the operation give a name in the schema of that name? -/
def TypeEdit.namesIn (schema : String) : TypeEdit → Bool
  | .addAltName other _ => Text.sameName other schema
  | _ => false

/-- An operation that leaves a schema alone: it adds a schema, or a descriptor that the schema
does not list; it works on another schema, or on a descriptor that the schema does not list,
without naming it there; it sets a referent or adds a choice; or it registers the renames of a
schema of another name. -/
def Operation.Spares (schema : SchemaId) (op : Operation) (d : Dictionary) : Prop :=
  match op with
  | .addSchema _ => True
  | .addUnnamed _ _ => True
  | .insertType other _ => other ≠ schema
  | .insertEntity other _ => other ≠ schema
  | .onType id e =>
    (e.relinks = true ∨ ∀ l, id ∉ d.listed l schema) ∧
      ∀ s, d.schema? schema = some s → e.namesIn s.name = false
  | .onSchema other _ => other ≠ schema
  | .registerRenames other =>
    ∀ s u, d.schema? schema = some s → d.schema? other = some u →
      Text.sameName u.name s.name = false

theorem TypeEdit.nameIn_change {name : String} (id : TypeId) {e : TypeEdit}
    (h : e.namesIn name = false) (t : Descriptor) :
    (e.change id t).nameIn (some name) = t.nameIn (some name) := by
  cases e with
  | setReferent referent? => rfl
  | addChoice choice => exact Descriptor.nameIn_modifyChoices _ t _
  | addSupertype supertype => exact Descriptor.nameIn_modifyEntity _ t _
  | addAttribute a => exact Descriptor.nameIn_modifyEntity _ t _
  | addUniqueness rule => exact Descriptor.nameIn_modifyEntity _ t _
  | addWhereRule rule => rfl
  | addAltName other newName =>
      refine Descriptor.nameIn_addAltName_of_ne ?_ newName t
      exact Bool.eq_false_iff.mp h
  | applyOptions options => rfl
  | editEntity e => exact Descriptor.nameIn_modifyEntity _ t _
  | editChoices e => exact Descriptor.nameIn_modifyChoices _ t _
  | editWhereRules e => rfl

theorem TypeEdit.namedAlike_change {name : String} (id : TypeId) {e : TypeEdit}
    (h : e.namesIn name = false) (t : Descriptor) : t.NamedAlike name (e.change id t) :=
  ⟨(e.keeps_change id t).name, (e.keeps_change id t).description, nameIn_change id h t⟩

theorem TypeEdit.declaredAlike_change (id : TypeId) {e : TypeEdit} (h : e.relinks = true)
    (t : Descriptor) : t.DeclaredAlike (e.change id t) := by
  cases e with
  | setReferent referent? => exact ⟨rfl, rfl, rfl⟩
  | addChoice choice =>
      rcases t with ⟨name, description, origin?, referent?, altNames, whereRules, body⟩
      cases body <;> exact ⟨rfl, rfl, rfl⟩
  | _ => cases h

theorem agreesOn_modifyType (schema : SchemaId) {id : TypeId} {f : Descriptor → Descriptor}
    (hname : ∀ t : Descriptor, t.NamedAlike s.name (f t))
    (hdecl : (∀ t : Descriptor, t.DeclaredAlike (f t)) ∨ ∀ l, id ∉ s.listed l) (d : Dictionary) :
    AgreesOn schema s d (d.modifyType id f) := by
  refine ⟨rfl, rfl, ?_⟩
  intro other t ht
  rw [find?_modifyType, ht]
  split
  · next hid =>
    subst hid
    refine ⟨f t, rfl, hname t, ?_⟩
    intro l hl
    rcases hdecl with hdecl | hdecl
    · exact hdecl t
    · exact absurd hl (hdecl l)
  · exact ⟨t, rfl, .refl _ t, fun _ _ => .refl t⟩

theorem agreesOn_modifySchema (s : Schema) {other : SchemaId} (h : other ≠ schema)
    (f : Schema → Schema) (d : Dictionary) : AgreesOn schema s d (d.modifySchema other f) := by
  refine ⟨rfl, ?_, fun h => ⟨_, h, .refl _ _, fun _ _ => .refl _⟩⟩
  rw [schema?_modifySchema, if_neg h]

theorem agreesOn_addUnnamed (schema : SchemaId) (s : Schema) (origin? : Option SchemaId)
    (t : Descriptor) (d : Dictionary) : AgreesOn schema s d (addUnnamed origin? t d).2 := by
  refine ⟨rfl, rfl, ?_⟩
  intro id u hu
  exact ⟨u, find?_addUnnamed_of_some hu origin? t, .refl _ u, fun _ _ => .refl u⟩

theorem agreesOn_declare (s : Schema) {other : SchemaId} (h : other ≠ schema) (l : Listing)
    (t : Descriptor) (d : Dictionary) : AgreesOn schema s d (declare l other t d) :=
  (agreesOn_addUnnamed schema s (some other) t d).trans (agreesOn_modifySchema s h _ _)

theorem agreesOn_addSchema (hs : d.schema? schema = some s) (name : String) :
    AgreesOn schema s d (addSchema name d).2 :=
  ⟨rfl, (schema?_addSchema_of_some hs name).trans hs.symm,
    fun h => ⟨_, h, .refl _ _, fun _ _ => .refl _⟩⟩

theorem agreesOn_recordRenames (schema : SchemaId) {name : String}
    (h : Text.sameName name s.name = false) (renames : List (TypeId × String)) (d : Dictionary) :
    AgreesOn schema s d (recordRenames name renames d) := by
  unfold recordRenames
  induction renames generalizing d with
  | nil => exact .refl _ _ d
  | cons rename renames ih =>
      have hfirst : AgreesOn schema s d (d.modifyType rename.1 (·.addAltName name rename.2)) := by
        refine agreesOn_modifyType schema ?_ (.inl ?_) d
        · intro t
          exact ⟨rfl, rfl, Descriptor.nameIn_addAltName_of_ne (Bool.eq_false_iff.mp h) _ t⟩
        · intro t
          exact ⟨rfl, rfl, rfl⟩
      exact hfirst.trans (ih _)

/-- An operation that spares a schema changes nothing that its text is made of. -/
theorem agreesOn_perform {op : Operation} (hs : d.schema? schema = some s)
    (h : op.Spares schema d) : AgreesOn schema s d (perform op d).2 := by
  cases op with
  | addSchema name => exact agreesOn_addSchema hs name
  | addUnnamed origin? t => exact agreesOn_addUnnamed schema s origin? t d
  | insertType other t =>
      rcases perform_insertType other t d with ⟨err, hop⟩ | ⟨u, -, -, hop⟩
      · rw [hop]
        exact .refl _ _ d
      · rw [hop]
        exact agreesOn_declare s h .types t d
  | insertEntity other t =>
      rcases perform_insertEntity other t d with ⟨err, hop⟩ | ⟨u, -, -, hop⟩
      · rw [hop]
        exact .refl _ _ d
      · rw [hop]
        exact agreesOn_declare s h .entities t d
  | onType id e =>
      obtain ⟨hlinks, hnames⟩ := h
      rw [perform_onType]
      refine agreesOn_modifyType schema (e.namedAlike_change id (hnames s hs)) ?_ d
      rcases hlinks with hlinks | hlisted
      · exact .inl (e.declaredAlike_change id hlinks)
      · refine .inr ?_
        intro l
        rw [← listed_of_some hs]
        exact hlisted l
  | onSchema other e =>
      obtain ⟨f, -, hop⟩ := perform_onSchema other e d
      rw [hop]
      exact agreesOn_modifySchema s h f d
  | registerRenames other =>
      rcases perform_registerRenames other d with ⟨-, hop⟩ | ⟨u, hu, hop⟩
      · rw [hop]
        exact .refl _ _ d
      · rw [hop]
        exact agreesOn_recordRenames schema (h s u hs hu) _ d

/-- A schema that has a text has the same text, with the same numbers of declarations, after any
run of operations that spare it. -/
theorem schemaText_run {out : SchemaText} (h : d.schemaText schema = .ok out)
    (ops : List Operation) (hspares : Along perform (fun op => op.Spares schema) ops d) :
    (run perform ops d).2.schemaText schema = .ok out := by
  obtain ⟨s, hs, -⟩ := Traversal.bind_eq_ok_iff.mp h
  have hs : d.schema? schema = some s := requireSchema_eq_ok_iff.mp hs
  have hagrees : AgreesOn schema s d (run perform ops d).2 := by
    refine run_preserves_along ?_ ops hspares (AgreesOn.refl schema s d)
    intro op d' hop hd'
    exact hd'.trans (agreesOn_perform (hd'.schema?.trans hs) hop)
  exact schemaText_of_agreesOn hagrees hs out h

/-- Another schema, with an entity of its own, that imports the type under a name of its own. -/
def labelImporter : List Operation :=
  [.addSchema "Drawing",
    .insertEntity ⟨1⟩ (.entity "Line" (.ofOptions {})),
    .onType ⟨10⟩ (.addAttribute { name := "caption", domain? := some ⟨8⟩ }),
    .onType ⟨8⟩ (.setReferent (some ⟨0⟩)),
    .onSchema ⟨1⟩ (.addInterface .use
      (Interface.withItem (.renamed "Label" "Caption")
        { current := "Drawing", foreign := "Geometry" })),
    .registerRenames ⟨1⟩]

theorem schemaText_labelImporter :
    ∃ out, (built {} labelledPoint).schemaText ⟨0⟩ = .ok out ∧
      (run perform labelImporter (built {} labelledPoint)).2.schemaText ⟨0⟩ = .ok out := by
  have hother : (⟨1⟩ : SchemaId) ≠ ⟨0⟩ := by decide
  have hlisted : ∀ l, ⟨10⟩ ∉ (run perform (labelImporter.take 2)
      (built {} labelledPoint)).2.listed l ⟨0⟩ := by
    have htypes : (run perform (labelImporter.take 2)
        (built {} labelledPoint)).2.listed .types ⟨0⟩ = [⟨8⟩] := by cbv
    have hentities : (run perform (labelImporter.take 2)
        (built {} labelledPoint)).2.listed .entities ⟨0⟩ = [⟨9⟩] := by cbv
    rintro (_ | _)
    · rw [htypes]
      decide
    · rw [hentities]
      decide
  have hgeometry : ((run perform (labelImporter.take 5)
      (built {} labelledPoint)).2.schema? ⟨0⟩).map Schema.name = some "Geometry" := by cbv
  have hdrawing : ((run perform (labelImporter.take 5)
      (built {} labelledPoint)).2.schema? ⟨1⟩).map Schema.name = some "Drawing" := by cbv
  obtain ⟨out, hout⟩ : ∃ out, (built {} labelledPoint).schemaText ⟨0⟩ = .ok out := ⟨_, by cbv⟩
  refine ⟨out, hout, schemaText_run hout labelImporter ?_⟩
  refine ⟨trivial, hother, ⟨.inr hlisted, fun _ _ => rfl⟩, ⟨.inl rfl, fun _ _ => rfl⟩, hother,
    ?_, trivial⟩
  intro s u hs hu
  have hs : s.name = "Geometry" :=
    Option.some.inj ((congrArg (Option.map Schema.name) hs).symm.trans hgeometry)
  have hu : u.name = "Drawing" :=
    Option.some.inj ((congrArg (Option.map Schema.name) hu).symm.trans hdrawing)
  rw [hs, hu]
  cbv
end Dictionary

end ExpressModel
