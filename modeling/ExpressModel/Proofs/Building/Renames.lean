import Mathlib
import ExpressModel.Proofs.Building.Listing
import ExpressModel.Proofs.Descriptor.AltNames

/-! # Renames

The interfaces of a schema list items under new names.  Registering these renames looks every item
up in the schema it is imported from and records its new name with the descriptor that it denotes
(`kept`, `registerItem`).  Look-ups go by the names that descriptors have of their own, so
recording one rename moves none of the others to another descriptor (`target?_addAltName`), and it
makes no difference whether the items are looked up one by one or all beforehand.

Of the new names that a descriptor is given in this way the last one stays
(`find?_recordRenames`): nothing depends on how many came before it, and so nothing changes when
the renames are registered again (`registersLastRenames`). -/

namespace ExpressModel

open Text (sameName)

/-! ### One table -/

namespace Descriptor

/-- Of two names given for a schema one after the other, the first one is forgotten. -/
theorem recordAltName_recordAltName (schema first last : String) (names : List AltName) :
    recordAltName schema last (recordAltName schema first names) =
      recordAltName schema last names := by
  induction names with
  | nil => simp [recordAltName, Text.sameName_refl]
  | cons alt names ih =>
      by_cases hsame : sameName alt.schema schema = true
      · simp [recordAltName, hsame]
      · simp [recordAltName, hsame, ih]

theorem addAltName_addAltName (schema first last : String) (t : Descriptor) :
    (t.addAltName schema first).addAltName schema last = t.addAltName schema last := by
  unfold addAltName
  rw [recordAltName_recordAltName]

/-- Entries for other schemas stay as they are, in their order. -/
theorem filter_recordAltName (schema name : String) (names : List AltName) :
    (recordAltName schema name names).filter (fun alt => !sameName alt.schema schema) =
      names.filter fun alt => !sameName alt.schema schema := by
  induction names with
  | nil => simp [recordAltName, Text.sameName_refl]
  | cons alt names ih =>
      by_cases hsame : sameName alt.schema schema = true
      · simp [recordAltName, hsame]
      · simp [recordAltName, hsame, ih]

end Descriptor

/-! ### Items -/

/-- An item that is imported under another name. -/
structure RenamedItem where
  /-- The name of the schema it is imported from. -/
  foreign : String
  /-- The name it has there. -/
  name : String
  newName : String

/-- The renamed items that a schema imports: those of its USE interfaces, then those of its
REFERENCE interfaces. -/
def Schema.renamedItems (s : Schema) : List RenamedItem :=
  (s.useInterfaces.values ++ s.referenceInterfaces.values).flatMap fun i =>
    i.items.values.filterMap fun item => item.newName?.map (⟨i.foreign, item.name, ·⟩)

namespace Dictionary

variable {d : Dictionary} {schema : SchemaId} {s : Schema} {id : TypeId} {t : Descriptor}

/-- The schema is the first of the name, letter case ignored. -/
def FirstSchemaNamed (d : Dictionary) (name : String) (schema : SchemaId) : Prop :=
  (∃ s, d.schema? schema = some s ∧ sameName s.name name = true) ∧
    ∀ i < schema.index, ∀ s, d.schema? ⟨i⟩ = some s → sameName s.name name = false

/-- The descriptor that a renamed item denotes. -/
def target? (d : Dictionary) (item : RenamedItem) : Option TypeId :=
  (d.schemaByName? item.foreign).bind fun foreign => d.findType? foreign item.name

/-- The items that denote a descriptor, each as that descriptor with its new name. -/
def kept (d : Dictionary) (items : List RenamedItem) : List (TypeId × String) :=
  items.filterMap fun item => (d.target? item).map (·, item.newName)

/-- The name that renames give a descriptor in the end. -/
def lastRename? (renames : List (TypeId × String)) (id : TypeId) : Option String :=
  renames.reverse.lookup id

theorem lastRename?_concat (renames : List (TypeId × String)) (id other : TypeId)
    (name : String) : lastRename? (renames ++ [(other, name)]) id =
      if other = id then some name else lastRename? renames id := by
  unfold lastRename?
  rw [List.reverse_append, List.reverse_singleton, List.singleton_append, List.lookup_cons]
  by_cases h : other = id
  · rw [if_pos h, h, beq_self_eq_true]
  · rw [if_neg h, beq_eq_false_iff_ne.mpr (Ne.symm h)]

theorem kept_cons (d : Dictionary) (item : RenamedItem) (items : List RenamedItem) :
    d.kept (item :: items) =
      ((d.target? item).map (·, item.newName)).toList ++ d.kept items := by
  unfold kept
  rw [List.filterMap_cons]
  cases d.target? item <;> rfl

theorem kept_append (d : Dictionary) (items items' : List RenamedItem) :
    d.kept (items ++ items') = d.kept items ++ d.kept items' :=
  List.filterMap_append

/-- Looks an item up and records its new name, and counts the names that are recorded. -/
def registerItem (schema : String) (state : Dictionary × Nat) (item : RenamedItem) :
    Dictionary × Nat :=
  match state.1.target? item with
  | none => state
  | some id => (state.1.modifyType id (·.addAltName schema item.newName), state.2 + 1)

/-! ### Look-ups -/

theorem schemaByName?_eq_some_iff {name : String} :
    d.schemaByName? name = some schema ↔ d.FirstSchemaNamed name schema := by
  rcases schema with ⟨n⟩
  unfold schemaByName? FirstSchemaNamed schema?
  simp only [Option.map_eq_some_iff, SchemaId.mk.injEq, exists_eq_right,
    Array.findIdx?_eq_some_iff_getElem]
  constructor
  · rintro ⟨hn, hname, hbefore⟩
    refine ⟨⟨_, Array.getElem?_eq_getElem hn, hname⟩, ?_⟩
    intro i hi s hs
    obtain ⟨_, rfl⟩ := Array.getElem?_eq_some_iff.mp hs
    exact Bool.eq_false_of_not_eq_true (hbefore i hi)
  · rintro ⟨⟨s, hs, hname⟩, hbefore⟩
    obtain ⟨hn, rfl⟩ := Array.getElem?_eq_some_iff.mp hs
    refine ⟨hn, hname, ?_⟩
    intro i hi
    exact Bool.eq_false_iff.mp (hbefore i hi _ (Array.getElem?_eq_getElem (Nat.lt_trans hi hn)))

theorem isNamedBy_of_findType? {name : String} (h : d.findType? schema name = some id) :
    ∃ t, d.find? id = some t ∧ t.isNamed = true ∧ sameName t.name name = true := by
  obtain ⟨s, -, hfind⟩ := Option.bind_eq_some_iff.mp h
  have hown := List.find?_some hfind
  obtain ⟨t, ht, hname⟩ := (Option.any_eq_true _ _).mp hown
  exact ⟨t, ht, (Bool.and_eq_true_iff.mp hname).1, (Bool.and_eq_true_iff.mp hname).2⟩

theorem target?_eq_some_iff {item : RenamedItem} : d.target? item = some id ↔
    ∃ foreign, d.FirstSchemaNamed item.foreign foreign ∧
      d.findType? foreign item.name = some id := by
  unfold target?
  simp only [Option.bind_eq_some_iff, schemaByName?_eq_some_iff]

theorem target?_addAltName (id : TypeId) (schema name : String) (item : RenamedItem) :
    (d.modifyType id (·.addAltName schema name)).target? item = d.target? item := by
  have hnamed : ∀ own, (d.modifyType id (·.addAltName schema name)).isNamedBy own =
      d.isNamedBy own := by
    intro own
    funext other
    unfold isNamedBy
    rw [find?_modifyType]
    split
    · cases d.find? other <;> rfl
    · rfl
  have hfind : ∀ foreign, (d.modifyType id (·.addAltName schema name)).findType? foreign
      item.name = d.findType? foreign item.name := by
    intro foreign
    unfold findType?
    rw [schema?_modifyType, hnamed]
  unfold target?
  simp only [hfind]
  rfl

/-- The renames that the interfaces of a schema ask for are those of the items that are kept. -/
theorem renames_eq_kept (d : Dictionary) (s : Schema) : d.renames s = d.kept s.renamedItems := by
  have hone : ∀ i : Interface, d.interfaceRenames i =
      d.kept (i.items.values.filterMap fun item =>
        item.newName?.map (⟨i.foreign, item.name, ·⟩)) := by
    intro i
    unfold interfaceRenames kept
    rw [List.filterMap_filterMap]
    cases hforeign : d.schemaByName? i.foreign with
    | none =>
        symm
        refine List.filterMap_eq_nil_iff.mpr ?_
        intro item _
        cases item.newName? <;> simp [target?, hforeign]
    | some foreign =>
        refine List.filterMap_congr ?_
        intro item _
        cases item.newName? with
        | none => rfl
        | some newName =>
            simp only [target?, hforeign, Option.map_some, Option.bind_some]
            cases d.findType? foreign item.name <;> rfl
  unfold kept at hone ⊢
  unfold renames Schema.renamedItems
  rw [List.filterMap_flatMap, List.flatMap_append]
  simp only [← hone]
  show List.flatMap _ _ ++ (List.flatMap _ _ ++ []) = _
  rw [List.append_nil]
  rfl

/-! ### Recording -/

theorem recordRenames_concat (schema : String) (renames : List (TypeId × String))
    (rename : TypeId × String) (d : Dictionary) :
    recordRenames schema (renames ++ [rename]) d =
      (recordRenames schema renames d).modifyType rename.1 (·.addAltName schema rename.2) := by
  unfold recordRenames
  rw [List.foldl_append]
  rfl

theorem target?_recordRenames (schema : String) (renames : List (TypeId × String))
    (d : Dictionary) : (recordRenames schema renames d).target? = d.target? := by
  induction renames using List.reverseRecOn with
  | nil => rfl
  | append_singleton renames rename ih =>
      rw [recordRenames_concat, ← ih]
      funext item
      exact target?_addAltName rename.1 schema rename.2 item

/-- Items that are looked up one by one are recorded as if they had all been looked up
beforehand. -/
theorem foldl_registerItem (schema : String) (items : List RenamedItem) (d : Dictionary) :
    items.foldl (registerItem schema) (d, 0) =
      (recordRenames schema (d.kept items) d, (d.kept items).length) := by
  induction items using List.reverseRecOn with
  | nil => rfl
  | append_singleton items item ih =>
      rw [List.foldl_append, ih, List.foldl_cons, List.foldl_nil, kept_append, kept_cons]
      unfold registerItem
      dsimp only
      rw [target?_recordRenames]
      cases d.target? item with
      | none => simp [kept]
      | some id => simp [kept, recordRenames_concat]

/-- A descriptor has been given the last of the names that the renames give it. -/
theorem find?_recordRenames (schema : String) (renames : List (TypeId × String)) (d : Dictionary)
    (id : TypeId) : (recordRenames schema renames d).find? id =
      (d.find? id).map fun t => (lastRename? renames id).elim t (t.addAltName schema ·) := by
  induction renames using List.reverseRecOn with
  | nil => exact Option.map_id'.symm
  | append_singleton renames rename ih =>
      obtain ⟨other, name⟩ := rename
      rw [recordRenames_concat, find?_modifyType, ih, lastRename?_concat]
      by_cases hother : other = id
      · rw [if_pos hother, if_pos hother, Option.map_map]
        refine congrFun (congrArg Option.map (funext fun t => ?_)) _
        cases lastRename? renames id with
        | none => rfl
        | some first => exact Descriptor.addAltName_addAltName schema first name t
      · rw [if_neg hother, if_neg hother]

theorem eq_of_find? {d d' : Dictionary} (hconfig : d.config = d'.config)
    (hschemas : d.schemas = d'.schemas) (hfind : ∀ id, d.find? id = d'.find? id) : d = d' := by
  obtain ⟨config, descriptors, schemas⟩ := d
  obtain ⟨config', descriptors', schemas'⟩ := d'
  have hdescriptors : descriptors = descriptors' := Array.ext_getElem? fun i => hfind ⟨i⟩
  rw [show config = config' from hconfig, show schemas = schemas' from hschemas, hdescriptors]

theorem recordRenames_recordRenames (schema : String) (renames : List (TypeId × String))
    (d : Dictionary) : recordRenames schema renames (recordRenames schema renames d) =
      recordRenames schema renames d := by
  refine eq_of_find? ?_ ?_ ?_
  · exact recordRenames_frame Dictionary.config (fun _ _ _ => rfl) schema renames _
  · exact recordRenames_frame Dictionary.schemas (fun _ _ _ => rfl) schema renames _
  · intro id
    rw [find?_recordRenames, find?_recordRenames, Option.map_map]
    refine congrFun (congrArg Option.map (funext fun t => ?_)) _
    cases lastRename? renames id with
    | none => rfl
    | some last => exact Descriptor.addAltName_addAltName schema last last t

/-! ### The last rename -/

theorem exists_lastRename? {renames : List (TypeId × String)} {name : String}
    (h : (id, name) ∈ renames) :
    ∃ last, lastRename? renames id = some last ∧ (id, last) ∈ renames := by
  unfold lastRename?
  cases hlast : renames.reverse.lookup id with
  | none =>
      have hne := List.lookup_eq_none_iff.mp hlast (id, name) (List.mem_reverse.mpr h)
      simp at hne
  | some last =>
      obtain ⟨before, after, happ, -⟩ := List.lookup_eq_some_iff.mp hlast
      refine ⟨last, rfl, List.mem_reverse.mp ?_⟩
      rw [happ]
      exact List.mem_append_right _ List.mem_cons_self

theorem lastRename?_of_last {renames before after : List (TypeId × String)} {last : String}
    (h : renames = before ++ (id, last) :: after) (hafter : ∀ rename ∈ after, rename.1 ≠ id) :
    lastRename? renames id = some last := by
  refine List.lookup_eq_some_iff.mpr ⟨after.reverse, before.reverse, ?_, ?_⟩
  · simp [h]
  · intro rename hrename
    simpa using Ne.symm (hafter rename (List.mem_reverse.mp hrename))

theorem lastRename?_of_none {renames : List (TypeId × String)}
    (h : ∀ rename ∈ renames, rename.1 ≠ id) : lastRename? renames id = none := by
  refine List.lookup_eq_none_iff.mpr ?_
  intro rename hrename
  simpa using Ne.symm (h rename (List.mem_reverse.mp hrename))

/-- One dictionary is the other after the renames have been given in a schema of the name. -/
structure RenamedAs (d d' : Dictionary) (schema : String) (renames : List (TypeId × String)) :
    Prop where
  /-- A descriptor goes by the last of its new names in the schema, however that is spelled; its
  names in other schemas are the same, and so is all else about it. -/
  targeted : ∀ {before after id last}, renames = before ++ (id, last) :: after →
    (∀ rename ∈ after, rename.1 ≠ id) → ∃ t u, d.find? id = some t ∧ d'.find? id = some u ∧
      (∀ spelling, sameName spelling schema = true →
        (Descriptor.altNameFor? spelling u.altNames).map AltName.name = some last) ∧
      u.altNames.filter (fun alt => !sameName alt.schema schema) =
        t.altNames.filter (fun alt => !sameName alt.schema schema) ∧
      u = { t with altNames := u.altNames }
  /-- A descriptor without a new name is the same. -/
  untargeted : ∀ {id}, (∀ rename ∈ renames, rename.1 ≠ id) → d'.find? id = d.find? id
  /-- Nothing else has changed. -/
  typeCount : d'.typeCount = d.typeCount
  schemas : d'.schemas = d.schemas
  config : d'.config = d.config

theorem isSome_find?_of_mem_kept {items : List RenamedItem} {rename : TypeId × String}
    (h : rename ∈ d.kept items) : (d.find? rename.1).isSome := by
  obtain ⟨item, -, hitem⟩ := List.mem_filterMap.mp h
  obtain ⟨id, hid, rfl⟩ := Option.map_eq_some_iff.mp hitem
  obtain ⟨foreign, -, hfound⟩ := Option.bind_eq_some_iff.mp hid
  obtain ⟨t, ht, -⟩ := isNamedBy_of_findType? hfound
  rw [ht]
  rfl

theorem renamedAs_recordRenames (schema : String) {renames : List (TypeId × String)}
    (h : ∀ rename ∈ renames, (d.find? rename.1).isSome) :
    d.RenamedAs (recordRenames schema renames d) schema renames where
  targeted {before after id last} hrenames hafter := by
    have hmem : (id, last) ∈ renames := by
      rw [hrenames]
      exact List.mem_append_right _ List.mem_cons_self
    obtain ⟨t, ht⟩ := Option.isSome_iff_exists.mp (h _ hmem)
    refine ⟨t, t.addAltName schema last, ht, ?_, ?_, ?_, rfl⟩
    · rw [find?_recordRenames, ht, lastRename?_of_last hrenames hafter]
      rfl
    · intro spelling hspelling
      rw [Descriptor.altNameFor?_congr hspelling]
      exact Descriptor.altNameFor?_recordAltName schema last t.altNames
    · exact Descriptor.filter_recordAltName schema last t.altNames
  untargeted hnone := by
    rw [find?_recordRenames, lastRename?_of_none hnone]
    exact Option.map_id'
  typeCount := recordRenames_frame typeCount typeCount_modifyType schema renames d
  schemas := recordRenames_frame Dictionary.schemas (fun _ _ _ => rfl) schema renames d
  config := recordRenames_frame Dictionary.config (fun _ _ _ => rfl) schema renames d

/-- What registering the renames of a schema does. -/
structure RegistersLastRenames (d : Dictionary) (schema : SchemaId) (s : Schema) : Prop where
  /-- An item is kept when there is a schema of the name that it is imported from, and the first of
  them declares its name. -/
  target : ∀ item id, d.target? item = some id ↔ ∃ foreign,
    d.FirstSchemaNamed item.foreign foreign ∧ d.findType? foreign item.name = some id
  /-- The answer is the number of items that are kept, and the last of the names that they give a
  descriptor stays; it is all the same to look the items up one by one, and to register them
  twice. -/
  registered : ∃ d', registerRenames schema d = .ok (d.kept s.renamedItems).length d' ∧
    d.RenamedAs d' s.name (d.kept s.renamedItems) ∧
    s.renamedItems.foldl (registerItem s.name) (d, 0) = (d', (d.kept s.renamedItems).length) ∧
    registerRenames schema d' = .ok (d.kept s.renamedItems).length d'

/-- Registering renames records the last one for each descriptor. -/
theorem registersLastRenames (hs : d.schema? schema = some s) :
    d.RegistersLastRenames schema s where
  target _ _ := target?_eq_some_iff
  registered := by
    refine ⟨recordRenames s.name (d.kept s.renamedItems) d, ?_, ?_, ?_, ?_⟩
    · rw [registerRenames_eq, hs, ← renames_eq_kept]
    · exact renamedAs_recordRenames s.name fun _ => isSome_find?_of_mem_kept
    · exact foldl_registerItem s.name s.renamedItems d
    · have hkept : (recordRenames s.name (d.kept s.renamedItems) d).kept s.renamedItems =
          d.kept s.renamedItems := by
        unfold kept
        rw [target?_recordRenames]
      rw [registerRenames_eq, schema?_recordRenames, hs]
      dsimp only
      rw [renames_eq_kept, hkept, recordRenames_recordRenames]

/-- An interface that imports one item under another name. -/
def importOf (foreign name newName : String) : Interface where
  current := "Drawing"
  foreign := foreign
  items := OwnedRegistry.empty.appendAll [.renamed name newName]

/-- A schema that imports a shape under two names and a circle of its own under a third, besides
a cube that is not there. -/
def imports : Dictionary where
  config := {}
  descriptors := #[.entity "Shape" (.ofOptions {}), .entity "Circle" (.ofOptions {})]
  schemas := #[
    { Schema.new "Support" {} with entities := Registry.empty.append ⟨⟨0⟩⟩ },
    { Schema.new "Drawing" {} with
      entities := Registry.empty.append ⟨⟨1⟩⟩
      useInterfaces := OwnedRegistry.empty.appendAll
        [importOf "Support" "Cube" "Box", importOf "Support" "shape" "Figure",
          importOf "drawing" "Circle" "Ring"]
      referenceInterfaces :=
        OwnedRegistry.empty.appendAll [importOf "SUPPORT" "Shape" "Form"] }]

theorem registersLastRenames_imports : ∃ s, imports.schema? ⟨1⟩ = some s ∧
    imports.RegistersLastRenames ⟨1⟩ s ∧
    imports.kept s.renamedItems = [(⟨0⟩, "Figure"), (⟨1⟩, "Ring"), (⟨0⟩, "Form")] := by
  have hs : imports.schema? ⟨1⟩ = some imports.schemas[1] := rfl
  have hitems : imports.schemas[1].renamedItems =
      [⟨"Support", "Cube", "Box"⟩, ⟨"Support", "shape", "Figure"⟩, ⟨"drawing", "Circle", "Ring"⟩,
        ⟨"SUPPORT", "Shape", "Form"⟩] := by cbv
  have hcube : imports.target? ⟨"Support", "Cube", "Box"⟩ = none := by cbv
  have hshape : imports.target? ⟨"Support", "shape", "Figure"⟩ = some ⟨0⟩ := by cbv
  have hcircle : imports.target? ⟨"drawing", "Circle", "Ring"⟩ = some ⟨1⟩ := by cbv
  have hagain : imports.target? ⟨"SUPPORT", "Shape", "Form"⟩ = some ⟨0⟩ := by cbv
  refine ⟨_, hs, registersLastRenames hs, ?_⟩
  rw [hitems, kept_cons, kept_cons, kept_cons, kept_cons, hcube, hshape, hcircle, hagain]
  rfl

end Dictionary

end ExpressModel
