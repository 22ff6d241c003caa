import Mathlib
import ExpressModel.Proofs.Building.Layout
import ExpressModel.Proofs.Declaration.Contents
import ExpressModel.Proofs.Declaration.Naming

/-! # Attributes in their sections

An attribute that is added to an entity goes to one of two lists, and from there to one of three
sections: the explicit attributes follow the header, derived and inverse ones follow a heading of
their own.  `EntityBody.Lists` says that a body has attributes in the sections of their roles, each
section in the order in which they were added.  Adding an attribute keeps this up
(`Lists.addAttribute`), all other operations leave the sections alone, and so a run of operations
lists the attributes that it adds (`stores_run`).

The declaration then defines each of them once, in its section (`attributes_printed`).  In which
order attributes of different roles were added makes no difference to it. -/

namespace ExpressModel

/-! ### Roles -/

namespace Attribute

/-- Is the attribute neither derived nor an inverse? -/
def isExplicit (a : Attribute) : Bool :=
  match a.role with
  | .explicit => true
  | _ => false

def ownedBy (e : EntityId) (a : Attribute) : Attribute :=
  { a with owner? := some e }

theorem length_roles (as : List Attribute) :
    (as.filter (·.isExplicit)).length + (as.filter (·.isDerived)).length +
      (as.filter (·.isInverse)).length = as.length := by
  induction as with
  | nil => rfl
  | cons a as ih =>
      rw [List.filter_cons, List.filter_cons, List.filter_cons, List.length_cons, ← ih]
      unfold isExplicit isDerived isInverse
      cases a.role with
      | explicit | derived _ | inverse _ =>
          simp only [if_true, Bool.false_eq_true, if_false, List.length_cons]
          omega

end Attribute

/-! ### Sections of a body -/

namespace EntityBody

variable {b : EntityBody} {as : List Attribute}

/-- The contents with attributes more, each at the end of its section. -/
def Contents.addAttributes (as : List Attribute) (c : Contents) : Contents :=
  { c with
    explicit := c.explicit ++ as.filter (·.isExplicit)
    derived := c.derived ++ as.filter (·.isDerived)
    inverse := c.inverse ++ as.filter (·.isInverse) }

theorem Contents.addAttributes_nil (c : Contents) : c.addAttributes [] = c := by
  simp [addAttributes]

theorem Contents.addAttributes_append (as later : List Attribute) (c : Contents) :
    c.addAttributes (as ++ later) = (c.addAttributes as).addAttributes later := by
  simp [addAttributes]

/-- An attribute enters the section of its role and no other. -/
theorem contents_addAttribute (a : Attribute) (b : EntityBody) :
    (b.addAttribute a).2.contents = b.contents.addAttributes [a] := by
  rcases a with ⟨name, role, domain?, optional, owner?⟩
  cases role <;>
    simp [addAttribute, contents, Contents.addAttributes, Attribute.isExplicit,
      Attribute.isDerived, Attribute.isInverse]

theorem value_addAttribute (a : Attribute) (b : EntityBody) :
    ∃ n, (b.addAttribute a).1 = ⟨n, a⟩ := by
  unfold addAttribute
  cases a.isInverse with
  | true => exact ⟨_, rfl⟩
  | false => exact ⟨_, rfl⟩

/-- The body lists attributes, those of a section in the order given. -/
structure Lists (as : List Attribute) (b : EntityBody) : Prop where
  explicit : b.contents.explicit = as.filter (·.isExplicit)
  derived : b.contents.derived = as.filter (·.isDerived)
  inverse : b.contents.inverse = as.filter (·.isInverse)

theorem Lists.addAttribute (h : b.Lists as) (a : Attribute) :
    (b.addAttribute a).2.Lists (as ++ [a]) := by
  refine ⟨?_, ?_, ?_⟩
  · rw [contents_addAttribute, List.filter_append, ← h.explicit]
    rfl
  · rw [contents_addAttribute, List.filter_append, ← h.derived]
    rfl
  · rw [contents_addAttribute, List.filter_append, ← h.inverse]
    rfl

theorem Lists.of_values {b' : EntityBody} (h : b.Lists as)
    (hexplicit : b'.explicitAttrs.values = b.explicitAttrs.values)
    (hinverse : b'.inverseAttrs.values = b.inverseAttrs.values) : b'.Lists as := by
  refine ⟨?_, ?_, hinverse.trans h.inverse⟩
  · rw [← h.explicit]
    exact congrArg (List.filter (!·.isDerived)) hexplicit
  · rw [← h.derived]
    exact congrArg (List.filter (·.isDerived)) hexplicit

/-- A body has no other attributes than those that it lists. -/
theorem Lists.mem (h : b.Lists as) {a : Attribute}
    (ha : a ∈ b.explicitAttrs.values ∨ a ∈ b.inverseAttrs.values) : a ∈ as := by
  rcases ha with ha | ha
  · cases hderived : a.isDerived with
    | true =>
        have hmem : a ∈ b.contents.derived := List.mem_filter.mpr ⟨ha, hderived⟩
        rw [h.derived] at hmem
        exact (List.mem_filter.mp hmem).1
    | false =>
        have hmem : a ∈ b.contents.explicit := List.mem_filter.mpr ⟨ha, by rw [hderived]; rfl⟩
        rw [h.explicit] at hmem
        exact (List.mem_filter.mp hmem).1
  · have hmem : a ∈ b.contents.inverse := ha
    rw [h.inverse] at hmem
    exact (List.mem_filter.mp hmem).1

end EntityBody

/-! ### Additions -/

namespace Dictionary

variable {d : Dictionary} {e : EntityId} {as : List Attribute}

/-- The attribute that an operation adds to an entity, which owns it. -/
def TypeEdit.added? (id : TypeId) : TypeEdit → Option Attribute
  | .addAttribute a => some (a.ownedBy ⟨id⟩)
  | _ => none

/-- The attribute that an operation adds to the entity, which owns it. -/
def Operation.added? (e : EntityId) : Operation → Option Attribute
  | .onType id x => if id = e.toType then x.added? id else none
  | _ => none

theorem Operation.added?_eq_some_iff {op : Operation} {a : Attribute} :
    op.added? e = some a ↔ ∃ a', op = .onType e.toType (.addAttribute a') ∧
      a'.ownedBy e = a := by
  constructor
  · intro h
    unfold added? at h
    split at h
    · split at h
      · next id x hid =>
        subst hid
        cases x <;> cases h
        exact ⟨_, rfl, rfl⟩
      · cases h
    · cases h
  · rintro ⟨a', rfl, rfl⟩
    exact if_pos rfl

/-- The attributes that operations add to an entity, in order. -/
def addedAttributes (e : EntityId) (ops : List Operation) : List Attribute :=
  ops.filterMap (Operation.added? e)

theorem owner?_of_mem_addedAttributes {ops : List Operation} {a : Attribute}
    (h : a ∈ addedAttributes e ops) : a.owner? = some e := by
  obtain ⟨op, -, hop⟩ := List.mem_filterMap.mp h
  obtain ⟨a', -, rfl⟩ := Operation.added?_eq_some_iff.mp hop
  rfl

/-- The operation makes no other edit of the entity's body, which might touch the attributes. -/
def Operation.LeavesBody (e : EntityId) : Operation → Prop
  | .onType id (.editEntity _) => id ≠ e.toType
  | _ => True

/-- The entity is there and lists the attributes. -/
def Stores (e : EntityId) (as : List Attribute) (d : Dictionary) : Prop :=
  ∃ t b, d.find? e.toType = some t ∧ t.entity? = some b ∧ b.Lists as

end Dictionary

namespace Descriptor

theorem entity?_modifyEntity (f : EntityBody → EntityBody) (t : Descriptor) :
    (t.modifyEntity f).entity? = t.entity?.map f := by
  rcases t with ⟨name, description, origin?, referent?, altNames, whereRules, body⟩
  cases body <;> rfl

theorem entity?_modifyChoices (f : Registry TypeId → Registry TypeId) (t : Descriptor) :
    (t.modifyChoices f).entity? = t.entity? := by
  rcases t with ⟨name, description, origin?, referent?, altNames, whereRules, body⟩
  cases body <;> rfl

theorem entity?_applyOptions (options : RegistryOptions) (t : Descriptor) :
    (t.applyOptions options).entity? = t.entity?.map (·.applyOptions options) := by
  rcases t with ⟨name, description, origin?, referent?, altNames, whereRules, body⟩
  cases body <;> rfl

end Descriptor

namespace Dictionary

variable {d : Dictionary} {e : EntityId} {as : List Attribute}

/-- An operation on an entity lists the attribute that it adds. -/
theorem TypeEdit.lists_change {t : Descriptor} {b : EntityBody} (x : TypeEdit) (id : TypeId)
    (hx : ∀ body, x ≠ .editEntity body) (ht : t.entity? = some b) (hb : b.Lists as) :
    ∃ b', (x.change id t).entity? = some b' ∧ b'.Lists (as ++ (x.added? id).toList) := by
  have hnone : b.Lists (as ++ []) := by rwa [List.append_nil]
  cases x with
  | addAttribute a =>
      refine ⟨_, ?_, hb.addAttribute (a.ownedBy ⟨id⟩)⟩
      exact (Descriptor.entity?_modifyEntity _ t).trans (congrArg _ ht)
  | editEntity body => exact absurd rfl (hx body)
  | addSupertype _ | addUniqueness _ =>
      refine ⟨_, (Descriptor.entity?_modifyEntity _ t).trans (congrArg _ ht), ?_⟩
      exact hnone.of_values rfl rfl
  | applyOptions options =>
      refine ⟨_, (Descriptor.entity?_applyOptions options t).trans (congrArg _ ht), ?_⟩
      exact hnone.of_values (OwnedRegistry.values_applyOptions options _)
        (OwnedRegistry.values_applyOptions options _)
  | addChoice _ | editChoices _ =>
      exact ⟨b, (Descriptor.entity?_modifyChoices _ t).trans ht, hnone⟩
  | setReferent _ | addWhereRule _ | addAltName _ _ | editWhereRules _ => exact ⟨b, ht, hnone⟩

theorem Stores.of_find? {d' : Dictionary} (h : d.Stores e as)
    (hfind : ∀ t, d.find? e.toType = some t → ∃ u, d'.find? e.toType = some u ∧
      u.entity? = t.entity?) : d'.Stores e as := by
  obtain ⟨t, b, ht, hb, hlists⟩ := h
  obtain ⟨u, hu, hsame⟩ := hfind t ht
  exact ⟨u, b, hu, hsame.trans hb, hlists⟩

theorem Stores.modifySchema (h : d.Stores e as) (schema : SchemaId) (f : Schema → Schema) :
    (d.modifySchema schema f).Stores e as :=
  h

theorem Stores.addUnnamed (h : d.Stores e as) (origin? : Option SchemaId) (t : Descriptor) :
    (addUnnamed origin? t d).2.Stores e as :=
  h.of_find? fun u hu => ⟨u, find?_addUnnamed_of_some hu origin? t, rfl⟩

theorem Stores.recordRenames (h : d.Stores e as) (schema : String)
    (renames : List (TypeId × String)) : (recordRenames schema renames d).Stores e as := by
  refine h.of_find? fun t ht => ⟨_, by rw [find?_recordRenames, ht]; rfl, ?_⟩
  cases lastRename? renames e.toType <;> rfl

/-- An operation lists the attribute that it adds to the entity. -/
theorem Stores.perform {op : Operation} (hop : op.LeavesBody e) (h : d.Stores e as) :
    (perform op d).2.Stores e (as ++ (op.added? e).toList) := by
  have hnone : d.Stores e (as ++ []) := by rwa [List.append_nil]
  cases op with
  | addSchema name => exact hnone
  | addUnnamed origin? t => exact hnone.addUnnamed origin? t
  | insertType schema t =>
      rcases perform_insertType schema t d with ⟨err, hperform⟩ | ⟨s, -, -, hperform⟩
      · rw [hperform]
        exact hnone
      · rw [hperform]
        exact (hnone.addUnnamed (some schema) t).modifySchema schema _
  | insertEntity schema t =>
      rcases perform_insertEntity schema t d with ⟨err, hperform⟩ | ⟨s, -, -, hperform⟩
      · rw [hperform]
        exact hnone
      · rw [hperform]
        exact (hnone.addUnnamed (some schema) t).modifySchema schema _
  | onSchema schema x =>
      obtain ⟨f, -, hperform⟩ := perform_onSchema schema x d
      rw [hperform]
      exact hnone.modifySchema schema f
  | registerRenames schema =>
      rcases perform_registerRenames schema d with ⟨-, hperform⟩ | ⟨s, -, hperform⟩
      · rw [hperform]
        exact hnone
      · rw [hperform]
        exact hnone.recordRenames s.name _
  | onType id x =>
      rw [perform_onType]
      by_cases hid : id = e.toType
      · obtain ⟨t, b, ht, hb, hlists⟩ := h
        have hx : ∀ body, x ≠ .editEntity body := by
          rintro body rfl
          exact hop hid
        obtain ⟨b', hb', hlists'⟩ := x.lists_change id hx hb hlists
        rw [show (Operation.onType id x).added? e = x.added? id from if_pos hid]
        exact ⟨_, b', by rw [find?_modifyType, if_pos hid, ht]; rfl, hb', hlists'⟩
      · rw [show (Operation.onType id x).added? e = none from if_neg hid]
        exact hnone.of_find? fun t ht => ⟨t, by rw [find?_modifyType, if_neg hid, ht], rfl⟩

/-- A run of operations lists the attributes that they add to the entity, in order. -/
theorem stores_run (ops : List Operation) (hops : ∀ op ∈ ops, op.LeavesBody e)
    (h : d.Stores e as) : (run perform ops d).2.Stores e (as ++ addedAttributes e ops) := by
  induction ops generalizing d as with
  | nil =>
      show d.Stores e (as ++ [])
      rwa [List.append_nil]
  | cons op ops ih =>
      have hrest := ih (fun op' hop' => hops op' (List.mem_cons_of_mem op hop'))
        (h.perform (hops op List.mem_cons_self))
      have hadded : addedAttributes e (op :: ops) =
          (op.added? e).toList ++ addedAttributes e ops := by
        unfold addedAttributes
        rw [List.filterMap_cons]
        cases op.added? e <;> rfl
      rw [run_cons_state, hadded, ← List.append_assoc]
      exact hrest

/-- Adding an attribute to an entity answers the element that it became, owned by the entity. -/
theorem perform_addAttribute (h : d.Stores e as) (a : Attribute) :
    ∃ n, (perform (.onType e.toType (.addAttribute a)) d).1 =
      .ok (.attribute ⟨n, a.ownedBy e⟩) := by
  obtain ⟨t, b, ht, hb, -⟩ := h
  obtain ⟨n, hn⟩ := b.value_addAttribute (a.ownedBy e)
  have hrequire : t.requireEntity = .ok b := by
    unfold Descriptor.requireEntity
    rw [hb]
    rfl
  have houtcome : ((addAttribute e a).outcome d).1 =
      .ok (b.addAttribute (a.ownedBy e)).1 := by
    unfold addAttribute editEntity editType
    rw [Edit.outcome_focus, require_eq_ok_iff.mpr ht]
    dsimp only
    rw [Edit.outcome_focus, hrequire]
    rfl
  refine ⟨n, ?_⟩
  show ((Reply.attribute <$> addAttribute e a).outcome d).1 = _
  rw [Edit.outcome_map, houtcome, hn]
  rfl

/-- In a run every attribute that is added becomes an element, owned by the entity. -/
theorem replies_run (ops : List Operation) (hops : ∀ op ∈ ops, op.LeavesBody e)
    (h : d.Stores e as) :
    List.Forall₂ (fun op reply => ∀ a, Operation.added? e op = some a →
      ∃ n, reply = .ok (.attribute ⟨n, a⟩)) ops (run perform ops d).1 := by
  induction ops generalizing d as with
  | nil => exact .nil
  | cons op ops ih =>
      refine .cons ?_ (ih (fun op' hop' => hops op' (List.mem_cons_of_mem op hop'))
        (h.perform (hops op List.mem_cons_self)))
      intro a ha
      obtain ⟨a', rfl, rfl⟩ := Operation.added?_eq_some_iff.mp ha
      exact perform_addAttribute h a'

end Dictionary

/-! ### Sections of a declaration -/

namespace Declaration

/-- The definitions of a section, a line each. -/
def definitionLines (lines : List String) : String :=
  String.join (lines.map fun line => "    " ++ line ++ ";\n")

/-- A section under a heading, left out when it has no definitions. -/
def headedLines (heading : String) (lines : List String) : String :=
  if lines.isEmpty then "" else heading ++ definitionLines lines

/-- The definitions of attributes, one for each, in order. -/
def Defines (d : Dictionary) (schema? : Option String) (as : List Attribute)
    (lines : List String) : Prop :=
  List.Forall₂ (fun a line => attributeText d schema? a = .ok line) as lines

variable {d : Dictionary} {schema? : Option String} {as : List Attribute} {lines : List String}

/-- An attribute has a definition when its domain is there, if it has one. -/
theorem exists_attributeText (schema? : Option String) {a : Attribute}
    (h : ∀ id, a.domain? = some id → (d.find? id).isSome) :
    ∃ line, attributeText d schema? a = .ok line := by
  obtain ⟨domain, hdomain⟩ : ∃ domain, a.domainText d schema? = .ok domain := by
    unfold Attribute.domainText
    cases hdom : a.domain? with
    | none => exact ⟨"", rfl⟩
    | some id =>
        obtain ⟨t, ht⟩ := Option.isSome_iff_exists.mp (h id hdom)
        exact ⟨_, congrArg (Except.map _) (Dictionary.require_eq_ok_iff.mpr ht)⟩
  unfold attributeText
  rw [hdomain]
  exact ⟨_, rfl⟩

theorem exists_defines (schema? : Option String)
    (h : ∀ a ∈ as, ∀ id, a.domain? = some id → (d.find? id).isSome) :
    ∃ lines, Defines d schema? as lines := by
  obtain ⟨lines, hlines⟩ := Traversal.exists_mapM_eq_ok_iff.mpr fun a ha =>
    exists_attributeText schema? (h a ha)
  exact ⟨lines, Traversal.mapM_eq_ok_iff.mp hlines⟩

theorem Defines.unique {lines' : List String} (h : Defines d schema? as lines)
    (h' : as.mapM (attributeText d schema?) = .ok lines') : lines = lines' :=
  Except.ok.inj ((Traversal.mapM_eq_ok_iff.mpr h).symm.trans h')

theorem Defines.attributeLines (h : Defines d schema? as lines) :
    attributeLines d schema? as = .ok (definitionLines lines) := by
  unfold Declaration.attributeLines
  rw [Traversal.mapM_eq_ok_iff.mpr h]
  rfl

theorem Defines.attributeSection (h : Defines d schema? as lines) (heading : String) :
    attributeSection d schema? heading as = .ok (headedLines heading lines) := by
  cases h with
  | nil => rfl
  | cons hline hlines =>
      unfold Declaration.attributeSection
      rw [Defines.attributeLines (.cons hline hlines)]
      rfl

/-- The definitions of the attributes of an entity, section by section. -/
structure Sections where
  explicit : List String
  derived : List String
  inverse : List String

namespace Sections

/-- The sections as a declaration has them between its header and its rules. -/
def text (s : Sections) : String :=
  definitionLines s.explicit ++ headedLines "  DERIVE\n" s.derived ++
    headedLines "  INVERSE\n" s.inverse

def count (s : Sections) : Nat :=
  s.explicit.length + s.derived.length + s.inverse.length

/-- The sections define attributes, those of a section in the order given. -/
structure Define (d : Dictionary) (schema? : Option String) (as : List Attribute)
    (s : Sections) : Prop where
  explicit : Defines d schema? (as.filter (·.isExplicit)) s.explicit
  derived : Defines d schema? (as.filter (·.isDerived)) s.derived
  inverse : Defines d schema? (as.filter (·.isInverse)) s.inverse

theorem Define.count {s : Sections} (h : s.Define d schema? as) : s.count = as.length := by
  unfold Sections.count
  rw [← h.explicit.length_eq, ← h.derived.length_eq, ← h.inverse.length_eq,
    Attribute.length_roles]

end Sections

theorem exists_define (schema? : Option String)
    (h : ∀ a ∈ as, ∀ id, a.domain? = some id → (d.find? id).isSome) :
    ∃ s : Sections, s.Define d schema? as := by
  have hsection : ∀ p : Attribute → Bool, ∃ lines, Defines d schema? (as.filter p) lines :=
    fun p => exists_defines schema? fun a ha => h a (List.mem_filter.mp ha).1
  obtain ⟨explicit, hexplicit⟩ := hsection (·.isExplicit)
  obtain ⟨derived, hderived⟩ := hsection (·.isDerived)
  obtain ⟨inverse, hinverse⟩ := hsection (·.isInverse)
  exact ⟨⟨explicit, derived, inverse⟩, hexplicit, hderived, hinverse⟩

/-- The sections of an entity define what its body lists. -/
theorem attributeSections_of_lists {b : EntityBody} {s : Sections} (hb : b.Lists as)
    (h : s.Define d schema? as) : attributeSections d schema? b = .ok s.text := by
  have hexplicit : Declaration.attributeLines d schema? b.contents.explicit = _ :=
    hb.explicit ▸ h.explicit.attributeLines
  have hderived : Declaration.attributeSection d schema? "  DERIVE\n" b.contents.derived = _ :=
    hb.derived ▸ h.derived.attributeSection "  DERIVE\n"
  have hinverse : Declaration.attributeSection d schema? "  INVERSE\n" b.contents.inverse = _ :=
    hb.inverse ▸ h.inverse.attributeSection "  INVERSE\n"
  unfold attributeSections
  show (Declaration.attributeLines d schema? b.contents.explicit >>= fun _ =>
    Declaration.attributeSection d schema? _ b.contents.derived >>= fun _ =>
      Declaration.attributeSection d schema? _ b.contents.inverse >>= fun _ => _) = _
  rw [hexplicit, hderived, hinverse]
  rfl

end Declaration

/-! ### Orders of addition -/

namespace Dictionary

open Declaration

variable {d d' : Dictionary} {e : EntityId} {as as' : List Attribute}

/-- The operations that add attributes to an entity. -/
def additions (e : EntityId) (as : List Attribute) : List Operation :=
  as.map fun a => .onType e.toType (.addAttribute a)

/-- The contents of a dictionary with attributes more in an entity. -/
def Contents.addAttributes (e : EntityId) (as : List Attribute) (c : Contents) : Contents :=
  { c with
    types := c.types.modify e.toType.index fun t =>
      { t with entity? := t.entity?.map (·.addAttributes as) } }

theorem Contents.addAttributes_nil (c : Contents) : c.addAttributes e [] = c := by
  unfold addAttributes
  simp only [EntityBody.Contents.addAttributes_nil, Option.map_id']
  exact congrArg (fun types => { c with types }) (List.modify_id _ c.types)

theorem Contents.addAttributes_append (as later : List Attribute) (c : Contents) :
    c.addAttributes e (as ++ later) = (c.addAttributes e as).addAttributes e later := by
  unfold addAttributes
  simp only [List.modify_modify_eq, Function.comp_def, Option.map_map,
    EntityBody.Contents.addAttributes_append]

theorem contents_modifyType {f : Descriptor → Descriptor}
    {g : Descriptor.Contents → Descriptor.Contents} (hfg : ∀ t, (f t).contents = g t.contents)
    (id : TypeId) (d : Dictionary) : (d.modifyType id f).contents =
      { d.contents with types := d.contents.types.modify id.index g } := by
  have htypes : (d.descriptors.modify id.index f).toList.map Descriptor.contents =
      (d.descriptors.toList.map Descriptor.contents).modify id.index g := by
    apply List.ext_getElem?
    intro i
    rw [List.getElem?_modify, List.getElem?_map, List.getElem?_map, Array.getElem?_toList,
      Array.getElem?_toList, Array.getElem?_modify]
    split
    · cases d.descriptors[i]? with
      | none => rfl
      | some t => exact congrArg some (hfg t)
    · cases d.descriptors[i]? <;> rfl
  unfold contents modifyType
  rw [htypes]

theorem contents_perform_addAttribute (a : Attribute) (d : Dictionary) :
    (perform (.onType e.toType (.addAttribute a)) d).2.contents =
      d.contents.addAttributes e [a.ownedBy e] := by
  rw [perform_onType]
  refine contents_modifyType ?_ e.toType d
  rintro ⟨name, description, origin?, referent?, altNames, whereRules, body⟩
  cases body with
  | entity body =>
      exact congrArg (fun c => (⟨name, description, origin?, altNames, false, whereRules.values,
        some c⟩ : Descriptor.Contents)) (body.contents_addAttribute _)
  | _ => rfl

theorem contents_run_additions (as : List Attribute) (d : Dictionary) :
    (run perform (additions e as) d).2.contents =
      d.contents.addAttributes e (as.map (·.ownedBy e)) := by
  induction as generalizing d with
  | nil => exact (Contents.addAttributes_nil _).symm
  | cons a as ih =>
      have hcons : (run perform (additions e (a :: as)) d).2 = (run perform (additions e as)
          (perform (.onType e.toType (.addAttribute a)) d).2).2 := rfl
      rw [hcons, ih, contents_perform_addAttribute, ← Contents.addAttributes_append]
      rfl

/-- Attributes of different roles may be added in any order. -/
theorem entityText_additions (hexplicit : as.filter (·.isExplicit) = as'.filter (·.isExplicit))
    (hderived : as.filter (·.isDerived) = as'.filter (·.isDerived))
    (hinverse : as.filter (·.isInverse) = as'.filter (·.isInverse)) (d : Dictionary) :
    (run perform (additions e as) d).2.entityText e =
      (run perform (additions e as') d).2.entityText e := by
  refine entityText_of_contents ?_ e
  have hsame : ∀ c : EntityBody.Contents,
      c.addAttributes (as.map (·.ownedBy e)) = c.addAttributes (as'.map (·.ownedBy e)) := by
    intro c
    unfold EntityBody.Contents.addAttributes
    simp only [List.filter_map]
    rw [show (fun a => a.isExplicit) ∘ (·.ownedBy e) = Attribute.isExplicit from rfl,
      show (fun a => a.isDerived) ∘ (·.ownedBy e) = Attribute.isDerived from rfl,
      show (fun a => a.isInverse) ∘ (·.ownedBy e) = Attribute.isInverse from rfl,
      hexplicit, hderived, hinverse]
  rw [contents_run_additions, contents_run_additions]
  unfold Contents.addAttributes
  simp only [hsame]

/-! ### Declarations of entities -/

theorem entityText_of_entity? {t : Descriptor} {b : EntityBody} (ht : d.find? e.toType = some t)
    (hb : t.entity? = some b) : d.entityText e =
      Declaration.entityText d ((t.origin?.bind d.schema?).map Schema.name) t := by
  have hentity : t.isEntity = true := by
    unfold Descriptor.isEntity
    rw [hb]
    rfl
  unfold entityText
  rw [requireEntity_eq_ok_iff.mpr ⟨ht, hentity⟩]
  rfl

theorem exists_supertypes {es : List EntityId} (h : ∀ s ∈ es, (d.find? s.toType).isSome) :
    ∃ us, List.Forall₂ (fun s u => d.find? s.toType = some u) es us := by
  have hrequire : ∀ s ∈ es, ∃ u, d.require s.toType = .ok u := fun s hs =>
    (Option.isSome_iff_exists.mp (h s hs)).imp fun _ => require_eq_ok_iff.mpr
  obtain ⟨us, hus⟩ := Traversal.exists_mapM_eq_ok_iff.mpr hrequire
  rw [Traversal.mapM_eq_ok_iff] at hus
  exact ⟨us, hus.imp fun _ _ => require_eq_ok_iff.mp⟩

/-- Of an entity that had none, every attribute that is added becomes an element, owned by the
entity, and its declaration defines each once: between header and rules stand the explicit ones in
the order in which they were added, then the derived and then the inverse ones, each under a heading
if there are any.  The order among attributes of different roles makes no difference. -/
theorem attributes_printed {ops : List Operation} {replies : List (Except Error Reply)}
    (h : d.Stores e []) (hops : ∀ op ∈ ops, op.LeavesBody e)
    (hrun : run perform ops d = (replies, d')) :
    List.Forall₂ (fun op reply => ∀ a, Operation.added? e op = some a →
        ∃ n, reply = .ok (.attribute ⟨n, a⟩)) ops replies ∧
      (∃ t' b', d'.find? e.toType = some t' ∧ t'.entity? = some b' ∧
        b'.Lists (addedAttributes e ops) ∧
        (∀ a, a ∈ b'.explicitAttrs.values ∨ a ∈ b'.inverseAttrs.values → a.owner? = some e) ∧
        ((∀ s ∈ b'.supertypes.live, (d'.find? s.toType).isSome) →
          (∀ a ∈ addedAttributes e ops, ∀ id, a.domain? = some id → (d'.find? id).isSome) →
          ∃ (us : List Descriptor) (sections : Sections),
            List.Forall₂ (fun s u => d'.find? s.toType = some u) b'.supertypes.live us ∧
            sections.Define d' ((t'.origin?.bind d'.schema?).map Schema.name)
              (addedAttributes e ops) ∧
            sections.count = (addedAttributes e ops).length ∧
            d'.entityText e = .ok (entityAround t' b'
              (subtypeOf (us.map fun u => Text.lower u.name)) sections.text))) ∧
      ∀ as as' : List Attribute, as.filter (·.isExplicit) = as'.filter (·.isExplicit) →
        as.filter (·.isDerived) = as'.filter (·.isDerived) →
        as.filter (·.isInverse) = as'.filter (·.isInverse) →
        (run perform (additions e as) d).2.entityText e =
          (run perform (additions e as') d).2.entityText e := by
  refine ⟨?_, ?_, fun as as' h₁ h₂ h₃ => entityText_additions h₁ h₂ h₃ d⟩
  · have hreplies := replies_run ops hops h
    rwa [hrun] at hreplies
  · have hrest := stores_run ops hops h
    rw [hrun, List.nil_append] at hrest
    obtain ⟨t', b', ht', hb', hlists⟩ := hrest
    refine ⟨t', b', ht', hb', hlists, fun a ha => owner?_of_mem_addedAttributes (hlists.mem ha), ?_⟩
    intro hsupertypes hdomains
    obtain ⟨us, hus⟩ := exists_supertypes hsupertypes
    obtain ⟨sections, hsections⟩ :=
      exists_define ((t'.origin?.bind d'.schema?).map Schema.name) hdomains
    refine ⟨us, sections, hus, hsections, hsections.count, ?_⟩
    rw [entityText_of_entity? ht' hb', entityText_eq_ok_iff d' _ hb']
    exact ⟨us, sections.text, hus, attributeSections_of_lists hlists hsections, rfl⟩

theorem leavesBody_additions (as : List Attribute) :
    ∀ op ∈ additions e as, op.LeavesBody e := by
  intro op hop
  obtain ⟨a, -, rfl⟩ := List.mem_map.mp hop
  trivial

theorem addedAttributes_additions (as : List Attribute) :
    addedAttributes e (additions e as) = as.map (·.ownedBy e) := by
  unfold addedAttributes additions
  rw [List.filterMap_map, ← List.filterMap_eq_map]
  exact List.filterMap_congr fun a _ => if_pos rfl

/-- A circle below a shape, without attributes so far. -/
def plainCircle : Dictionary :=
  built {} [.addSchema "Drawing",
    .insertEntity ⟨0⟩ (.entity "Shape" (.ofOptions {})),
    .insertEntity ⟨0⟩ (.entity "Circle" (.ofOptions {})),
    .onType ⟨9⟩ (.addSupertype ⟨⟨8⟩⟩)]

/-- Attributes of a circle, those of different roles by turns. -/
def circleAttributes : List Attribute :=
  [{ name := "owners", role := .inverse "outline", domain? := some ⟨8⟩ },
    { name := "radius", domain? := some ⟨1⟩ },
    { name := "area", role := .derived none, domain? := some ⟨1⟩ },
    { name := "centre" }]

/-- The same attributes, section by section. -/
def sortedAttributes : List Attribute :=
  [{ name := "radius", domain? := some ⟨1⟩ },
    { name := "centre" },
    { name := "area", role := .derived none, domain? := some ⟨1⟩ },
    { name := "owners", role := .inverse "outline", domain? := some ⟨8⟩ }]

def fullCircle : Dictionary :=
  (run perform (additions ⟨⟨9⟩⟩ circleAttributes) plainCircle).2

theorem attributes_printed_circle :
    (∃ t b us, fullCircle.find? ⟨9⟩ = some t ∧ t.entity? = some b ∧
      fullCircle.entityText ⟨⟨9⟩⟩ = .ok (entityAround t b (subtypeOf us) (Sections.text
        ⟨["radius : real", "centre : "], ["area : real"], ["owners : shape FOR outline"]⟩))) ∧
      fullCircle.entityText ⟨⟨9⟩⟩ =
        (run perform (additions ⟨⟨9⟩⟩ sortedAttributes) plainCircle).2.entityText ⟨⟨9⟩⟩ := by
  have h : plainCircle.Stores ⟨⟨9⟩⟩ [] := ⟨_, _, rfl, rfl, ⟨rfl, rfl, rfl⟩⟩
  have hrun : run perform (additions ⟨⟨9⟩⟩ circleAttributes) plainCircle = (_, fullCircle) := rfl
  obtain ⟨-, ⟨t, b, ht, hb, -, -, hprinted⟩, hsame⟩ :=
    attributes_printed h (leavesBody_additions circleAttributes) hrun
  have hview : (fullCircle.find? ⟨9⟩).map (fun t =>
      ((t.origin?.bind fullCircle.schema?).map Schema.name, t.supertypes)) =
        some (some "Drawing", [⟨⟨8⟩⟩]) := by cbv
  rw [ht, Option.map_some, Option.some.injEq, Prod.mk.injEq] at hview
  obtain ⟨hschema, hsupertypes⟩ := hview
  have hlive : b.supertypes.live = [⟨⟨8⟩⟩] := by
    unfold Descriptor.supertypes at hsupertypes
    rwa [hb] at hsupertypes
  rw [hschema, addedAttributes_additions] at hprinted
  obtain ⟨us, sections, -, hsections, -, htext⟩ := hprinted
    (by rw [hlive]; intro s hs; cases List.mem_singleton.mp hs; rfl)
    (by intro a ha id hid; fin_cases ha <;> cases hid <;> rfl)
  have hexplicit : sections.explicit = ["radius : real", "centre : "] :=
    hsections.explicit.unique (by cbv)
  have hderived : sections.derived = ["area : real"] := hsections.derived.unique (by cbv)
  have hinverse : sections.inverse = ["owners : shape FOR outline"] :=
    hsections.inverse.unique (by cbv)
  rw [← hexplicit, ← hderived, ← hinverse]
  exact ⟨⟨t, b, _, ht, hb, htext⟩, hsame _ _ rfl rfl rfl⟩

end Dictionary

end ExpressModel
