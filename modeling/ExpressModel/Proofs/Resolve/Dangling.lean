import Mathlib
import ExpressModel.Links.Cycles
import ExpressModel.Proofs.Declaration.Contents
import ExpressModel.Proofs.Resolve.Mirror
import ExpressModel.Resolve.Domain

/-! # Referents that denote nothing

A referent that denotes nothing is to be taken for one that is not set.  Removing all of them
(`pruned`) gives a dictionary that mirrors the one at hand, so that it gives the same answers, the
same texts of declarations and the same links and cycles (`pruned_answersAlike`).

There is one exception.  In a description in full a built-in kind of type is opened like a
declaration when its referent is set, whether or not it denotes anything, so a description that
ends at such a type shows the difference (`ShowsDangling`). -/

namespace ExpressModel

namespace Dictionary

variable (d : Dictionary)

/-! ### Pruning -/

/-- The descriptor without a referent that denotes nothing. -/
def prune (t : Descriptor) : Descriptor :=
  { t with referent? := t.referent?.filter fun id => (d.find? id).isSome }

/-- The dictionary without referents that denote nothing. -/
def pruned : Dictionary :=
  { d with descriptors := d.descriptors.map d.prune }

@[simp] theorem typeCount_pruned : d.pruned.typeCount = d.typeCount :=
  Array.size_map

@[simp] theorem typeIds_pruned : d.pruned.typeIds = d.typeIds := by
  unfold typeIds
  rw [typeCount_pruned]

@[simp] theorem find?_pruned (id : TypeId) : d.pruned.find? id = (d.find? id).map d.prune :=
  Array.getElem?_map ..

variable {d} {id : TypeId} {t : Descriptor}

theorem twin_prune (t : Descriptor) : t.Twin (d.prune t) :=
  ⟨_, rfl⟩

theorem settled_pruned (id : TypeId) : d.Settled d.pruned id := by
  intro h
  rw [find?_pruned, h, Option.map_none]

theorem paired_pruned (h : d.find? id = some t) :
    d.Paired d.pruned (id, t) (id, d.prune t) := by
  refine ⟨rfl, h, ?_⟩
  rw [find?_pruned, h, Option.map_some]

theorem referent?_prune (t : Descriptor) :
    (d.prune t).referent? = t.referent?.filter fun id => (d.find? id).isSome := rfl

theorem follow?_prune (t : Descriptor) :
    d.pruned.follow? (d.prune t) = (d.follow? t).map fun x => (x.1, d.prune x.2) := by
  unfold follow?
  rw [referent?_prune]
  cases t.referent? with
  | none => rfl
  | some next =>
      cases hnext : d.find? next with
      | none => simp [hnext]
      | some u => simp [Option.filter_some, hnext]

/-- A dictionary is mirrored by what remains of it without referents that denote nothing. -/
theorem mirrors_pruned {κ : Type} (p : Error → κ) (d : Dictionary) : Mirrors p d d.pruned := by
  refine ⟨?_, ?_, fun _ link _ => settled_pruned link.1, ?_⟩
  · intro id t ht
    exact ⟨d.prune t, (paired_pruned ht).find?', twin_prune t⟩
  · intro id t u ht hu
    rw [find?_pruned, ht, Option.map_some] at hu
    cases hu
    rw [follow?_prune, Option.map_map]
    rfl
  · intro stop x _
    rw [typeCount_pruned]

/-! ### Descriptions -/

/-- The referent of a type is set and denotes nothing, and the segment of the type shows that it
is set. -/
def ShowsReferent (d : Dictionary) (t : Descriptor) : Prop :=
  t.opensIfLinked = true ∧ t.referent?.isSome ∧ d.follow? t = none

/-- The description of a type in full ends at one that shows a referent which denotes nothing. -/
def ShowsDangling (d : Dictionary) (id : TypeId) : Prop :=
  ∃ t n found, d.find? id = some t ∧ d.Ends endsText n (id, t) found ∧ d.ShowsReferent found.2

theorem opening_ne_empty (t : Descriptor) : t.opening ≠ "" := by
  intro h
  simp [Descriptor.opening, String.append_eq_empty_iff] at h

theorem openingIfLinked_prune_eq_iff :
    (d.prune t).openingIfLinked = t.openingIfLinked ↔
      ¬ (t.referent?.isSome ∧ d.follow? t = none) := by
  have hopening : (d.prune t).opening = t.opening := rfl
  unfold Descriptor.openingIfLinked follow?
  rw [hopening, referent?_prune]
  cases t.referent? with
  | none => simp
  | some next =>
      cases hnext : d.find? next with
      | none => simpa [hnext] using (opening_ne_empty t).symm
      | some u => simp [Option.filter_some, hnext]

/-- What a type says about itself is the same, unless it shows a referent which denotes
nothing. -/
theorem segment_prune_eq_iff : (d.prune t).segment = t.segment ↔ ¬ d.ShowsReferent t := by
  unfold ShowsReferent
  cases hopens : t.opensIfLinked with
  | false =>
      refine iff_of_true (Descriptor.segment_of_not_opens hopens _) ?_
      simp
  | true =>
      obtain ⟨text, htext⟩ := Descriptor.exists_segment_of_opens hopens
      have hpruned : (d.prune t).segment = (d.prune t).openingIfLinked ++ text := htext _
      have hown : t.segment = t.openingIfLinked ++ text := htext t.referent?
      rw [hpruned, hown, String.append_left_inj, openingIfLinked_prune_eq_iff]
      simp

/-- A description in full is the same, unless it ends at such a type. -/
theorem typeString_pruned_eq_iff :
    d.pruned.typeString id = d.typeString id ↔ ¬ d.ShowsDangling id := by
  unfold typeString require
  rw [find?_pruned]
  cases ht : d.find? id with
  | none =>
      refine iff_of_true rfl ?_
      rintro ⟨t, n, found, ht', -⟩
      rw [ht] at ht'
      cases ht'
  | some t =>
      show d.pruned.describe d.pruned.typeCount (d.prune t) = d.describe d.typeCount t ↔ _
      rw [typeCount_pruned]
      rcases (mirrors_pruned (fun e : Error => e) d).describe d.typeCount (paired_pruned ht) with
        ⟨err, he, he'⟩ | ⟨n, y, y', lead, hends, hy, htext, htext'⟩
      · refine iff_of_true (he'.trans he.symm) ?_
        rintro ⟨u, n, found, hu, hends, -⟩
        rw [ht] at hu
        cases hu
        obtain ⟨text, htext⟩ :=
          hends.exists_describe_eq_ok (Nat.le_of_lt (hends.lt_typeCount ht))
        exact absurd (htext.symm.trans he) (by simp)
      · have hy' : y'.2 = d.prune y.2 :=
          Option.some.inj (hy.find?'.symm.trans (paired_pruned hy.find?).find?')
        have hsame : d.pruned.describe d.typeCount (d.prune t) = d.describe d.typeCount t ↔
            (d.prune y.2).segment = y.2.segment := by
          rw [htext, htext', hy', Except.ok.injEq, String.append_right_inj]
        rw [hsame, segment_prune_eq_iff, not_iff_not]
        constructor
        · intro hshows
          exact ⟨t, n, y, ht, hends, hshows⟩
        · rintro ⟨u, m, found, hu, hends', hshows⟩
          rw [ht] at hu
          cases hu
          rw [(hends.unique hends').2]
          exact hshows

/-! ### Questions -/

theorem ask_pruned {q : Query} (hq : ∀ id, q ≠ .typeString id) : d.pruned.ask q = d.ask q := by
  refine ((mirrors_pruned _ d).ask (fun id _ => settled_pruned id) ?_).eq
  intro id hid
  exact absurd hid (hq id)

theorem unaliasedKind_pruned (d : Dictionary) : d.pruned.unaliasedKind = d.unaliasedKind :=
  funext fun id => ((mirrors_pruned _ d).unaliasedKind (settled_pruned id)).eq

theorem baseKind_pruned (d : Dictionary) : d.pruned.baseKind = d.baseKind :=
  funext fun id => ((mirrors_pruned _ d).baseKind (settled_pruned id)).eq

theorem element?_pruned (d : Dictionary) : d.pruned.element? = d.element? :=
  funext fun id => ((mirrors_pruned _ d).element?_same (settled_pruned id)).eq

theorem map_injective {ε α β : Type} {f : α → β} (hf : Function.Injective f) :
    Function.Injective (Except.map (ε := ε) f) := by
  intro r r' h
  cases r with
  | ok a =>
      cases r' with
      | ok b => exact congrArg Except.ok (hf (Except.ok.inj h))
      | error e => cases h
  | error e =>
      cases r' with
      | ok b => cases h
      | error e' =>
          cases h
          rfl

/-- The domain of an attribute in full is the same, unless the description of it shows the
difference. -/
theorem expandedText_pruned_eq_iff (a : Attribute) :
    a.expandedText d.pruned = a.expandedText d ↔ ∀ id ∈ a.domain?, ¬ d.ShowsDangling id := by
  have hmark : Function.Injective
      fun domain => if a.isDerived then "DERIVE  " ++ domain else domain := by
    intro s t h
    cases hderived : a.isDerived <;> simpa [hderived] using h
  unfold Attribute.expandedText
  rw [(map_injective hmark).eq_iff]
  cases a.domain? with
  | none => simp
  | some id => simpa using typeString_pruned_eq_iff

/-! ### Texts -/

theorem contents_pruned (d : Dictionary) : d.pruned.contents = d.contents := by
  have htypes : (d.descriptors.map d.prune).toList.map Descriptor.contents =
      d.descriptors.toList.map Descriptor.contents := by
    rw [Array.toList_map, List.map_map]
    rfl
  unfold contents pruned
  rw [htypes]

theorem domainText_pruned (a : Attribute) (schema? : Option String) :
    a.domainText d.pruned schema? = a.domainText d schema? :=
  domainText_of_contents (contents_pruned d) a schema?

theorem schemaText_pruned (schema : SchemaId) :
    d.pruned.schemaText schema = d.schemaText schema :=
  schemaText_of_contents (contents_pruned d) schema

theorem typeText_pruned (id : TypeId) : d.pruned.typeText id = d.typeText id :=
  typeText_of_contents (contents_pruned d) id

theorem entityText_pruned (e : EntityId) : d.pruned.entityText e = d.entityText e :=
  entityText_of_contents (contents_pruned d) e

/-! ### Links -/

/-- The links that a descriptor states are the same, those that denote nothing apart. -/
theorem filter_targets_prune (t : Descriptor) :
    (d.prune t).targets.filter (fun link => (d.find? link.1).isSome) =
      t.targets.filter fun link => (d.find? link.1).isSome := by
  have hsupertypes : (d.prune t).supertypes = t.supertypes := rfl
  have hchoices : (d.prune t).choices = t.choices := rfl
  unfold Descriptor.targets
  rw [hsupertypes, hchoices, referent?_prune]
  simp only [List.filter_append]
  cases t.referent? with
  | none => rfl
  | some next => cases hnext : d.find? next <;> simp [Option.filter_some, hnext]

theorem linksOut_pruned (d : Dictionary) : d.pruned.linksOut = d.linksOut := by
  funext id
  unfold linksOut
  simp only [find?_pruned, Option.isSome_map]
  cases d.find? id with
  | none => rfl
  | some t => exact filter_targets_prune t

theorem linksIn_pruned (d : Dictionary) : d.pruned.linksIn = d.linksIn := by
  funext id
  unfold linksIn
  rw [linksOut_pruned, typeIds_pruned, find?_pruned, Option.isSome_map]

theorem linkCount_pruned (d : Dictionary) : d.pruned.linkCount = d.linkCount := by
  unfold linkCount
  rw [linksOut_pruned, typeIds_pruned]

theorem subtypes_pruned (d : Dictionary) : d.pruned.subtypes = d.subtypes := by
  funext e
  unfold subtypes
  rw [linksIn_pruned]

theorem cycles_pruned (d : Dictionary) : d.pruned.cycles = d.cycles := by
  have hsuccessors : d.pruned.successors = d.successors := by
    funext id
    unfold successors
    rw [linksOut_pruned]
  unfold cycles beyondTable beyond
  rw [hsuccessors, typeIds_pruned]

theorem checkAcyclic_pruned (d : Dictionary) : d.pruned.checkAcyclic = d.checkAcyclic := by
  have hname : ∀ id, (d.pruned.find? id).elim id.display Descriptor.name =
      (d.find? id).elim id.display Descriptor.name := by
    intro id
    rw [find?_pruned]
    cases d.find? id <;> rfl
  unfold checkAcyclic
  simp only [cycles_pruned, hname]

/-! ### The two dictionaries -/

/-- Two dictionaries agree in their answers to all questions, in what they resolve the domains of
attributes to, in the texts of all declarations and in their links and cycles, but for the
descriptions in full of the types that are set apart. -/
structure AnswersAlike (apart : TypeId → Prop) (d d' : Dictionary) : Prop where
  ask : ∀ q, (∀ id, q ≠ .typeString id) → d'.ask q = d.ask q
  typeString : ∀ id, d'.typeString id = d.typeString id ↔ ¬ apart id
  unaliasedKind : ∀ a : Attribute, a.unaliasedKind d' = a.unaliasedKind d
  baseKind : ∀ a : Attribute, a.baseKind d' = a.baseKind d
  isAggregate : ∀ a : Attribute, a.isAggregate d' = a.isAggregate d
  element? : ∀ a : Attribute, a.element? d' = a.element? d
  domainText : ∀ (a : Attribute) (schema? : Option String),
    a.domainText d' schema? = a.domainText d schema?
  expandedText : ∀ a : Attribute,
    a.expandedText d' = a.expandedText d ↔ ∀ id ∈ a.domain?, ¬ apart id
  schemaText : ∀ schema, d'.schemaText schema = d.schemaText schema
  expressText : ∀ schema, d'.expressText schema = d.expressText schema
  typeText : ∀ id, d'.typeText id = d.typeText id
  entityText : ∀ e, d'.entityText e = d.entityText e
  linksOut : ∀ id, d'.linksOut id = d.linksOut id
  linksIn : ∀ id, d'.linksIn id = d.linksIn id
  linkCount : d'.linkCount = d.linkCount
  subtypes : ∀ e, d'.subtypes e = d.subtypes e
  cycles : d'.cycles = d.cycles
  checkAcyclic : d'.checkAcyclic = d.checkAcyclic

/-- Without the referents that denote nothing a dictionary answers everything as it does with them,
but for the descriptions in full that end at a type which shows such a referent. -/
theorem pruned_answersAlike (d : Dictionary) : AnswersAlike d.ShowsDangling d d.pruned where
  ask _ hq := ask_pruned hq
  typeString _ := typeString_pruned_eq_iff
  unaliasedKind a := by
    unfold Attribute.unaliasedKind
    rw [unaliasedKind_pruned]
  baseKind a := by
    unfold Attribute.baseKind
    rw [baseKind_pruned]
  isAggregate a := by
    unfold Attribute.isAggregate Attribute.unaliasedKind
    rw [unaliasedKind_pruned]
  element? a := by
    unfold Attribute.element?
    rw [element?_pruned]
  domainText := domainText_pruned
  expandedText := expandedText_pruned_eq_iff
  schemaText := schemaText_pruned
  expressText schema := by
    unfold Dictionary.expressText
    rw [schemaText_pruned]
  typeText := typeText_pruned
  entityText := entityText_pruned
  linksOut id := by rw [linksOut_pruned]
  linksIn id := by rw [linksIn_pruned]
  linkCount := linkCount_pruned d
  subtypes e := by rw [subtypes_pruned]
  cycles := cycles_pruned d
  checkAcyclic := checkAcyclic_pruned d

/-- A count with a referent that denotes nothing. -/
def danglingCount : Dictionary :=
  built {} [.addUnnamed none
    { name := "count", description := "INTEGER", referent? := some ⟨99⟩, body := .plain .integer }]

/-- The description of the count shows its referent. -/
theorem typeString_danglingCount :
    danglingCount.typeString ⟨8⟩ = .ok "TYPE count = Integer" ∧
      danglingCount.pruned.typeString ⟨8⟩ = .ok "Integer" := by
  constructor
  · cbv
  · cbv

end Dictionary

end ExpressModel
