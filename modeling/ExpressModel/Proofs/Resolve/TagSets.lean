import Mathlib
import ExpressModel.Proofs.Resolve.NestedNames

/-! # Tag sets

The tags of a type that is no select type are its own names.  A select type has the tags of its
choices, but an alias of a select type is a boundary: of what is behind it only the alias itself
counts (`Tag`).  An alias is no select type, so a search that took it for any other choice would
stop at it just the same (`canBeSet?_eq`), and the tag set of a select type is what nested choices
lead to that is no select type (`tag_iff`).

`tags_bounded` states that exactly the names of the tag set are accepted, and for which choice.
What is not in the tag set has no say: neither the names of select types, nor what select types
hold to which only aliases lead (`canBeSet?_of_sameTags`). -/

namespace ExpressModel.Dictionary

open Relation (ReflTransGen)
open Traversal (AnswersIn map_eq_ok_iff)

variable {d d' : Dictionary} {this : TypeId} {name : String} {schema? : Option String}

/-! ### Tags -/

/-- The type is an alias, and what is behind aliases is a select type. -/
def AliasesSelect (d : Dictionary) (id : TypeId) : Prop :=
  ∃ t x, d.find? id = some t ∧ t.kind = .reference ∧
    d.FirstOnChain id (fun u => u.kind ≠ .reference) x ∧ x.2.kind = .select

/-- The type is in the tag set of the other: it is the other, and no select type, or it is in the
part of a choice of the other. -/
inductive Tag (d : Dictionary) : TypeId → TypeId → Prop
  | self {id t} (hid : d.find? id = some t) (hsel : t.select? = none) : Tag d id id
  | boundary {this c} (hc : d.HasChoice this c) (halias : d.AliasesSelect c) : Tag d this c
  | nested {this c x} (hc : d.HasChoice this c) (halias : ¬ d.AliasesSelect c)
      (hx : Tag d c x) : Tag d this x

/-- The type is in the part of the tag set that the choice contributes: the choice alone where it is
an alias of a select type, the tag set of the choice otherwise. -/
def TagThrough (d : Dictionary) (c x : TypeId) : Prop :=
  d.AliasesSelect c ∧ x = c ∨ ¬ d.AliasesSelect c ∧ d.Tag c x

theorem AliasesSelect.exists_leaf {c : TypeId} (h : d.AliasesSelect c) :
    ∃ t, d.find? c = some t ∧ t.select? = none := by
  obtain ⟨t, -, ht, hkind, -⟩ := h
  exact ⟨t, ht, Descriptor.select?_eq_none_of_kind hkind⟩

/-- Nothing is nested in a type that is no select type. -/
theorem eq_of_reaches_of_leaf {c x : TypeId} {t : Descriptor} (hc : d.find? c = some t)
    (hsel : t.select? = none) (h : ReflTransGen d.HasChoice c x) : c = x := by
  rcases ReflTransGen.cases_head h with heq | ⟨b, hb, -⟩
  · exact heq
  · exact absurd hb (not_hasChoice_of_select?_eq_none hc hsel b)

/-- The tags of a type are what nested choices lead to that is no select type. -/
theorem tag_iff {x : TypeId} :
    d.Tag this x ↔
      ReflTransGen d.HasChoice this x ∧ ∃ t, d.find? x = some t ∧ t.select? = none := by
  constructor
  · intro h
    induction h with
    | self hid hsel => exact ⟨.refl, _, hid, hsel⟩
    | boundary hc halias => exact ⟨.single hc, halias.exists_leaf⟩
    | nested hc _ _ ih => exact ⟨.head hc ih.1, ih.2⟩
  · rintro ⟨hreach, t, hx, hsel⟩
    induction hreach using ReflTransGen.head_induction_on with
    | refl => exact .self hx hsel
    | @head this c hc hrest ih =>
        by_cases halias : d.AliasesSelect c
        · obtain ⟨u, hu, hleaf⟩ := halias.exists_leaf
          rw [← eq_of_reaches_of_leaf hu hleaf hrest]
          exact .boundary hc halias
        · exact .nested hc halias ih

theorem tagThrough_iff {c x : TypeId} : d.TagThrough c x ↔ d.Tag c x := by
  constructor
  · rintro (⟨halias, rfl⟩ | ⟨-, hx⟩)
    · obtain ⟨u, hu, hleaf⟩ := halias.exists_leaf
      exact .self hu hleaf
    · exact hx
  · intro hx
    by_cases halias : d.AliasesSelect c
    · obtain ⟨u, hu, hleaf⟩ := halias.exists_leaf
      exact .inl ⟨halias, (eq_of_reaches_of_leaf hu hleaf (tag_iff.mp hx).1).symm⟩
    · exact .inr ⟨halias, hx⟩

/-! ### The search without the boundary -/

/-- May a value be tagged with this name, when an alias of a select type is a choice like any
other? -/
def taggedPlainly (name : String) (schema? : Option String) : Selection where
  ofLeaf this t := .ok (if t.currentName name schema? then some this else none)
  ofSelect _ _ := false
  ofChoice _ _ := .ok none

theorem admitted?_taggedPlainly_of_leaf {path : List TypeId} {c : TypeId} {t : Descriptor}
    (hc : d.find? c = some t) (hsel : t.select? = none) :
    d.admitted? (taggedPlainly name schema?) path c =
      .ok (if t.currentName name schema? then some c else none) := by
  rw [admitted?_eq, require_eq_ok_iff.mpr hc]
  simp only [bind, Except.bind, hsel]
  rfl

theorem firstAdmitting?_taggedBy (hac : d.checkAcyclic = .ok ()) {path choices : List TypeId}
    (h : ∀ c ∈ choices, d.admitted? (d.taggedBy name schema?) path c =
      d.admitted? (taggedPlainly name schema?) path c) :
    d.firstAdmitting? (d.taggedBy name schema?) path choices =
      d.firstAdmitting? (taggedPlainly name schema?) path choices := by
  induction choices with
  | nil => rw [firstAdmitting?_nil, firstAdmitting?_nil]
  | cons c rest ih =>
      have hrest := ih fun c hc => h c (List.mem_cons_of_mem _ hc)
      rw [firstAdmitting?_cons, firstAdmitting?_cons, hrest, h c List.mem_cons_self]
      cases hreq : d.require c with
      | error e => rfl
      | ok t =>
          have hc := require_eq_ok_iff.mp hreq
          rcases taggedBy_ofChoice_eq_ok hac name schema? hc with hopen | ⟨hkind, hown⟩
          · simp only [bind, Except.bind, hopen]
            rfl
          · have hleaf : d.admitted? (taggedPlainly name schema?) path c =
                .ok (if t.currentName name schema? then some c else none) :=
              admitted?_taggedPlainly_of_leaf hc (Descriptor.select?_eq_none_of_kind hkind)
            change ((d.taggedBy name schema?).ofChoice c t >>= _) =
              (d.admitted? (taggedPlainly name schema?) path c >>= _)
            rw [hown, hleaf]
            cases t.currentName name schema? <;> rfl

theorem admitted?_taggedBy (hac : d.checkAcyclic = .ok ()) (path : List TypeId) (this : TypeId) :
    d.admitted? (d.taggedBy name schema?) path this =
      d.admitted? (taggedPlainly name schema?) path this := by
  induction hn : d.offPath path using Nat.strong_induction_on generalizing path this with
  | h n ih =>
      rw [admitted?_eq, admitted?_eq]
      cases hreq : d.require this with
      | error e => rfl
      | ok t =>
          simp only [bind, Except.bind]
          cases hsel : t.select? with
          | none => rfl
          | some b =>
              by_cases hmem : this ∈ path
              · simp only [if_pos hmem]
                rfl
              · have hlt : d.offPath (this :: path) < d.offPath path :=
                  offPath_cons_lt (require_eq_ok_iff.mp hreq) hmem
                have hchoices :
                    d.firstAdmitting? (d.taggedBy name schema?) (this :: path) t.choices =
                      d.firstAdmitting? (taggedPlainly name schema?) (this :: path) t.choices :=
                  firstAdmitting?_taggedBy hac fun c _ => ih _ (hn ▸ hlt) (this :: path) c rfl
                simp only [if_neg hmem, hchoices]
                rfl

/-- In an acyclic dictionary the boundary is where the search stops anyway. -/
theorem canBeSet?_eq (hac : d.checkAcyclic = .ok ()) :
    d.canBeSet? this name schema? = d.admitted? (taggedPlainly name schema?) [] this :=
  admitted?_taggedBy hac [] this

/-- The name is a current name of the type. -/
def GoesBy (d : Dictionary) (name : String) (schema? : Option String) (id : TypeId) : Prop :=
  ∃ t, d.find? id = some t ∧ t.currentName name schema? = true

theorem answersItself_taggedPlainly_iff {c : TypeId} {t : Descriptor} (hc : d.find? c = some t) :
    d.AnswersItself (taggedPlainly name schema?) c ↔
      t.select? = none ∧ t.currentName name schema? = true := by
  rw [answersItself_iff (fun _ _ => rfl) hc]
  simp [taggedPlainly]

theorem leadsToAnswer_taggedPlainly_iff :
    d.LeadsToAnswer (taggedPlainly name schema?) this ↔
      ∃ x, d.Tag this x ∧ d.GoesBy name schema? x := by
  simp only [tag_iff]
  constructor
  · rintro ⟨x, hreach, t, ht, haccepts⟩
    obtain ⟨hsel, hname⟩ := (answersItself_taggedPlainly_iff ht).mp ⟨t, ht, haccepts⟩
    exact ⟨x, ⟨hreach, t, ht, hsel⟩, t, ht, hname⟩
  · rintro ⟨x, ⟨hreach, t, ht, hsel⟩, u, hu, hname⟩
    rw [ht] at hu
    cases hu
    exact ⟨x, hreach, (answersItself_taggedPlainly_iff ht).mpr ⟨hsel, hname⟩⟩

/-! ### Dictionaries with the same tags -/

/-- The second dictionary differs from the first in select types at most, and those to which nested
choices lead from the given type have the same choices in both. -/
structure SameTags (d d' : Dictionary) (root : TypeId) : Prop where
  unknown : ∀ id, d.find? id = none → d'.find? id = none
  leaf : ∀ id t, d.find? id = some t → t.select? = none → d'.find? id = some t
  select : ∀ id t, d.find? id = some t → t.select?.isSome → ∃ t', d'.find? id = some t' ∧
    t'.select?.isSome ∧ (ReflTransGen d.HasChoice root id → t'.choices = t.choices)

section sameTags

variable {root : TypeId}

theorem SameTags.exists_find? (h : d.SameTags d' root) {id : TypeId} {t : Descriptor}
    (hid : d.find? id = some t) :
    ∃ t', d'.find? id = some t' ∧ t'.kind = t.kind ∧ (t.select? = none → t' = t) := by
  cases hsel : t.select? with
  | none => exact ⟨t, h.leaf id t hid hsel, rfl, fun _ => rfl⟩
  | some b =>
      have hsome : t.select?.isSome := Option.isSome_iff_exists.mpr ⟨b, hsel⟩
      obtain ⟨t', ht', hsel', -⟩ := h.select id t hid hsome
      refine ⟨t', ht', ?_, fun hnone => by cases hnone⟩
      rw [Descriptor.kind_of_select? hsome, Descriptor.kind_of_select? hsel']

/-- A referent that dangles in the one dangles in the other. -/
theorem SameTags.follow?_eq_none (h : d.SameTags d' root) {t : Descriptor}
    (hfollow : d.follow? t = none) : d'.follow? t = none := by
  unfold follow? at hfollow ⊢
  cases hreferent : t.referent? with
  | none => rfl
  | some target =>
      rw [hreferent, Option.bind_some, Option.map_eq_none_iff] at hfollow
      rw [Option.bind_some, h.unknown target hfollow, Option.map_none]

theorem follow?_eq_some_of_find? {t u : Descriptor} {x : TypeId × Descriptor}
    (hfollow : d.follow? t = some x) (hx : d'.find? x.1 = some u) :
    d'.follow? t = some (x.1, u) := by
  unfold follow? at hfollow ⊢
  obtain ⟨target, hreferent, hfound⟩ := Option.bind_eq_some_iff.mp hfollow
  obtain ⟨_, -, rfl⟩ := Option.map_eq_some_iff.mp hfound
  rw [hreferent, Option.bind_some, hx, Option.map_some]

theorem SameTags.ends (h : d.SameTags d' root) {n : Nat} {x y : TypeId × Descriptor}
    (hends : d.Ends (fun t => t.kind ≠ .reference) n x y) (hx : d.find? x.1 = some x.2) :
    ∃ t u, d'.find? x.1 = some t ∧ d'.Ends (fun t => t.kind ≠ .reference) n (x.1, t) (y.1, u) ∧
      u.kind = y.2.kind := by
  induction hends with
  | @here x hnone =>
      obtain ⟨t, ht, hkind, hleaf⟩ := h.exists_find? hx
      refine ⟨t, t, ht, .here (next?_eq_none_iff.mpr ?_), hkind⟩
      by_cases halias : x.2.kind = .reference
      · have hfollow : d.follow? x.2 = none :=
          (next?_eq_none_iff.mp hnone).resolve_left (by simpa using halias)
        rw [hleaf (Descriptor.select?_eq_none_of_kind halias)]
        exact .inr (h.follow?_eq_none hfollow)
      · exact .inl (decide_eq_true (hkind ▸ halias))
  | @step n x y z hnext _ ih =>
      obtain ⟨t, u, ht, hends, hkind⟩ := ih (find?_of_next? hnext)
      obtain ⟨hgo, hfollow⟩ := next?_eq_some_iff.mp hnext
      have halias : x.2.kind = .reference := by simpa using hgo
      have hsame : d'.find? x.1 = some x.2 :=
        h.leaf x.1 x.2 hx (Descriptor.select?_eq_none_of_kind halias)
      have hnext' : d'.next? (fun t => t.kind ≠ .reference) x.2 = some (y.1, t) :=
        next?_eq_some_iff.mpr ⟨hgo, follow?_eq_some_of_find? hfollow ht⟩
      exact ⟨x.2, u, hsame, .step hnext' hends, hkind⟩

theorem SameTags.unaliasedKind (h : d.SameTags d' root) (id : TypeId) :
    AnswersIn (d.unaliasedKind id) (d'.unaliasedKind id) := by
  intro kind hkind
  obtain ⟨y, hy, rfl⟩ := map_eq_ok_iff.mp hkind
  obtain ⟨n, t, hid, hends⟩ := walkFrom_eq_ok_iff_ends.mp hy
  obtain ⟨t', u, hid', hends', hsame⟩ := h.ends hends hid
  refine map_eq_ok_iff.mpr ⟨(y.1, u), walkFrom_eq_ok_iff_ends.mpr ⟨n, t', hid', hends'⟩, ?_⟩
  unfold Descriptor.fundamentalKind
  rw [hsame]

theorem SameTags.carries (h : d.SameTags d' root) {id : TypeId} {t : Descriptor}
    (hreach : ReflTransGen d.HasChoice root id) (hid : d.find? id = some t) :
    ∃ t', d'.find? id = some t' ∧
      Carries (d.taggedBy name schema?) (d'.taggedBy name schema?) id t t' := by
  cases hsel : t.select? with
  | none =>
      refine ⟨t, h.leaf id t hid hsel, ⟨fun _ => ⟨hsel, .refl _⟩, ?_, ?_⟩⟩
      · intro hsome
        rw [hsel] at hsome
        cases hsome
      · dsimp only [taggedBy]
        split
        · exact (h.unaliasedKind id).map _
        · exact .refl _
  | some b =>
      have hsome : t.select?.isSome := Option.isSome_iff_exists.mpr ⟨b, hsel⟩
      obtain ⟨t', ht', hsel', hchoices⟩ := h.select id t hid hsome
      refine ⟨t', ht', ⟨?_, fun _ => ⟨hsel', rfl, hchoices hreach⟩, ?_⟩⟩
      · intro hnone
        rw [hsel] at hnone
        cases hnone
      · dsimp only [taggedBy]
        rw [Descriptor.kind_of_select? hsome, Descriptor.kind_of_select? hsel']
        exact .refl _

/-- Neither the names of select types nor the choices of select types to which no nested choices
lead have a say in what tags a type accepts. -/
theorem canBeSet?_of_sameTags (hac : d.checkAcyclic = .ok ()) (hchoices : d.ChoicesResolve)
    (h : d.SameTags d' this) :
    d'.canBeSet? this name schema? = d.canBeSet? this name schema? := by
  unfold canBeSet?
  cases hthis : d.find? this with
  | none => rw [admitted?_of_unknown _ hthis, admitted?_of_unknown _ (h.unknown this hthis)]
  | some t =>
      obtain ⟨r, hr, -⟩ := admitted?_decides_of_open (q := taggedPlainly name schema?) hac hchoices
        (fun _ _ => rfl) (fun _ _ _ _ => ⟨_, rfl⟩) (Option.isSome_iff_exists.mpr ⟨t, hthis⟩)
      rw [← admitted?_taggedBy hac] at hr
      rw [hr]
      refine admitted?_of_carries (P := ReflTransGen d.HasChoice this) ?_ ?_
        (List.Subset.refl []) .refl r hr
      · intro s c hs hc
        exact hs.tail hc
      · intro id u hreach hid
        exact h.carries hreach hid

/-- Changes to a type that leave it as it is, or leave it a select type, of the same choices where
nested choices lead to it. -/
theorem sameTags_modifyType {s : TypeId} {f : Descriptor → Descriptor}
    (hleaf : ∀ t, d.find? s = some t → t.select? = none → f t = t)
    (hselect : ∀ t, d.find? s = some t → t.select?.isSome → (f t).select?.isSome ∧
      (ReflTransGen d.HasChoice root s → (f t).choices = t.choices)) :
    d.SameTags (d.modifyType s f) root where
  unknown id hid := by
    rw [find?_modifyType, hid, Option.map_none, ite_self]
  leaf id t hid hsel := by
    rw [find?_modifyType, hid]
    split
    · next heq =>
      subst heq
      rw [Option.map_some, hleaf t hid hsel]
    · rfl
  select id t hid hsel := by
    rw [find?_modifyType, hid]
    split
    · next heq =>
      subst heq
      exact ⟨f t, rfl, hselect t hid hsel⟩
    · exact ⟨t, rfl, hsel, fun _ => rfl⟩

theorem sameTags_renamed {s : TypeId} {t : Descriptor} (hs : d.find? s = some t)
    (hsel : t.select?.isSome) (name : String) (altNames : List AltName) (root : TypeId) :
    d.SameTags (d.modifyType s fun u => { u with name, altNames }) root := by
  refine sameTags_modifyType ?_ fun u _ husel => ⟨husel, fun _ => rfl⟩
  intro u hu hleaf
  rw [hs] at hu
  cases hu
  rw [hleaf] at hsel
  cases hsel

/-- A select type of other choices, to which no nested choices lead. -/
theorem sameTags_modifyChoices {s root : TypeId} (hs : ¬ ReflTransGen d.HasChoice root s)
    (f : Registry TypeId → Registry TypeId) :
    d.SameTags (d.modifyType s (Descriptor.modifyChoices f)) root := by
  refine sameTags_modifyType ?_ ?_
  · rintro ⟨_, _, _, _, _, _, body⟩ - hleaf
    cases body with
    | select b => cases hleaf
    | _ => rfl
  · rintro ⟨_, _, _, _, _, _, body⟩ - hsel
    cases body with
    | select b => exact ⟨rfl, fun hreach => absurd hreach hs⟩
    | _ => cases hsel

end sameTags

/-! ### Accepted tags -/

open Classical in
/-- Which tags a type accepts, and what has no say in it. -/
structure TagsBounded (d : Dictionary) (this : TypeId) (name : String)
    (schema? : Option String) : Prop where
  /-- A name is accepted that is a current name of some type in the tag set. -/
  accepted : (∃ a, d.canBeSet? this name schema? = .ok (some a)) ↔
    ∃ x, d.Tag this x ∧ d.GoesBy name schema? x
  /-- For a select type the answer is the first choice that contributes such a type. -/
  first : ∀ t, d.find? this = some t → t.select?.isSome → d.canBeSet? this name schema? =
    .ok (t.choices.find? fun c => ∃ x, d.TagThrough c x ∧ d.GoesBy name schema? x)
  /-- For any other type it is the type itself. -/
  self : ∀ t, d.find? this = some t → t.select? = none → d.canBeSet? this name schema? =
    .ok (if t.currentName name schema? then some this else none)
  /-- The names of a select type have no say. -/
  renamed : ∀ s t, d.find? s = some t → t.select?.isSome → ∀ name' altNames,
    (d.modifyType s fun u => { u with name := name', altNames }).canBeSet? this name schema? =
      d.canBeSet? this name schema?
  /-- Nor have the choices of a select type to which no nested choices lead. -/
  choicesChanged : ∀ s, ¬ ReflTransGen d.HasChoice this s → ∀ f,
    (d.modifyType s (Descriptor.modifyChoices f)).canBeSet? this name schema? =
      d.canBeSet? this name schema?
  /-- Nor has any number of such changes at once. -/
  sameTags : ∀ d', d.SameTags d' this →
    d'.canBeSet? this name schema? = d.canBeSet? this name schema?

/-- Where no link leads back and all choices are types, exactly the names of the tag set are
accepted. -/
theorem tags_bounded (hac : d.checkAcyclic = .ok ()) (hchoices : d.ChoicesResolve)
    (this : TypeId) (name : String) (schema? : Option String) :
    d.TagsBounded this name schema? where
  accepted := by
    rw [canBeSet?_eq hac, exists_admitted?_iff_of_open hac hchoices (fun _ _ => rfl)
      fun _ _ _ _ => ⟨_, rfl⟩, leadsToAnswer_taggedPlainly_iff]
  first t hthis hsel := by
    rw [canBeSet?_eq hac, admitted?_select_of_open hac hchoices (fun _ _ => rfl)
      (fun _ _ _ _ => ⟨_, rfl⟩) hthis hsel rfl]
    refine congrArg Except.ok (List.find?_congr fun c _ => decide_eq_decide.mpr ?_)
    simp only [leadsToAnswer_taggedPlainly_iff, tagThrough_iff]
  self t hthis hsel := by
    rw [canBeSet?_eq hac, admitted?_taggedPlainly_of_leaf hthis hsel]
  renamed s t hs hsel name' altNames :=
    canBeSet?_of_sameTags hac hchoices (sameTags_renamed hs hsel name' altNames this)
  choicesChanged s hs f := canBeSet?_of_sameTags hac hchoices (sameTags_modifyChoices hs f)
  sameTags d' h := canBeSet?_of_sameTags hac hchoices h

/-- A label, a shape, select types of each, an alias of the select type of labels, and a select type
whose choices are that alias and the select type of shapes. -/
def brochure : Dictionary where
  config := {}
  descriptors := #[
    { name := "label", description := "STRING", body := .plain .string }, entityBelow "shape" [],
    selectOf "item" [⟨0⟩], aliasOf "part" ⟨2⟩, selectOf "figure" [⟨1⟩],
    selectOf "content" [⟨3⟩, ⟨4⟩]]
  schemas := #[]

theorem tags_bounded_brochure :
    brochure.checkAcyclic = .ok () ∧ brochure.ChoicesResolve ∧
      (∃ x, brochure.Tag ⟨5⟩ x ∧ brochure.GoesBy "Shape" none x) ∧
      (¬ ∃ x, brochure.Tag ⟨5⟩ x ∧ brochure.GoesBy "label" none x) ∧
      ∀ f, (brochure.modifyType ⟨2⟩ (Descriptor.modifyChoices f)).canBeSet? ⟨5⟩ "part" none =
        .ok (some ⟨3⟩) := by
  have hac : brochure.checkAcyclic = .ok () := by cbv
  have hchoices : brochure.ChoicesResolve := by decide +kernel
  have hshape : brochure.canBeSet? ⟨5⟩ "Shape" none = .ok (some ⟨4⟩) := by cbv
  have hlabel : brochure.canBeSet? ⟨5⟩ "label" none = .ok none := by cbv
  have hpart : brochure.canBeSet? ⟨5⟩ "part" none = .ok (some ⟨3⟩) := by cbv
  have hnot : ¬ ∃ x, brochure.Tag ⟨5⟩ x ∧ brochure.GoesBy "label" none x := by
    intro h
    obtain ⟨a, ha⟩ := (tags_bounded hac hchoices ⟨5⟩ "label" none).accepted.mpr h
    rw [hlabel] at ha
    cases ha
  have hitem : ¬ ReflTransGen brochure.HasChoice ⟨5⟩ ⟨2⟩ := by
    intro hreach
    have hchoice : brochure.HasChoice ⟨2⟩ ⟨0⟩ := ⟨_, rfl, by decide +kernel⟩
    exact hnot ⟨⟨0⟩, tag_iff.mpr ⟨hreach.tail hchoice, _, rfl, rfl⟩, _, rfl, by decide +kernel⟩
  refine ⟨hac, hchoices, ?_, hnot, fun f => ?_⟩
  · exact (tags_bounded hac hchoices ⟨5⟩ "Shape" none).accepted.mp ⟨_, hshape⟩
  · rw [(tags_bounded hac hchoices ⟨5⟩ "part" none).choicesChanged ⟨2⟩ hitem f, hpart]

end ExpressModel.Dictionary
