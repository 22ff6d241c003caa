import Mathlib
import ExpressModel.Proofs.Descriptor.AltNames
import ExpressModel.Proofs.Resolve.Admission

/-! # Tags

A value of a select type is tagged with the name of one of its types.  Three things have to agree
on such names: what the text of a declaration writes for a choice (`Descriptor.domainText`), which
tags are accepted (`canBeSet?`) and what the select type may hold (`canBe?`).  They do in an
acyclic dictionary whose links lead somewhere (`tags_agree`): a choice is accepted under the name
that is written for it, and an accepted tag is the current name of a type that nested choices
lead to and that the select type may hold.

An alias of a select type is where the last two differ: the alias itself is tagged and held,
whatever is behind it. -/

namespace ExpressModel

open Relation (ReflTransGen)

/-! ### Written names -/

theorem Text.sameName_lower (s : String) : sameName s (lower s) = true := by
  rw [sameName_iff]
  unfold lower
  rw [String.map_map]
  congr 1
  funext c
  exact (Char.toLower_toLower_eq_toLower c).symm

namespace Descriptor

theorem ownName_lower_name {t : Descriptor} (h : t.isNamed = true) :
    t.ownName (Text.lower t.name) = true := by
  unfold ownName
  rw [h, Text.sameName_lower]
  rfl

theorem altName_lower {t : Descriptor} {alt : AltName} (h : alt ∈ t.altNames) :
    t.altName (Text.lower alt.name) = true :=
  List.any_eq_true.mpr ⟨alt, h, Text.sameName_lower alt.name⟩

/-- Where no schema is given, the name that is written is one of the type's names. -/
theorem possibleName_lower_nameIn {t : Descriptor} (h : t.isNamed = true)
    (schema? : Option String) : t.possibleName (Text.lower (t.nameIn schema?)) = true := by
  unfold possibleName
  rw [Bool.or_eq_true]
  cases schema? with
  | none => exact Or.inl (ownName_lower_name h)
  | some schema =>
      cases halt : altNameFor? schema t.altNames with
      | none =>
          rw [nameIn_of_none halt]
          exact Or.inl (ownName_lower_name h)
      | some alt =>
          rw [nameIn_of_altName halt]
          exact Or.inr (altName_lower (List.mem_of_find?_eq_some halt))

/-- The name that is written for a type in a schema is its current name there. -/
theorem currentName_domainText {t : Descriptor} (h : t.isNamed = true)
    (schema? : Option String) : t.currentName (t.domainText schema?) schema? = true := by
  unfold domainText
  rw [if_pos h]
  unfold currentName
  cases hread : schema?.filter (!·.isEmpty) with
  | none => exact possibleName_lower_nameIn h schema?
  | some schema =>
      obtain ⟨rfl, -⟩ := Option.filter_eq_some_iff.mp hread
      dsimp only
      cases halt : altNameFor? schema t.altNames with
      | none =>
          rw [nameIn_of_none halt]
          exact ownName_lower_name h
      | some alt =>
          rw [nameIn_of_altName halt]
          exact Text.sameName_lower alt.name

theorem kind_of_select? {t : Descriptor} (h : t.select?.isSome) : t.kind = .select := by
  rcases t with ⟨_, _, _, _, _, _, body⟩
  cases body with
  | select body => rfl
  | _ => cases h

theorem select?_eq_none_of_kind {t : Descriptor} (h : t.kind = .reference) : t.select? = none := by
  rcases t with ⟨_, _, _, _, _, _, body⟩
  cases body with
  | select body => cases h
  | _ => rfl

end Descriptor

namespace Dictionary

variable {d : Dictionary}

/-! ### Tags that are accepted -/

theorem exists_unaliasedKind_eq_ok (hac : d.checkAcyclic = .ok ()) {id : TypeId} {t : Descriptor}
    (hid : d.find? id = some t) : ∃ kind, d.unaliasedKind id = .ok kind := by
  obtain ⟨found, hfound⟩ := exists_unalias_eq_ok hac hid
  refine ⟨found.2.fundamentalKind, ?_⟩
  unfold unaliasedKind
  rw [hfound]
  rfl

/-- A choice is asked for its name alone where it is an alias of a select type. -/
theorem taggedBy_ofChoice_eq_ok (hac : d.checkAcyclic = .ok ()) (name : String)
    (schema? : Option String) {id : TypeId} {t : Descriptor} (hid : d.find? id = some t) :
    (d.taggedBy name schema?).ofChoice id t = .ok none ∨
      t.kind = .reference ∧
        (d.taggedBy name schema?).ofChoice id t = .ok (some (t.currentName name schema?)) := by
  dsimp only [taggedBy]
  by_cases hkind : t.kind = .reference
  · obtain ⟨kind, hbehind⟩ := exists_unaliasedKind_eq_ok hac hid
    rw [if_pos hkind, hbehind]
    by_cases hselect : kind = .select
    · refine Or.inr ⟨hkind, ?_⟩
      rw [Except.map, if_pos hselect]
    · refine Or.inl ?_
      rw [Except.map, if_neg hselect]
  · exact Or.inl (if_neg hkind)

theorem notRefused_taggedBy (hac : d.checkAcyclic = .ok ()) (name : String)
    (schema? : Option String) : d.NotRefused (d.taggedBy name schema?) where
  leaf _ _ _ := ⟨_, rfl⟩
  choice id t hid := by
    rcases taggedBy_ofChoice_eq_ok hac name schema? hid with h | ⟨-, h⟩
    · exact ⟨_, h⟩
    · exact ⟨_, h⟩

/-- A type that is no select type serves under each of its current names. -/
theorem serves_of_currentName (hac : d.checkAcyclic = .ok ()) {name : String}
    {schema? : Option String} {c : TypeId} {u : Descriptor} (hc : d.find? c = some u)
    (hsel : u.select? = none) (hname : u.currentName name schema? = true) :
    d.Serves (d.taggedBy name schema?) c := by
  refine ⟨u, hc, ?_⟩
  rcases taggedBy_ofChoice_eq_ok hac name schema? hc with hopen | ⟨-, hown⟩
  · refine Or.inr ⟨hopen, c, ?_⟩
    rw [admitted?_of_not_select _ hc hsel]
    dsimp only [taggedBy]
    rw [if_pos hname]
  · rw [hname] at hown
    exact Or.inl hown

/-- A type that accepts a tag itself is no select type and has the tag for a current name. -/
theorem currentName_of_accepts (hac : d.checkAcyclic = .ok ()) {name : String}
    {schema? : Option String} {id : TypeId} {t : Descriptor} (hid : d.find? id = some t)
    (h : Accepts (d.taggedBy name schema?) id t) :
    t.select? = none ∧ t.currentName name schema? = true := by
  cases h with
  | leaf hsel a ha =>
      refine ⟨hsel, ?_⟩
      dsimp only [taggedBy] at ha
      by_contra hno
      rw [if_neg hno] at ha
      cases ha
  | select hsel hself => cases hself
  | choice hown =>
      rcases taggedBy_ofChoice_eq_ok hac name schema? hid with hopen | ⟨hkind, hname⟩
      · rw [hopen] at hown
        cases hown
      · rw [hname] at hown
        exact ⟨Descriptor.select?_eq_none_of_kind hkind, Option.some.inj (Except.ok.inj hown)⟩

/-! ### Types that are held -/

theorem notRefused_holding (hac : d.checkAcyclic = .ok ()) (hlinks : d.LinksResolve)
    {other : TypeId} {u : Descriptor} (hother : d.find? other = some u) :
    d.NotRefused (d.holding other) where
  leaf _ _ hid := exists_isA?_eq_ok hac hlinks hid hother
  choice _ _ _ := ⟨none, rfl⟩

/-- A select type may hold every type that its nested choices lead to. -/
theorem exists_canBe?_of_reaches (hac : d.checkAcyclic = .ok ()) (hlinks : d.LinksResolve)
    {this last : TypeId} {u : Descriptor} (hreach : ReflTransGen d.HasChoice this last)
    (hlast : d.find? last = some u) (hsel : u.select? = none) :
    ∃ a, d.canBe? this last = .ok (some a) := by
  refine exists_admitted?_of_reaches hac hlinks (notRefused_holding hac hlinks hlast)
    (fun _ _ => rfl) hreach ⟨last, ?_⟩
  rw [admitted?_of_not_select _ hlast hsel]
  exact isA?_self hlast

/-! ### Agreement -/

/-- What is written for the choices of a select type, which tags its values may have and what it
may hold agree. -/
structure TagsAgree (d : Dictionary) (this : TypeId) (t : Descriptor)
    (schema? : Option String) : Prop where
  /-- A named choice that is no select type is accepted as it is written, if not for itself then
  for a choice before it. -/
  written : ∀ (i : Nat) c u, t.choices[i]? = some c → d.find? c = some u → u.isNamed = true →
    u.select? = none → ∃ j ≤ i, ∃ first, t.choices[j]? = some first ∧
      d.canBeSet? this (u.domainText schema?) schema? = .ok (some first)
  /-- A tag that is accepted for a choice is the current name of a type that the choice leads to
  and that the select type may hold. -/
  held : ∀ name c, d.canBeSet? this name schema? = .ok (some c) → c ∈ t.choices ∧
    ∃ last u, ReflTransGen d.HasChoice c last ∧ d.find? last = some u ∧
      u.currentName name schema? = true ∧ ∃ a, d.canBe? this last = .ok (some a)

/-- In an acyclic dictionary whose links lead somewhere, tags, names and what a select type may
hold agree. -/
theorem tags_agree (hac : d.checkAcyclic = .ok ()) (hlinks : d.LinksResolve) {this : TypeId}
    {t : Descriptor} (hthis : d.find? this = some t) (hsel : t.select?.isSome)
    (schema? : Option String) : d.TagsAgree this t schema? where
  written i c u hc hu hnamed hleaf := by
    have hserves := serves_of_currentName hac hu hleaf
      (Descriptor.currentName_domainText hnamed schema?)
    exact admitted?_le_of_serves hac hlinks (notRefused_taggedBy hac _ schema?) hthis hsel rfl hc
      hserves
  held name c h := by
    have hq := notRefused_taggedBy hac name schema?
    obtain ⟨hmem, hserves⟩ := serves_of_admitted? hac hlinks hq hthis hsel rfl h
    obtain ⟨last, u, hreach, hlast, haccepts⟩ := hserves.exists_accepts hac hlinks hq
    obtain ⟨hleaf, hname⟩ := currentName_of_accepts hac hlast haccepts
    have hstep : d.HasChoice this c := ⟨t, hthis, hmem⟩
    exact ⟨hmem, last, u, hreach, hlast, hname,
      exists_canBe?_of_reaches hac hlinks (.head hstep hreach) hlast hleaf⟩

/-- A select type with the given choices. -/
def selectOf (name : String) (choices : List TypeId) : Descriptor where
  name := name
  description := name
  body := .select { choices := choices.foldl (fun r c => r.append c) .empty }

/-- A label that the schema `drawing` calls `caption`, a select type of labels and entities, an
alias of it, and a select type whose choices are these three. -/
def captions : Dictionary where
  config := {}
  descriptors := #[
    { name := "label", description := "STRING", altNames := [⟨"drawing", "caption"⟩]
      body := .plain .string },
    entityBelow "shape" [], entityBelow "circle" [⟨1⟩],
    selectOf "item" [⟨0⟩, ⟨2⟩],
    { name := "part", description := "item", referent? := some ⟨3⟩, body := .plain .reference },
    selectOf "content" [⟨4⟩, ⟨3⟩, ⟨0⟩]]
  schemas := #[]

theorem tags_agree_captions :
    captions.checkAcyclic = .ok () ∧ captions.LinksResolve ∧
      captions.TagsAgree ⟨5⟩ (selectOf "content" [⟨4⟩, ⟨3⟩, ⟨0⟩]) (some "Drawing") := by
  have hac : captions.checkAcyclic = .ok () := by cbv
  have hlinks : captions.LinksResolve := by decide +kernel
  exact ⟨hac, hlinks, tags_agree hac hlinks rfl rfl (some "Drawing")⟩

end Dictionary

end ExpressModel
