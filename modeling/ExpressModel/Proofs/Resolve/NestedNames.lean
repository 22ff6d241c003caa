import Mathlib
import ExpressModel.Proofs.Resolve.Nesting
import ExpressModel.Proofs.Resolve.Referents

/-! # Names behind nested choices

Where no link leads back and every choice is a type, a question that no choice answers by itself is
always answered, affirmatively just where nested choices lead to a type that answers it
(`exists_admitted?_iff_of_open`), and for a select type without an answer of its own by the first
choice from where they do (`admitted?_select_of_open`).  Supertypes have no part in this: they may
denote anything.

`canBeNamed?_decides` says this of names.  A select type answers with its own name; any other type
with the first descriptor of the name on its referent chain, as far as that chain is named. -/

namespace ExpressModel.Dictionary

open Relation (ReflTransGen TransGen)
open Traversal (map_eq_ok_iff)

variable {d : Dictionary} {q : Selection} {this : TypeId}

/-! ### Choices that denote types -/

def ChoicesResolve (d : Dictionary) : Prop :=
  ∀ t ∈ d.descriptors, ∀ c ∈ t.choices, (d.find? c).isSome

instance : Decidable d.ChoicesResolve :=
  inferInstanceAs (Decidable (∀ t ∈ d.descriptors, ∀ c ∈ t.choices, (d.find? c).isSome))

theorem ChoicesResolve.isSome_of_hasChoice (h : d.ChoicesResolve) {s c : TypeId}
    (hc : d.HasChoice s c) : (d.find? c).isSome := by
  obtain ⟨t, ht, hmem⟩ := hc
  exact h t (mem_descriptors_of_find? ht) c hmem

theorem ChoicesResolve.isSome_of_reaches (h : d.ChoicesResolve) (hthis : (d.find? this).isSome)
    {c : TypeId} (hc : ReflTransGen d.HasChoice this c) : (d.find? c).isSome :=
  of_reaches (P := fun c => (d.find? c).isSome) hthis (fun _ _ _ h' => h.isSome_of_hasChoice h') hc

theorem not_meetsCycle_hasChoice (hac : d.checkAcyclic = .ok ()) (hchoices : d.ChoicesResolve) :
    ¬ MeetsCycle d.HasChoice this := by
  rintro ⟨c, -, hloop⟩
  have hstep : ∀ s c, d.HasChoice s c → d.Linked s c := by
    rintro s c ⟨t, ht, hmem⟩
    exact linked_of_mem_choices ht hmem (hchoices.isSome_of_hasChoice ⟨t, ht, hmem⟩)
  exact checkAcyclic_eq_ok_iff.mp hac c (TransGen.mono hstep _ _ hloop)

/-! ### Open questions -/

/-- Nested choices lead to a type that answers the question itself. -/
def LeadsToAnswer (d : Dictionary) (q : Selection) (this : TypeId) : Prop :=
  ∃ c, ReflTransGen d.HasChoice this c ∧ d.AnswersItself q c

theorem LeadsToAnswer.exists_find? (h : d.LeadsToAnswer q this) : ∃ t, d.find? this = some t := by
  obtain ⟨c, hc, u, hu, -⟩ := h
  rcases ReflTransGen.cases_head hc with rfl | ⟨_, ⟨t, ht, -⟩, -⟩
  · exact ⟨u, hu⟩
  · exact ⟨t, ht⟩

section isOpen

variable (hac : d.checkAcyclic = .ok ()) (hchoices : d.ChoicesResolve)
  (hopen : ∀ id t, q.ofChoice id t = .ok none)
  (hleaf : ∀ id t, d.find? id = some t → t.select? = none → ∃ r, q.ofLeaf id t = .ok r)

include hac hchoices hopen hleaf

theorem admitted?_decides_of_open (hthis : (d.find? this).isSome) :
    ∃ r, d.admitted? q [] this = .ok r ∧ (r.isSome ↔ d.LeadsToAnswer q this) := by
  have hcycle : ¬ MeetsCycle d.HasChoice this := not_meetsCycle_hasChoice hac hchoices
  have hsettles : Settles d.HasChoice (d.AnswersItself q) (· ∈ []) d.NamesSelect this
      ((d.admitted? q [] this).map Option.isSome) :=
    admitted?_settles hopen (fun _ hc => hchoices.isSome_of_reaches hthis hc)
      (fun c t _ => hleaf c t) fun _ hp => absurd hp List.not_mem_nil
  obtain ⟨found, hfound⟩ := hsettles.exists_eq_ok hcycle
  obtain ⟨r, hr, rfl⟩ := map_eq_ok_iff.mp hfound
  have htrue := hsettles.eq_ok_true_iff hcycle
  rw [hfound, Except.ok.injEq] at htrue
  exact ⟨r, hr, htrue⟩

theorem exists_admitted?_iff_of_open :
    (∃ a, d.admitted? q [] this = .ok (some a)) ↔ d.LeadsToAnswer q this := by
  have hdecides (hthis : (d.find? this).isSome) :=
    admitted?_decides_of_open hac hchoices hopen hleaf hthis
  constructor
  · rintro ⟨a, ha⟩
    obtain ⟨t, ht, -⟩ := Traversal.bind_eq_ok_iff.mp ((admitted?_eq ..).symm.trans ha)
    obtain ⟨r, hr, hiff⟩ := hdecides (Option.isSome_iff_exists.mpr ⟨t, require_eq_ok_iff.mp ht⟩)
    rw [ha] at hr
    cases hr
    exact hiff.mp rfl
  · intro h
    obtain ⟨t, ht⟩ := h.exists_find?
    obtain ⟨r, hr, hiff⟩ := hdecides (Option.isSome_iff_exists.mpr ⟨t, ht⟩)
    obtain ⟨a, rfl⟩ := Option.isSome_iff_exists.mp (hiff.mpr h)
    exact ⟨a, hr⟩

open Classical in
/-- The answer for a select type that has none of its own is the first choice from where nested
choices lead to one. -/
theorem admitted?_select_of_open {t : Descriptor} (hthis : d.find? this = some t)
    (hsel : t.select?.isSome) (hself : q.ofSelect this t = false) :
    d.admitted? q [] this = .ok (t.choices.find? fun c => d.LeadsToAnswer q c) := by
  obtain ⟨r, hr, -⟩ := admitted?_decides_of_open hac hchoices hopen hleaf
    (Option.isSome_iff_exists.mpr ⟨t, hthis⟩)
  rw [hr, admitted?_eq_find?_of_open hopen hthis hsel hself hr]
  simp only [exists_admitted?_iff_of_open hac hchoices hopen hleaf]

end isOpen

theorem admitted?_of_unknown (q : Selection) (hthis : d.find? this = none) :
    d.admitted? q [] this = .error (.unknownType this) := by
  rw [admitted?_eq]
  unfold require
  rw [hthis]
  rfl

/-! ### Names -/

/-- Nested choices lead to a select type of the name, or to a type that is none and has the name on
its chain before an unnamed descriptor. -/
def HoldsNamed (d : Dictionary) (this : TypeId) (name : String) : Prop :=
  ∃ c t, ReflTransGen d.HasChoice this c ∧ d.find? c = some t ∧
    (t.select?.isSome ∧ t.ownName name = true ∨
      t.select? = none ∧ ∃ found, d.FirstNamed c name found)

theorem holdsNamed_iff {name : String} :
    d.HoldsNamed this name ↔ d.LeadsToAnswer (d.holdingNamed name) this := by
  constructor
  · rintro ⟨c, t, hreach, ht, h⟩
    refine ⟨c, hreach, (answersItself_iff (fun _ _ => rfl) ht).mpr ?_⟩
    simpa [holdingNamed, isANamed?_eq_ok_some_iff] using h
  · rintro ⟨c, hreach, t, ht, h⟩
    refine ⟨c, t, hreach, ht, ?_⟩
    have hself := (answersItself_iff (fun _ _ => rfl) ht).mp ⟨t, ht, h⟩
    simpa [holdingNamed, isANamed?_eq_ok_some_iff] using hself

theorem exists_isANamed?_eq_ok (hac : d.checkAcyclic = .ok ()) {id : TypeId} {t : Descriptor}
    (hid : d.find? id = some t) (name : String) : ∃ r, d.isANamed? id name = .ok r := by
  obtain ⟨found, hfound⟩ := exists_walkFrom_eq_ok hac (fun u => !u.isNamed || u.ownName name) hid
  exact ⟨_, map_eq_ok_iff.mpr ⟨found, hfound, rfl⟩⟩

open Classical in
/-- What the search for what lets a type hold one of a name answers, where no link leads back and
all choices are types. -/
theorem canBeNamed?_decides (hac : d.checkAcyclic = .ok ()) (hchoices : d.ChoicesResolve)
    (this : TypeId) (name : String) :
    ((∃ r, d.canBeNamed? this name = .ok r) ↔ (d.find? this).isSome) ∧
    ((∃ a, d.canBeNamed? this name = .ok (some a)) ↔ d.HoldsNamed this name) ∧
    (∀ t, d.find? this = some t → t.select?.isSome →
      d.canBeNamed? this name = .ok (if t.ownName name then some this
        else t.choices.find? fun c => d.HoldsNamed c name)) ∧
    ∀ t, d.find? this = some t → t.select? = none → ∀ found,
      d.canBeNamed? this name = .ok (some found) ↔ d.FirstNamed this name found := by
  have hopen : ∀ id t, (d.holdingNamed name).ofChoice id t = .ok none := fun _ _ => rfl
  have hleaf : ∀ id t, d.find? id = some t → t.select? = none →
      ∃ r, (d.holdingNamed name).ofLeaf id t = .ok r :=
    fun id t hid _ => exists_isANamed?_eq_ok hac hid name
  unfold canBeNamed?
  simp only [holdsNamed_iff]
  refine ⟨?_, exists_admitted?_iff_of_open hac hchoices hopen hleaf, ?_, ?_⟩
  · constructor
    · rintro ⟨r, hr⟩
      cases hthis : d.find? this with
      | none =>
          rw [admitted?_of_unknown _ hthis] at hr
          cases hr
      | some t => rfl
    · intro hthis
      obtain ⟨r, hr, -⟩ := admitted?_decides_of_open hac hchoices hopen hleaf hthis
      exact ⟨r, hr⟩
  · intro t hthis hsel
    by_cases hself : t.ownName name = true
    · rw [if_pos hself, admitted?_of_select hac _ hthis hsel]
      exact if_pos hself
    · rw [if_neg hself]
      exact admitted?_select_of_open hac hchoices hopen hleaf hthis hsel
        (Bool.eq_false_of_not_eq_true hself)
  · intro t hthis hsel found
    rw [admitted?_of_not_select _ hthis hsel]
    exact isANamed?_eq_ok_some_iff

/-- A label, an alias of it that has no name, named aliases of the two, and a select type of these
two that stands second among the choices of another. -/
def glossary : Dictionary where
  config := {}
  descriptors := #[
    { name := "Label", description := "STRING", body := .plain .string },
    aliasOf "" ⟨0⟩, aliasOf "caption" ⟨1⟩, aliasOf "heading" ⟨0⟩,
    selectOf "Text" [⟨2⟩, ⟨3⟩], selectOf "Content" [⟨2⟩, ⟨4⟩]]
  schemas := #[]

theorem canBeNamed?_decides_glossary :
    glossary.checkAcyclic = .ok () ∧ glossary.ChoicesResolve ∧
      glossary.HoldsNamed ⟨5⟩ "LABEL" ∧ glossary.FirstNamed ⟨3⟩ "LABEL" ⟨0⟩ ∧
      ¬ glossary.HoldsNamed ⟨2⟩ "LABEL" := by
  have hac : glossary.checkAcyclic = .ok () := by cbv
  have hchoices : glossary.ChoicesResolve := by decide +kernel
  have hheld : glossary.canBeNamed? ⟨5⟩ "LABEL" = .ok (some ⟨4⟩) := by cbv
  have hnamed : glossary.canBeNamed? ⟨3⟩ "LABEL" = .ok (some ⟨0⟩) := by cbv
  have hdenied : glossary.canBeNamed? ⟨2⟩ "LABEL" = .ok none := by cbv
  obtain ⟨-, hholds, -, -⟩ := canBeNamed?_decides hac hchoices ⟨5⟩ "LABEL"
  obtain ⟨-, -, -, hfirst⟩ := canBeNamed?_decides hac hchoices ⟨3⟩ "LABEL"
  obtain ⟨-, hnot, -, -⟩ := canBeNamed?_decides hac hchoices ⟨2⟩ "LABEL"
  refine ⟨hac, hchoices, hholds.mp ⟨_, hheld⟩, (hfirst _ rfl rfl ⟨0⟩).mp hnamed, ?_⟩
  intro hno
  obtain ⟨a, ha⟩ := hnot.mpr hno
  rw [hdenied] at ha
  cases ha

end ExpressModel.Dictionary
