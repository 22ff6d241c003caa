import Mathlib
import ExpressModel.Proofs.Resolve.Membership

/-! # Admission in acyclic dictionaries

The search through the choices of a select type carries the path of the select types it is inside
of, only to refuse a cycle.  Where there is none the path has no say (`admitted?_of_leadsTo`), so
a choice is asked as if it had been asked by itself: it serves when it answers the question, by
itself or through what is behind it (`Serves`).  A question that is never refused gets the first
choice that serves for its answer (`admitted?_eq_find?`).

An answer comes from a type that nested choices lead to and that answers the question itself
(`exists_accepts_of_admitted?`), and such a type gives an answer where no choice keeps the
question from what is behind it (`exists_admitted?_of_reaches`). -/

namespace ExpressModel.Dictionary

open Relation (ReflTransGen)

variable {d : Dictionary} {q : Selection}

/-! ### Paths -/

theorem firstAdmitting?_congr {path path' : List TypeId} {choices : List TypeId}
    (h : ∀ c ∈ choices, d.admitted? q path c = d.admitted? q path' c) :
    d.firstAdmitting? q path choices = d.firstAdmitting? q path' choices := by
  induction choices with
  | nil => rw [firstAdmitting?_nil, firstAdmitting?_nil]
  | cons choice rest ih =>
      have hrest := ih fun c hc => h c (List.mem_cons_of_mem _ hc)
      rw [firstAdmitting?_cons, firstAdmitting?_cons, hrest, h choice List.mem_cons_self]

theorem admitted?_of_leadsTo (hac : d.checkAcyclic = .ok ()) (q : Selection) {path : List TypeId}
    {this : TypeId} (hlead : d.LeadsTo path this) :
    d.admitted? q path this = d.admitted? q [] this := by
  induction hn : d.height this using Nat.strong_induction_on generalizing path this with
  | h n ih =>
      rw [admitted?_eq, admitted?_eq]
      cases hreq : d.require this with
      | error e => rfl
      | ok t =>
          have hthis := require_eq_ok_iff.mp hreq
          have hdeeper : d.firstAdmitting? q (this :: path) t.choices =
              d.firstAdmitting? q [this] t.choices := by
            refine firstAdmitting?_congr fun c hc => ?_
            have hlinked := linked_of_mem_choices hthis hc
            by_cases hsome : (d.find? c).isSome
            · have hlt := height_lt_of_linked hac (hlinked hsome)
              rw [ih _ (by omega) (hlead.cons hthis hlinked) rfl,
                ih _ (by omega) ((leadsTo_nil d this).cons hthis hlinked) rfl]
            · have hnone : d.require c = .error (.unknownType c) := by
                unfold require
                rw [Option.not_isSome_iff_eq_none.mp hsome]
              rw [admitted?_eq, admitted?_eq, hnone]
              rfl
          simp only [bind, Except.bind, if_neg (hlead.not_mem hac hthis),
            if_neg ((leadsTo_nil d this).not_mem hac hthis), hdeeper]

/-- The answer for a select type is its own or comes from its choices. -/
theorem admitted?_of_select (hac : d.checkAcyclic = .ok ()) (q : Selection) {this : TypeId}
    {t : Descriptor} (hthis : d.find? this = some t) (hsel : t.select?.isSome) :
    d.admitted? q [] this =
      if q.ofSelect this t then .ok (some this) else d.firstAdmitting? q [] t.choices := by
  obtain ⟨b, hb⟩ := Option.isSome_iff_exists.mp hsel
  have hchoices : d.firstAdmitting? q [this] t.choices = d.firstAdmitting? q [] t.choices := by
    refine firstAdmitting?_congr fun c hc => ?_
    exact admitted?_of_leadsTo hac q
      ((leadsTo_nil d this).cons hthis (linked_of_mem_choices hthis hc))
  rw [admitted?_eq, require_eq_ok_iff.mpr hthis]
  simp only [bind, Except.bind, hb, List.not_mem_nil, if_false, hchoices]

theorem admitted?_of_not_select (q : Selection) {this : TypeId} {t : Descriptor}
    (hthis : d.find? this = some t) (hsel : t.select? = none) :
    d.admitted? q [] this = q.ofLeaf this t := by
  rw [admitted?_eq, require_eq_ok_iff.mpr hthis]
  simp only [bind, Except.bind, hsel]

/-! ### Choices that serve -/

/-- The choice answers the question, by itself or through what is behind it. -/
def Serves (d : Dictionary) (q : Selection) (c : TypeId) : Prop :=
  ∃ t, d.find? c = some t ∧ (q.ofChoice c t = .ok (some true) ∨
    q.ofChoice c t = .ok none ∧ ∃ a, d.admitted? q [] c = .ok (some a))

/-- The question is not refused by any type that it is put to. -/
structure NotRefused (d : Dictionary) (q : Selection) : Prop where
  leaf : ∀ id t, d.find? id = some t → ∃ r, q.ofLeaf id t = .ok r
  choice : ∀ id t, d.find? id = some t → ∃ r, q.ofChoice id t = .ok r

open Classical in
/-- Choices that do not refuse the question are answered by the first that serves. -/
theorem firstAdmitting?_eq_find? {choices : List TypeId}
    (h : ∀ c ∈ choices, ∃ t, d.find? c = some t ∧ (∃ r, q.ofChoice c t = .ok r) ∧
      ∃ r, d.admitted? q [] c = .ok r) :
    d.firstAdmitting? q [] choices = .ok (choices.find? fun c => d.Serves q c) := by
  induction choices with
  | nil => rw [firstAdmitting?_nil, List.find?_nil]
  | cons choice rest ih =>
      obtain ⟨t, ht, ⟨own, hown⟩, ⟨answer, hanswer⟩⟩ := h choice List.mem_cons_self
      have hrest := ih fun c hc => h c (List.mem_cons_of_mem _ hc)
      have hserves : d.Serves q choice ↔
          own = some true ∨ own = none ∧ ∃ a, answer = some a := by
        simp only [Serves, ht, Option.some.injEq, exists_eq_left', hown, hanswer, Except.ok.injEq]
      rw [firstAdmitting?_cons, require_eq_ok_iff.mpr ht, hrest]
      simp only [bind, Except.bind, hown, hanswer]
      cases own with
      | none =>
          cases answer with
          | none => rw [List.find?_cons_of_neg (by simp [hserves])]
          | some a => rw [List.find?_cons_of_pos (by simp [hserves])]
      | some own =>
          cases own with
          | false => rw [List.find?_cons_of_neg (by simp [hserves])]
          | true => rw [List.find?_cons_of_pos (by simp [hserves])]

/-- The search refuses nothing that its question does not refuse. -/
theorem exists_admitted?_eq_ok (hac : d.checkAcyclic = .ok ()) (hlinks : d.LinksResolve)
    (hq : d.NotRefused q) {this : TypeId} {t : Descriptor} (hthis : d.find? this = some t) :
    ∃ r, d.admitted? q [] this = .ok r := by
  induction hn : d.height this using Nat.strong_induction_on generalizing this t with
  | h n ih =>
      by_cases hsel : t.select?.isSome
      · rw [admitted?_of_select hac q hthis hsel]
        split
        · exact ⟨_, rfl⟩
        · rw [firstAdmitting?_eq_find?]
          · exact ⟨_, rfl⟩
          · intro c hc
            have hsome := hlinks.choice t (mem_descriptors_of_find? hthis) c hc
            obtain ⟨u, hu⟩ := Option.isSome_iff_exists.mp hsome
            have hlt := height_lt_of_linked hac (linked_of_mem_choices hthis hc hsome)
            exact ⟨u, hu, hq.choice c u hu, ih _ (by omega) hu rfl⟩
      · rw [admitted?_of_not_select q hthis (Option.not_isSome_iff_eq_none.mp hsel)]
        exact hq.leaf this t hthis

open Classical in
/-- The answer for a select type that has none of its own is the first choice that serves. -/
theorem admitted?_eq_find? (hac : d.checkAcyclic = .ok ()) (hlinks : d.LinksResolve)
    (hq : d.NotRefused q) {this : TypeId} {t : Descriptor} (hthis : d.find? this = some t)
    (hsel : t.select?.isSome) (hself : q.ofSelect this t = false) :
    d.admitted? q [] this = .ok (t.choices.find? fun c => d.Serves q c) := by
  rw [admitted?_of_select hac q hthis hsel, hself, if_neg Bool.false_ne_true]
  refine firstAdmitting?_eq_find? fun c hc => ?_
  have hsome := hlinks.choice t (mem_descriptors_of_find? hthis) c hc
  obtain ⟨u, hu⟩ := Option.isSome_iff_exists.mp hsome
  exact ⟨u, hu, hq.choice c u hu, exists_admitted?_eq_ok hac hlinks hq hu⟩

/-- Where a choice serves, the answer is one that stands no later. -/
theorem admitted?_le_of_serves (hac : d.checkAcyclic = .ok ()) (hlinks : d.LinksResolve)
    (hq : d.NotRefused q) {this : TypeId} {t : Descriptor} (hthis : d.find? this = some t)
    (hsel : t.select?.isSome) (hself : q.ofSelect this t = false) {i : Nat} {c : TypeId}
    (hc : t.choices[i]? = some c) (hserves : d.Serves q c) :
    ∃ j ≤ i, ∃ first, t.choices[j]? = some first ∧ d.admitted? q [] this = .ok (some first) := by
  classical
  rw [admitted?_eq_find? hac hlinks hq hthis hsel hself]
  cases hfind : t.choices.find? fun c => d.Serves q c with
  | none =>
      have hno := List.find?_eq_none.mp hfind c (List.mem_of_getElem? hc)
      exact absurd (decide_eq_true hserves) hno
  | some first =>
      obtain ⟨-, j, hj, hfirst, hbefore⟩ := List.find?_eq_some_iff_getElem.mp hfind
      refine ⟨j, ?_, first, ?_, rfl⟩
      · by_contra hlt
        have hi : i < j := by omega
        have hno := hbefore i hi
        rw [List.getElem?_eq_some_iff] at hc
        obtain ⟨_, rfl⟩ := hc
        simp [hserves] at hno
      · rw [List.getElem?_eq_some_iff]
        exact ⟨hj, hfirst⟩

/-- The choice that answers for a select type is one of its choices, and serves. -/
theorem serves_of_admitted? (hac : d.checkAcyclic = .ok ()) (hlinks : d.LinksResolve)
    (hq : d.NotRefused q) {this c : TypeId} {t : Descriptor} (hthis : d.find? this = some t)
    (hsel : t.select?.isSome) (hself : q.ofSelect this t = false)
    (h : d.admitted? q [] this = .ok (some c)) : c ∈ t.choices ∧ d.Serves q c := by
  classical
  rw [admitted?_eq_find? hac hlinks hq hthis hsel hself] at h
  have hfind := Except.ok.inj h
  have hserves := List.find?_some hfind
  exact ⟨List.mem_of_find?_eq_some hfind, of_decide_eq_true hserves⟩

/-! ### Nested choices -/

def HasChoice (d : Dictionary) (this choice : TypeId) : Prop :=
  ∃ t, d.find? this = some t ∧ choice ∈ t.choices

/-- A type answers the question itself: one that is no select type as it does, a select type
before its choices, or a choice before what is behind it. -/
inductive Accepts (q : Selection) (id : TypeId) (t : Descriptor) : Prop where
  | leaf (hsel : t.select? = none) (a : TypeId) (h : q.ofLeaf id t = .ok (some a))
  | select (hsel : t.select?.isSome) (h : q.ofSelect id t = true)
  | choice (h : q.ofChoice id t = .ok (some true))

theorem select?_isSome_of_mem_choices {t : Descriptor} {c : TypeId} (h : c ∈ t.choices) :
    t.select?.isSome := by
  unfold Descriptor.choices at h
  cases hsel : t.select? with
  | none =>
      rw [hsel] at h
      exact absurd h List.not_mem_nil
  | some b => rfl

/-- A question that no choice answers by itself is answered for a select type where it is for a
type at the end of nested choices. -/
theorem exists_admitted?_of_reaches (hac : d.checkAcyclic = .ok ()) (hlinks : d.LinksResolve)
    (hq : d.NotRefused q) (hopen : ∀ id t, q.ofChoice id t = .ok none) {this last : TypeId}
    (hreach : ReflTransGen d.HasChoice this last)
    (hlast : ∃ a, d.admitted? q [] last = .ok (some a)) :
    ∃ a, d.admitted? q [] this = .ok (some a) := by
  induction hreach using ReflTransGen.head_induction_on with
  | refl => exact hlast
  | @head this c hstep _ ih =>
      obtain ⟨t, hthis, hmem⟩ := hstep
      have hsel := select?_isSome_of_mem_choices hmem
      obtain ⟨u, hu⟩ := Option.isSome_iff_exists.mp
        (hlinks.choice t (mem_descriptors_of_find? hthis) c hmem)
      cases hself : q.ofSelect this t with
      | true =>
          refine ⟨this, ?_⟩
          rw [admitted?_of_select hac q hthis hsel, if_pos hself]
      | false =>
          obtain ⟨i, hi⟩ := List.getElem?_of_mem hmem
          have hserves : d.Serves q c := ⟨u, hu, Or.inr ⟨hopen c u, ih⟩⟩
          obtain ⟨_, _, first, _, hfirst⟩ :=
            admitted?_le_of_serves hac hlinks hq hthis hsel hself hi hserves
          exact ⟨first, hfirst⟩

/-- A type for which the question is answered reaches, through nested choices, one that answers
it itself. -/
theorem exists_accepts_of_admitted? (hac : d.checkAcyclic = .ok ()) (hlinks : d.LinksResolve)
    (hq : d.NotRefused q) {this a : TypeId} {t : Descriptor} (hthis : d.find? this = some t)
    (h : d.admitted? q [] this = .ok (some a)) :
    ∃ last u, ReflTransGen d.HasChoice this last ∧ d.find? last = some u ∧ Accepts q last u := by
  induction hn : d.height this using Nat.strong_induction_on generalizing this a t with
  | h n ih =>
      by_cases hsel : t.select?.isSome
      · cases hself : q.ofSelect this t with
        | true => exact ⟨this, t, .refl, hthis, .select hsel hself⟩
        | false =>
            obtain ⟨hmem, u, hu, hanswer⟩ := serves_of_admitted? hac hlinks hq hthis hsel hself h
            have hstep : d.HasChoice this a := ⟨t, hthis, hmem⟩
            rcases hanswer with hown | ⟨-, b, hb⟩
            · exact ⟨a, u, .single hstep, hu, .choice hown⟩
            · have hsome : (d.find? a).isSome := by
                rw [hu]
                rfl
              have hlt := height_lt_of_linked hac (linked_of_mem_choices hthis hmem hsome)
              obtain ⟨last, v, hreach, hv, haccepts⟩ := ih _ (by omega) hu hb rfl
              exact ⟨last, v, .head hstep hreach, hv, haccepts⟩
      · have hnone := Option.not_isSome_iff_eq_none.mp hsel
        rw [admitted?_of_not_select q hthis hnone] at h
        exact ⟨this, t, .refl, hthis, .leaf hnone a h⟩

theorem Serves.exists_accepts (hac : d.checkAcyclic = .ok ()) (hlinks : d.LinksResolve)
    (hq : d.NotRefused q) {c : TypeId} (h : d.Serves q c) :
    ∃ last u, ReflTransGen d.HasChoice c last ∧ d.find? last = some u ∧ Accepts q last u := by
  obtain ⟨u, hu, hown | ⟨-, a, ha⟩⟩ := h
  · exact ⟨c, u, .refl, hu, .choice hown⟩
  · exact exists_accepts_of_admitted? hac hlinks hq hu ha

end ExpressModel.Dictionary
