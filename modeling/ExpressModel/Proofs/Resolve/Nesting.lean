import ExpressModel.Proofs.Declaration.Traversal
import ExpressModel.Proofs.Resolve.Search
import ExpressModel.Proofs.Resolve.Tags

/-! # Nested select types

Select types may be choices of each other, in a cycle even, and then the path that the search
through choices is inside of decides whether it is refused.  A search that is not refused does not
owe its answer to the path: from inside fewer select types the answer is the same
(`admitted?_of_subset`), and so it is in another dictionary where the types that the search comes
to carry answers over (`admitted?_of_carries`).  So whenever there is an answer for a select type,
it is the first choice that has one when it is asked by itself (`canBe?_eq_find?`).

Whether there is an answer is what a search that keeps its path says of all types that nested
choices lead to (`admitted?_settles`).  `canBe?_decides` spells this out for the question whether a
type may hold another. -/

namespace ExpressModel.Dictionary

open Relation (ReflTransGen TransGen)
open Traversal (AnswersIn bind_eq_ok_iff map_eq_ok_iff)

variable {d d' : Dictionary} {q q' : Selection} {this other : TypeId}

/-! ### Searches that answer what others answer -/

/-- A type carries an answer over from one question to another: what it answers to the one it
answers to the other, or it is a select type of the same choices. -/
structure Carries (q q' : Selection) (id : TypeId) (t t' : Descriptor) : Prop where
  leaf : t.select? = none → t'.select? = none ∧ AnswersIn (q.ofLeaf id t) (q'.ofLeaf id t')
  select : t.select?.isSome →
    t'.select?.isSome ∧ q'.ofSelect id t' = q.ofSelect id t ∧ t'.choices = t.choices
  choice : AnswersIn (q.ofChoice id t) (q'.ofChoice id t')

theorem Carries.refl (q : Selection) (id : TypeId) (t : Descriptor) : Carries q q id t t where
  leaf hsel := ⟨hsel, .refl _⟩
  select hsel := ⟨hsel, rfl, rfl⟩
  choice := .refl _

theorem firstAdmitting?_of_carries {path path' choices : List TypeId}
    (hcarry : ∀ c ∈ choices, ∀ t, d.find? c = some t →
      ∃ t', d'.find? c = some t' ∧ Carries q q' c t t')
    (hask : ∀ c ∈ choices, AnswersIn (d.admitted? q path c) (d'.admitted? q' path' c)) :
    AnswersIn (d.firstAdmitting? q path choices) (d'.firstAdmitting? q' path' choices) := by
  induction choices with
  | nil =>
      rw [firstAdmitting?_nil, firstAdmitting?_nil]
      exact .refl _
  | cons c rest ih =>
      have hrest := ih (fun c hc => hcarry c (List.mem_cons_of_mem _ hc))
        fun c hc => hask c (List.mem_cons_of_mem _ hc)
      intro r h
      rw [firstAdmitting?_cons] at h ⊢
      obtain ⟨t, ht, h⟩ := bind_eq_ok_iff.mp h
      obtain ⟨t', ht', hcarries⟩ := hcarry c List.mem_cons_self t (require_eq_ok_iff.mp ht)
      refine bind_eq_ok_iff.mpr ⟨t', require_eq_ok_iff.mpr ht', ?_⟩
      refine hcarries.choice.bind ?_ r h
      intro own
      match own with
      | some true => exact .refl _
      | some false => exact hrest
      | none =>
          refine (hask c List.mem_cons_self).bind ?_
          intro answer
          cases answer with
          | some a => exact .refl _
          | none => exact hrest

/-- Where all types that the search can come to carry answers over, so does the search, from inside
the same select types or fewer. -/
theorem admitted?_of_carries {P : TypeId → Prop} (hstep : ∀ s c, P s → d.HasChoice s c → P c)
    (hcarry : ∀ id t, P id → d.find? id = some t →
      ∃ t', d'.find? id = some t' ∧ Carries q q' id t t')
    {path path' : List TypeId} (hsub : path' ⊆ path) (hthis : P this) :
    AnswersIn (d.admitted? q path this) (d'.admitted? q' path' this) := by
  induction hn : d.offPath path using Nat.strong_induction_on generalizing path path' this with
  | h n ih =>
      intro r h
      rw [admitted?_eq] at h ⊢
      obtain ⟨t, ht, h⟩ := bind_eq_ok_iff.mp h
      have hfind := require_eq_ok_iff.mp ht
      obtain ⟨t', ht', hcarries⟩ := hcarry this t hthis hfind
      refine bind_eq_ok_iff.mpr ⟨t', require_eq_ok_iff.mpr ht', ?_⟩
      cases hsel : t.select? with
      | none =>
          obtain ⟨hsel', hleaf⟩ := hcarries.leaf hsel
          rw [hsel] at h
          rw [hsel']
          exact hleaf r h
      | some b =>
          obtain ⟨hsel', hself, hchoices⟩ := hcarries.select (by rw [hsel]; rfl)
          obtain ⟨b', hb'⟩ := Option.isSome_iff_exists.mp hsel'
          rw [hsel] at h
          rw [hb']
          dsimp only at h ⊢
          rw [hself, hchoices]
          by_cases hown : q.ofSelect this t = true
          · rwa [if_pos hown] at h ⊢
          · rw [if_neg hown] at h ⊢
            by_cases hmem : this ∈ path
            · rw [if_pos hmem] at h
              cases h
            · rw [if_neg hmem] at h
              rw [if_neg fun hmem' => hmem (hsub hmem')]
              have hnested : ∀ c ∈ t.choices, P c :=
                fun c hc => hstep this c hthis ⟨t, hfind, hc⟩
              refine firstAdmitting?_of_carries (fun c hc u hu => hcarry c u (hnested c hc) hu)
                (fun c hc => ih _ ?_ (List.cons_subset_cons this hsub) (hnested c hc) rfl) r h
              rw [← hn]
              exact offPath_cons_lt hfind hmem

/-- A search that answers does so from inside fewer select types, too. -/
theorem admitted?_of_subset {path path' : List TypeId} (hsub : path' ⊆ path) :
    AnswersIn (d.admitted? q path this) (d.admitted? q path' this) :=
  admitted?_of_carries (P := fun _ => True) (fun _ _ h _ => h)
    (fun id t _ ht => ⟨t, ht, .refl q id t⟩) hsub trivial

/-! ### Types that answer -/

def NamesSelect (d : Dictionary) (c : TypeId) (err : Error) : Prop :=
  ∃ t, d.find? c = some t ∧ t.select?.isSome ∧ err = .cyclicTypeGraph t.name

/-- The type answers the question itself. -/
def AnswersItself (d : Dictionary) (q : Selection) (c : TypeId) : Prop :=
  ∃ t, d.find? c = some t ∧ Accepts q c t

theorem hasChoice_iff {t : Descriptor} (hthis : d.find? this = some t) (c : TypeId) :
    d.HasChoice this c ↔ c ∈ t.choices := by
  constructor
  · rintro ⟨u, hu, hc⟩
    rw [hthis] at hu
    cases hu
    exact hc
  · intro hc
    exact ⟨t, hthis, hc⟩

theorem not_hasChoice_of_select?_eq_none {t : Descriptor} (hthis : d.find? this = some t)
    (hsel : t.select? = none) (c : TypeId) : ¬ d.HasChoice this c := by
  intro hc
  have hsome := select?_isSome_of_mem_choices ((hasChoice_iff hthis c).mp hc)
  rw [hsel] at hsome
  cases hsome

/-! ### Choices that are open

No choice answers the question by itself here; each is asked for what is behind it. -/

section isOpen

variable (hopen : ∀ id t, q.ofChoice id t = .ok none)

include hopen

theorem answersItself_iff {t : Descriptor} (hthis : d.find? this = some t) :
    d.AnswersItself q this ↔ t.select?.isSome ∧ q.ofSelect this t = true ∨
      t.select? = none ∧ ∃ a, q.ofLeaf this t = .ok (some a) := by
  constructor
  · rintro ⟨u, hu, haccepts⟩
    rw [hthis] at hu
    cases hu
    cases haccepts with
    | leaf hsel a h => exact .inr ⟨hsel, a, h⟩
    | select hsel h => exact .inl ⟨hsel, h⟩
    | choice h =>
        rw [hopen] at h
        cases h
  · rintro (⟨hsel, h⟩ | ⟨hsel, a, h⟩)
    · exact ⟨t, hthis, .select hsel h⟩
    · exact ⟨t, hthis, .leaf hsel a h⟩

theorem firstAdmitting?_cons_of_open {path rest : List TypeId} {c : TypeId} {t : Descriptor}
    (hc : d.require c = .ok t) :
    d.firstAdmitting? q path (c :: rest) =
      d.admitted? q path c >>= fun answer =>
        if answer.isSome then .ok (some c) else d.firstAdmitting? q path rest := by
  rw [firstAdmitting?_cons, hc]
  simp only [bind, Except.bind, hopen c t]
  cases d.admitted? q path c with
  | error e => rfl
  | ok answer => cases answer <;> rfl

theorem isSome_firstAdmitting?_eq_anyM {path choices : List TypeId}
    (hfind : ∀ c ∈ choices, (d.find? c).isSome) :
    (d.firstAdmitting? q path choices).map Option.isSome =
      choices.anyM fun c => (d.admitted? q path c).map Option.isSome := by
  induction choices with
  | nil =>
      rw [firstAdmitting?_nil]
      rfl
  | cons c rest ih =>
      obtain ⟨t, ht⟩ := Option.isSome_iff_exists.mp (hfind c List.mem_cons_self)
      have hrest := ih fun c hc => hfind c (List.mem_cons_of_mem _ hc)
      rw [firstAdmitting?_cons_of_open hopen (require_eq_ok_iff.mpr ht), List.anyM, ← hrest]
      cases d.admitted? q path c with
      | error e => rfl
      | ok answer => cases answer <;> rfl

open Classical in
theorem eq_find?_of_firstAdmitting? {path choices : List TypeId} {r : Option TypeId}
    (h : d.firstAdmitting? q path choices = .ok r) :
    r = choices.find? fun c => ∃ a, d.admitted? q path c = .ok (some a) := by
  induction choices with
  | nil =>
      rw [firstAdmitting?_nil] at h
      rw [List.find?_nil]
      exact (Except.ok.inj h).symm
  | cons c rest ih =>
      have h' := h
      rw [firstAdmitting?_cons] at h'
      obtain ⟨t, ht, -⟩ := bind_eq_ok_iff.mp h'
      rw [firstAdmitting?_cons_of_open hopen ht] at h
      obtain ⟨answer, hanswer, h⟩ := bind_eq_ok_iff.mp h
      cases answer with
      | some a =>
          rw [List.find?_cons_of_pos (by simp [hanswer])]
          exact (Except.ok.inj h).symm
      | none =>
          rw [List.find?_cons_of_neg (by simp [hanswer])]
          exact ih h

open Classical in
/-- The answer for a select type that has none of its own is the first choice that has one. -/
theorem admitted?_eq_find?_of_open {t : Descriptor} (hthis : d.find? this = some t)
    (hsel : t.select?.isSome) (hself : q.ofSelect this t = false) {r : Option TypeId}
    (h : d.admitted? q [] this = .ok r) :
    r = t.choices.find? fun c => ∃ a, d.admitted? q [] c = .ok (some a) := by
  obtain ⟨b, hb⟩ := Option.isSome_iff_exists.mp hsel
  rw [admitted?_eq, require_eq_ok_iff.mpr hthis] at h
  simp only [bind, Except.bind, hb, hself, Bool.false_eq_true, if_false, List.not_mem_nil] at h
  have houtside : d.firstAdmitting? q [] t.choices = .ok r :=
    firstAdmitting?_of_carries (fun c _ u hu => ⟨u, hu, .refl q c u⟩)
      (fun _ _ => admitted?_of_subset (List.nil_subset _)) r h
  exact eq_find?_of_firstAdmitting? hopen houtside

/-- The search through choices, from inside select types that lead to where it is. -/
theorem admitted?_settles {path : List TypeId}
    (hfind : ∀ c, ReflTransGen d.HasChoice this c → (d.find? c).isSome)
    (hleaf : ∀ c t, ReflTransGen d.HasChoice this c → d.find? c = some t → t.select? = none →
      ∃ r, q.ofLeaf c t = .ok r)
    (hpath : ∀ p ∈ path, TransGen d.HasChoice p this) :
    Settles d.HasChoice (d.AnswersItself q) (· ∈ path) d.NamesSelect this
      ((d.admitted? q path this).map Option.isSome) := by
  induction hn : d.offPath path using Nat.strong_induction_on generalizing path this with
  | h n ih =>
      obtain ⟨t, ht⟩ := Option.isSome_iff_exists.mp (hfind this .refl)
      have hself := answersItself_iff hopen ht
      rw [admitted?_eq, require_eq_ok_iff.mpr ht]
      simp only [bind, Except.bind]
      cases hsel : t.select? with
      | none =>
          obtain ⟨r, hr⟩ := hleaf this t .refl ht hsel
          simp only [hr, Except.map]
          cases r with
          | some a => exact .of_goal ⟨t, ht, .leaf hsel a hr⟩
          | none =>
              have hnext := not_hasChoice_of_select?_eq_none ht hsel
              refine .of_leaf hnext ?_ ?_
              · rw [hself]
                simp [hsel, hr]
              · intro hmem
                obtain ⟨c, hc, -⟩ := TransGen.head'_iff.mp (hpath this hmem)
                exact hnext c hc
      | some b =>
          have hsome : t.select?.isSome := by
            rw [hsel]
            rfl
          by_cases hown : q.ofSelect this t = true
          · simp only [if_pos hown]
            exact .of_goal ⟨t, ht, .select hsome hown⟩
          · by_cases hmem : this ∈ path
            · simp only [if_neg hown, if_pos hmem]
              exact .of_loop (hpath this hmem) ⟨t, ht, hsome, rfl⟩
            · simp only [if_neg hown, if_neg hmem]
              have hstep : ∀ c ∈ t.choices, d.HasChoice this c :=
                fun c hc => (hasChoice_iff ht c).mpr hc
              rw [isSome_firstAdmitting?_eq_anyM hopen fun c hc => hfind c (.single (hstep c hc))]
              have hnested : ∀ c ∈ t.choices, Settles d.HasChoice (d.AnswersItself q)
                  (· ∈ this :: path) d.NamesSelect c
                  ((d.admitted? q (this :: path) c).map Option.isSome) := by
                intro c hc
                refine ih _ ?_ (fun e he => hfind e (.head (hstep c hc) he))
                  (fun e u he => hleaf e u (.head (hstep c hc) he)) ?_ rfl
                · rw [← hn]
                  exact offPath_cons_lt ht hmem
                · intro p hp
                  rcases List.mem_cons.mp hp with rfl | hp
                  · exact .single (hstep c hc)
                  · exact (hpath p hp).tail (hstep c hc)
              refine .of_successors (hasChoice_iff ht) ?_ hmem ?_ ?_ hnested
              · rw [hself]
                simp [hsel, hown]
              · exact List.mem_cons_self
              · intro c hc
                exact List.mem_cons_of_mem _ hc

end isOpen

/-! ### May it hold another -/

open Classical in
/-- Whenever there is an answer for a select type that is not the other type, it is the first
choice that may hold the other. -/
theorem canBe?_eq_find? {t : Descriptor} (hthis : d.find? this = some t) (hsel : t.select?.isSome)
    (hne : this ≠ other) {r : Option TypeId} (h : d.canBe? this other = .ok r) :
    r = t.choices.find? fun c => ∃ a, d.canBe? c other = .ok (some a) :=
  admitted?_eq_find?_of_open (fun _ _ => rfl) hthis hsel (decide_eq_false hne) h

/-- Nested choices lead to the other type, itself a select type, or to a type that is no select
type and is a kind of the other. -/
def Comprises (d : Dictionary) (this other : TypeId) : Prop :=
  ∃ c t, ReflTransGen d.HasChoice this c ∧ d.find? c = some t ∧
    (t.select?.isSome ∧ c = other ∨ t.select? = none ∧ ∃ a, d.isA? c other = .ok (some a))

theorem comprises_iff : d.Comprises this other ↔
    ∃ c, ReflTransGen d.HasChoice this c ∧ d.AnswersItself (d.holding other) c := by
  constructor
  · rintro ⟨c, t, hreach, ht, h⟩
    refine ⟨c, hreach, (answersItself_iff (fun _ _ => rfl) ht).mpr ?_⟩
    simpa [holding] using h
  · rintro ⟨c, hreach, t, ht, h⟩
    refine ⟨c, t, hreach, ht, ?_⟩
    have hself := (answersItself_iff (fun _ _ => rfl) ht).mp ⟨t, ht, h⟩
    simpa [holding] using hself

theorem comprises_self {t : Descriptor} (hthis : d.find? this = some t) :
    d.Comprises this this := by
  refine ⟨this, t, .refl, hthis, ?_⟩
  cases hsel : t.select? with
  | none => exact .inr ⟨rfl, this, isA?_self hthis⟩
  | some b => exact .inl ⟨rfl, rfl⟩

open Classical in
/-- What the search for what lets a type hold another answers, where all nested choices are types
and no type that they lead to refuses to tell whether it is a kind of the other. -/
theorem canBe?_decides (hthis : (d.find? this).isSome)
    (hchoices : ∀ s c, ReflTransGen d.HasChoice this s → d.HasChoice s c → (d.find? c).isSome)
    (hleaf : ∀ c t, ReflTransGen d.HasChoice this c → d.find? c = some t → t.select? = none →
      ∃ r, d.isA? c other = .ok r) :
    (¬ MeetsCycle d.HasChoice this → ∃ r, d.canBe? this other = .ok r ∧
      (r.isSome ↔ this = other ∨ d.Comprises this other)) ∧
    (∀ t r, d.find? this = some t → t.select?.isSome → this ≠ other →
      d.canBe? this other = .ok r →
      r = t.choices.find? fun c => ∃ a, d.canBe? c other = .ok (some a)) ∧
    (∀ a, d.canBe? this other = .ok (some a) → d.Comprises this other) ∧
    (MeetsCycle d.HasChoice this → d.canBe? this other ≠ .ok none) ∧
    ∀ err, d.canBe? this other = .error err → ∃ c t, ReflTransGen d.HasChoice this c ∧
      TransGen d.HasChoice c c ∧ d.find? c = some t ∧ t.select?.isSome ∧
      err = .cyclicTypeGraph t.name := by
  obtain ⟨t, ht⟩ := Option.isSome_iff_exists.mp hthis
  have hsettles : Settles d.HasChoice (d.AnswersItself (d.holding other)) (· ∈ []) d.NamesSelect
      this ((d.canBe? this other).map Option.isSome) :=
    admitted?_settles (fun _ _ => rfl)
      (fun c hc => of_reaches (P := fun c => (d.find? c).isSome) hthis hchoices hc) hleaf
      fun p hp => absurd hp List.not_mem_nil
  refine ⟨?_, ?_, ?_, ?_, ?_⟩
  · intro hcycle
    have htrue := hsettles.eq_ok_true_iff hcycle
    obtain ⟨found, hfound⟩ := hsettles.exists_eq_ok hcycle
    obtain ⟨r, hr, rfl⟩ := map_eq_ok_iff.mp hfound
    refine ⟨r, hr, ?_⟩
    rw [hfound, Except.ok.injEq, ← comprises_iff] at htrue
    rw [htrue]
    constructor
    · exact .inr
    · rintro (rfl | h)
      · exact comprises_self ht
      · exact h
  · intro u r hu hsel hne h
    exact canBe?_eq_find? hu hsel hne h
  · intro a ha
    rw [ha] at hsettles
    exact comprises_iff.mpr hsettles
  · rintro hcycle hnone
    rw [hnone] at hsettles
    exact (hsettles.eq_ok_false_iff.mp rfl).2 hcycle
  · intro err herr
    rw [herr] at hsettles
    obtain ⟨c, hc, hloop, u, hu, hsel, rfl⟩ := hsettles
    exact ⟨c, u, hc, hloop, hu, hsel, rfl⟩

/-- An entity and one below it, select types one of which is a choice of two others, two select
types that are choices of each other, and an entity apart. -/
def nest : Dictionary where
  config := {}
  descriptors := #[entityBelow "a" [], entityBelow "b" [⟨0⟩], selectOf "p" [⟨1⟩],
    selectOf "q" [⟨2⟩], selectOf "r" [⟨2⟩, ⟨3⟩], selectOf "s" [⟨4⟩, ⟨6⟩], selectOf "t" [⟨5⟩],
    entityBelow "c" []]
  schemas := #[]

theorem canBe?_decides_nest :
    (nest.find? ⟨4⟩).isSome ∧ (nest.find? ⟨5⟩).isSome ∧
      (∀ s c, nest.HasChoice s c → (nest.find? c).isSome) ∧
      (∀ c t, nest.find? c = some t → ∀ other ∈ nest.typeIds, ∃ r, nest.isA? c other = .ok r) ∧
      nest.Comprises ⟨5⟩ ⟨0⟩ ∧ MeetsCycle nest.HasChoice ⟨5⟩ ∧
      ¬ MeetsCycle nest.HasChoice ⟨4⟩ := by
  have hr : (nest.find? ⟨4⟩).isSome := by rfl
  have hs : (nest.find? ⟨5⟩).isSome := by rfl
  have hlinks : nest.LinksResolve := by decide +kernel
  have hchoices : ∀ s c, nest.HasChoice s c → (nest.find? c).isSome := by
    rintro s c ⟨t, ht, hmem⟩
    exact hlinks.choice t (mem_descriptors_of_find? ht) c hmem
  have hasked : (nest.typeIds.all fun c =>
      nest.typeIds.all fun other => (nest.isA? c other).toBool) = true := by cbv
  have hleaf : ∀ c t, nest.find? c = some t → ∀ other ∈ nest.typeIds,
      ∃ r, nest.isA? c other = .ok r := by
    intro c t ht other hother
    have hc : c ∈ nest.typeIds := mem_typeIds.mpr (by rw [ht]; rfl)
    have hok := List.all_eq_true.mp (List.all_eq_true.mp hasked c hc) other hother
    cases h : nest.isA? c other with
    | error e =>
        rw [h] at hok
        cases hok
    | ok r => exact ⟨r, rfl⟩
  have hfound : nest.canBe? ⟨5⟩ ⟨0⟩ = .ok (some ⟨4⟩) := by cbv
  have hrefused : nest.canBe? ⟨5⟩ ⟨7⟩ = .error (.cyclicTypeGraph "s") := by cbv
  have hdenied : nest.canBe? ⟨4⟩ ⟨7⟩ = .ok none := by cbv
  have hfirst : (⟨0⟩ : TypeId) ∈ nest.typeIds := by decide +kernel
  have hlast : (⟨7⟩ : TypeId) ∈ nest.typeIds := by decide +kernel
  obtain ⟨-, -, haffirms, -, -⟩ := canBe?_decides hs (fun s c _ => hchoices s c)
    fun c t _ ht _ => hleaf c t ht ⟨0⟩ hfirst
  obtain ⟨-, -, -, -, hrefuses⟩ := canBe?_decides hs (fun s c _ => hchoices s c)
    fun c t _ ht _ => hleaf c t ht ⟨7⟩ hlast
  obtain ⟨-, -, -, hdenies, -⟩ := canBe?_decides hr (fun s c _ => hchoices s c)
    fun c t _ ht _ => hleaf c t ht ⟨7⟩ hlast
  obtain ⟨c, _, hreach, hloop, -⟩ := hrefuses _ hrefused
  exact ⟨hr, hs, hchoices, hleaf, haffirms _ hfound, ⟨c, hreach, hloop⟩,
    fun hcycle => hdenies hcycle hdenied⟩

end ExpressModel.Dictionary
