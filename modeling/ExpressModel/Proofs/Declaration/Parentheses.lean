import Mathlib
import ExpressModel.Declaration.SchemaText
import ExpressModel.Proofs.Building.Operation
import ExpressModel.Proofs.Declaration.Literals

/-! # Parentheses of type declarations

Whether the parentheses of a text match depends on nothing but its parentheses, in their order
(`balanced_iff_of_parens_eq`), and these are what a declaration keeps of a description: reflowing
adds none and takes none away.  An enumeration is written from behind its first parenthesis, after
one that the declaration opens itself; in a balanced description nothing is closed before the first
parenthesis is opened, so that is the same again (`parens_declared_of_open_mem`).

An enumeration may also list its literals without parentheses.  Then the one that the declaration
opens is never closed, and this is the only way in which the declaration of a type with a balanced
description fails to be balanced (`balanced_typeText_iff`). -/

namespace ExpressModel

namespace Text

/-! ### Balance -/

/-- The parentheses of a text match: no prefix closes more of them than it opens, and the whole
closes as many as it opens. -/
def Balanced (cs : List Char) : Prop :=
  (∀ before, before <+: cs → before.count ')' ≤ before.count '(') ∧ cs.count '(' = cs.count ')'

instance (cs : List Char) : Decidable (Balanced cs) :=
  decidable_of_iff
    ((∀ before ∈ cs.inits, before.count ')' ≤ before.count '(') ∧ cs.count '(' = cs.count ')')
    (by simp only [Balanced, List.mem_inits])

/-- The parentheses of a text, in their order. -/
def parens (cs : List Char) : List Char :=
  cs.filter fun c => c = '(' || c = ')'

theorem parens_append (cs ds : List Char) : parens (cs ++ ds) = parens cs ++ parens ds :=
  List.filter_append ..

theorem parens_cons_open (cs : List Char) : parens ('(' :: cs) = '(' :: parens cs := rfl

theorem parens_eq_nil_iff {cs : List Char} : parens cs = [] ↔ '(' ∉ cs ∧ ')' ∉ cs := by
  rw [parens, List.filter_eq_nil_iff]
  constructor
  · intro h
    exact ⟨fun hopen => h '(' hopen rfl, fun hclose => h ')' hclose rfl⟩
  · rintro ⟨hopen, hclose⟩ c hc hparen
    rw [Bool.or_eq_true, decide_eq_true_eq, decide_eq_true_eq] at hparen
    rcases hparen with rfl | rfl
    · exact hopen hc
    · exact hclose hc

theorem count_open_parens (cs : List Char) : (parens cs).count '(' = cs.count '(' :=
  List.count_filter rfl

theorem count_close_parens (cs : List Char) : (parens cs).count ')' = cs.count ')' :=
  List.count_filter rfl

theorem balanced_parens (cs : List Char) : Balanced (parens cs) ↔ Balanced cs := by
  unfold Balanced
  rw [count_open_parens, count_close_parens]
  refine and_congr_left fun _ => ?_
  constructor
  · intro h before hbefore
    rw [← count_open_parens, ← count_close_parens]
    exact h _ (hbefore.filter _)
  · intro h before hbefore
    obtain ⟨longer, hlonger, rfl⟩ := List.prefix_filter_iff.mp hbefore
    show (parens longer).count ')' ≤ (parens longer).count '('
    rw [count_open_parens, count_close_parens]
    exact h longer hlonger

theorem balanced_iff_of_parens_eq {cs ds : List Char} (h : parens cs = parens ds) :
    Balanced cs ↔ Balanced ds := by
  rw [← balanced_parens cs, h, balanced_parens]

/-- In a balanced text nothing is closed before anything is opened. -/
theorem Balanced.close_not_mem {before cs : List Char} (h : Balanced cs) (hbefore : before <+: cs)
    (hopen : '(' ∉ before) : ')' ∉ before := by
  have hle := h.1 before hbefore
  rw [List.count_eq_zero_of_not_mem hopen, Nat.le_zero] at hle
  exact List.count_eq_zero.mp hle

/-! ### Rewriting -/

/-- Characters rewritten one by one keep their parentheses if each keeps its own. -/
theorem parens_flatMap {piece : Char → List Char} (h : ∀ c, parens (piece c) = parens [c])
    (cs : List Char) : parens (cs.flatMap piece) = parens cs := by
  induction cs with
  | nil => rfl
  | cons c cs ih => rw [List.flatMap_cons, parens_append, h, ih, ← parens_append]; rfl

theorem parens_singleton_toLower (c : Char) : parens [c.toLower] = parens [c] := by
  have hopen : c.toLower = '(' ↔ c = '(' := toLower_eq_iff (by decide)
  have hclose : c.toLower = ')' ↔ c = ')' := toLower_eq_iff (by decide)
  by_cases hparen : c = '(' ∨ c = ')'
  · rcases hparen with rfl | rfl <;> rfl
  · obtain ⟨hno, hnc⟩ := not_or.mp hparen
    have hnil : parens [c] = [] := by
      rw [parens_eq_nil_iff, List.mem_singleton, List.mem_singleton]
      exact ⟨Ne.symm hno, Ne.symm hnc⟩
    rw [hnil, parens_eq_nil_iff, List.mem_singleton, List.mem_singleton]
    exact ⟨fun h => hno (hopen.mp h.symm), fun h => hnc (hclose.mp h.symm)⟩

theorem parens_lower (s : String) : parens (lower s).toList = parens s.toList := by
  rw [toList_lower, List.map_eq_flatMap]
  exact parens_flatMap parens_singleton_toLower s.toList

theorem parens_descriptionPiece (c : Char) : parens (descriptionPiece c) = parens [c] := by
  unfold descriptionPiece
  split
  · next hc => rw [hc]; rfl
  · split
    · next hc => rw [hc]; rfl
    · exact parens_singleton_toLower c

theorem parens_reflowDescription (description : String) :
    parens (reflowDescription description).toList = parens description.toList := by
  rw [toList_reflowDescription]
  exact parens_flatMap parens_descriptionPiece _

theorem parens_reflowed (cs : List Char) : parens (reflowed cs) = parens cs := by
  refine parens_flatMap (fun c => ?_) cs
  unfold enumerationPiece
  split
  · next hc => rw [hc]; rfl
  · exact parens_singleton_toLower c

theorem exists_first_open {cs : List Char} (h : '(' ∈ cs) :
    ∃ before inner, cs = before ++ '(' :: inner ∧ '(' ∉ before ∧ afterOpen? cs = some inner := by
  obtain ⟨before, inner, rfl, hbefore⟩ := List.eq_append_cons_of_mem h
  exact ⟨before, inner, rfl, hbefore, afterOpen?_append hbefore inner⟩

/-- The declaration opens a parenthesis and goes on with those behind the first. -/
theorem parens_declared (cs : List Char) :
    parens (declared cs) = '(' :: parens ((afterOpen? cs).getD cs) := by
  have hheading : parens "ENUMERATION OF \n  (".toList = ['('] := by simp [parens]
  unfold declared
  rw [parens_append, hheading, parens_reflowed, List.singleton_append]

theorem parens_declared_of_open_mem {cs : List Char} (h : Balanced cs) (hopen : '(' ∈ cs) :
    parens (declared cs) = parens cs := by
  obtain ⟨before, inner, rfl, hbefore, hinner⟩ := exists_first_open hopen
  have hnone : parens before = [] :=
    parens_eq_nil_iff.mpr ⟨hbefore, h.close_not_mem (List.prefix_append _ _) hbefore⟩
  rw [parens_declared, hinner, Option.getD_some, parens_append, hnone, List.nil_append,
    parens_cons_open]

/-- Without parentheses in the description, the one that the declaration opens is alone. -/
theorem parens_declared_of_open_not_mem {cs : List Char} (h : Balanced cs) (hopen : '(' ∉ cs) :
    parens (declared cs) = ['('] := by
  have hclose : ')' ∉ cs := h.close_not_mem List.prefix_rfl hopen
  rw [parens_declared, afterOpen?_eq_none_iff.mpr hopen, Option.getD_none,
    parens_eq_nil_iff.mpr ⟨hopen, hclose⟩]

theorem balanced_declared_iff {cs : List Char} (h : Balanced cs) :
    Balanced (declared cs) ↔ '(' ∈ cs := by
  by_cases hopen : '(' ∈ cs
  · rw [balanced_iff_of_parens_eq (parens_declared_of_open_mem h hopen)]
    exact iff_of_true h hopen
  · rw [← balanced_parens, parens_declared_of_open_not_mem h hopen]
    exact iff_of_false (by decide) hopen

end Text

/-! ### Type declarations -/

namespace Declaration

open Text (Balanced parens)

/-- A declaration without rules has the parentheses of its name and of the underlying type. -/
theorem parens_typeText {t : Descriptor} (h : t.whereRules.values = []) :
    parens (typeText t).toList = parens t.name.toList ++ parens (underlyingText t).toList := by
  have hrules : ruleBlock "WHERE" t.whereRules = "" := by
    unfold ruleBlock
    rw [h]
    rfl
  unfold typeText
  rw [hrules]
  simp only [String.toList_append, Text.parens_append, Text.parens_lower]
  simp [parens]

theorem balanced_underlyingText_iff {t : Descriptor} (h : Balanced t.description.toList) :
    Balanced (underlyingText t).toList ↔ (t.isEnumeration = true → '(' ∈ t.description.toList) := by
  cases ht : t.isEnumeration with
  | true =>
      rw [toList_underlyingText ht, Text.balanced_declared_iff h]
      exact ⟨fun hopen _ => hopen, fun hopen => hopen rfl⟩
  | false =>
      have hparens : parens (underlyingText t).toList = parens t.description.toList := by
        rw [underlyingText, ht]
        exact Text.parens_reflowDescription t.description
      rw [Text.balanced_iff_of_parens_eq hparens]
      exact iff_of_true h fun hfalse => absurd hfalse (by decide)

end Declaration

namespace Dictionary

open Text (Balanced)

/-- A type that is no entity, that has no rules and no parentheses in its name, and whose
description is balanced has a declaration.  This is balanced exactly when the type is no enumeration
or an enumeration whose description has parentheses. -/
theorem balanced_typeText_iff {d : Dictionary} {id : TypeId} {t : Descriptor}
    (ht : d.find? id = some t) (hentity : t.isEntity = false) (hrules : t.whereRules.values = [])
    (hname : '(' ∉ t.name.toList ∧ ')' ∉ t.name.toList)
    (hdescription : Balanced t.description.toList) :
    ∃ text, d.typeText id = .ok text ∧
      (Balanced text.toList ↔ (t.isEnumeration = true → '(' ∈ t.description.toList)) := by
  refine ⟨Declaration.typeText t, ?_, ?_⟩
  · unfold typeText
    rw [require_eq_ok_iff.mpr ht]
    show (if t.isEntity = true then _ else _) = _
    rw [hentity]
    rfl
  · rw [← Declaration.balanced_underlyingText_iff hdescription]
    refine Text.balanced_iff_of_parens_eq ?_
    rw [Declaration.parens_typeText hrules, Text.parens_eq_nil_iff.mpr hname, List.nil_append]

/-- An enumeration that lists its literals without parentheses, and one that has some within
others. -/
def colours : List Operation :=
  [.addSchema "Drawing",
    .insertType ⟨0⟩ { name := "Colour", description := "RED, GREEN", body := .enumeration none },
    .insertType ⟨0⟩ { name := "Shade", description := "ENUMERATION OF (RED (DARK), GREEN)"
                      body := .enumeration none }]

theorem balanced_typeText_colours : ∃ t text, (built {} colours).find? ⟨9⟩ = some t ∧
    t.isEntity = false ∧ t.whereRules.values = [] ∧ ('(' ∉ t.name.toList ∧ ')' ∉ t.name.toList) ∧
    Balanced t.description.toList ∧ (built {} colours).typeText ⟨9⟩ = .ok text ∧
    Balanced text.toList := by
  obtain ⟨t, ht, hname, hdescription, hentity, hrules⟩ :
      ∃ t, (built {} colours).find? ⟨9⟩ = some t ∧ t.name = "Shade" ∧
        t.description = "ENUMERATION OF (RED (DARK), GREEN)" ∧ t.isEntity = false ∧
          t.whereRules.values = [] :=
    ⟨_, by cbv, by cbv, by cbv, by cbv, by cbv⟩
  have hparens : '(' ∉ t.name.toList ∧ ')' ∉ t.name.toList := by
    rw [hname]
    decide
  have hbalanced : Balanced t.description.toList := by
    rw [hdescription]
    decide
  obtain ⟨text, htext, hiff⟩ := balanced_typeText_iff ht hentity hrules hparens hbalanced
  refine ⟨t, text, ht, hentity, hrules, hparens, hbalanced, htext, hiff.mpr fun _ => ?_⟩
  rw [hdescription]
  decide

/-- The first enumeration has the literals red and green, and a declaration that leaves a
parenthesis open. -/
theorem not_balanced_typeText_colours :
    ((built {} colours).find? ⟨8⟩).map (fun t => (t.name, t.description, t.literals,
        t.whereRules.values.length)) = some ("Colour", "RED, GREEN", ["red", "green"], 0) ∧
      Balanced "RED, GREEN".toList ∧
      (built {} colours).typeText ⟨8⟩ =
        .ok "TYPE colour = ENUMERATION OF \n  (red,\n   green;\nEND_TYPE;\n" ∧
      ¬ Balanced "TYPE colour = ENUMERATION OF \n  (red,\n   green;\nEND_TYPE;\n".toList := by
  refine ⟨by cbv, by decide, by cbv, by decide⟩

end Dictionary

end ExpressModel
