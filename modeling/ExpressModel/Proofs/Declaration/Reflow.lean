import ExpressModel.Proofs.Declaration.Parentheses

/-! # What reflowing keeps of a description

A text that is rewritten character by character can be read back, where every character is written
as a piece whose first character says which one it was (`flatMap_eq_flatMap_iff_of_head`), and
likewise where the last one does.  Breaking a line behind commas is of the first kind, up to the
case of letters, and setting off opening parentheses is of the second.

A plain description has its lines broken and then its parentheses set off
(`reflowDescription_eq_iff`), the literals of an enumeration have their lines broken only
(`reflowEnumeration_eq_iff`).  So nothing but the case of letters is lost, and two types are
declared with the same underlying type only if what is given of their descriptions is the same in
lower case (`told_apart_by_description`). -/

namespace ExpressModel

namespace Text

/-! ### Rewriting character by character -/

section pieces

variable {α β : Type} {piece : α → List β} {key : α → β} {as bs : List α}

/-- Texts rewritten in pieces are told apart by the first characters of the pieces, where these
determine the pieces. -/
theorem flatMap_eq_flatMap_iff_of_head (hhead : ∀ a, (piece a).head? = some (key a))
    (hkey : ∀ a b, key a = key b → piece a = piece b) :
    as.flatMap piece = bs.flatMap piece ↔ as.map key = bs.map key := by
  have hcons : ∀ a, ∃ rest, piece a = key a :: rest := fun a => List.head?_eq_some_iff.mp (hhead a)
  induction as generalizing bs with
  | nil =>
      cases bs with
      | nil => simp
      | cons b bs =>
          obtain ⟨rest, hb⟩ := hcons b
          simp [hb]
  | cons a as ih =>
      obtain ⟨rest, ha⟩ := hcons a
      cases bs with
      | nil => simp [ha]
      | cons b bs =>
          obtain ⟨rest', hb⟩ := hcons b
          have hrest : as.flatMap piece = bs.flatMap piece ↔ as.map key = bs.map key := ih
          rw [List.flatMap_cons, List.flatMap_cons, List.map_cons, List.map_cons, List.cons.injEq,
            ← hrest]
          constructor
          · intro h
            have hfirst : key a = key b := by
              rw [ha, hb] at h
              exact (List.cons.inj h).1
            rw [hkey a b hfirst] at h
            exact ⟨hfirst, List.append_cancel_left h⟩
          · rintro ⟨hfirst, hrest⟩
            rw [hkey a b hfirst, hrest]

theorem flatMap_eq_flatMap_iff_of_last (hlast : ∀ a, (piece a).getLast? = some (key a))
    (hkey : ∀ a b, key a = key b → piece a = piece b) :
    as.flatMap piece = bs.flatMap piece ↔ as.map key = bs.map key := by
  have hback : as.reverse.flatMap (fun a => (piece a).reverse) =
      bs.reverse.flatMap (fun a => (piece a).reverse) ↔ as.reverse.map key = bs.reverse.map key :=
    flatMap_eq_flatMap_iff_of_head (fun a => by rw [List.head?_reverse, hlast])
      (fun a b h => by rw [hkey a b h])
  rw [List.map_reverse, List.map_reverse, List.reverse_inj] at hback
  rw [← hback, ← List.reverse_inj, List.reverse_flatMap, List.reverse_flatMap]
  rfl

end pieces

/-! ### Line breaks and parentheses -/

theorem head?_enumerationPiece (c : Char) : (enumerationPiece c).head? = some c.toLower := by
  unfold enumerationPiece
  split
  · next hc => rw [hc]; rfl
  · rfl

theorem enumerationPiece_congr {c d : Char} (h : c.toLower = d.toLower) :
    enumerationPiece c = enumerationPiece d := by
  have hcomma : c = ',' ↔ d = ',' := by
    rw [← toLower_eq_iff (c := c) (by decide), h, toLower_eq_iff (by decide)]
  unfold enumerationPiece
  rw [h]
  simp only [hcomma]

theorem reflowed_eq_iff {cs ds : List Char} :
    reflowed cs = reflowed ds ↔ cs.map Char.toLower = ds.map Char.toLower :=
  flatMap_eq_flatMap_iff_of_head head?_enumerationPiece fun _ _ => enumerationPiece_congr

/-- An opening parenthesis goes on a line of its own. -/
def openPiece (c : Char) : List Char :=
  if c = '(' then ['\n', ' ', ' ', '('] else [c]

theorem getLast?_openPiece (c : Char) : (openPiece c).getLast? = some c := by
  unfold openPiece
  split
  · next hc => rw [hc]; rfl
  · rfl

theorem flatMap_openPiece_eq_iff {cs ds : List Char} :
    cs.flatMap openPiece = ds.flatMap openPiece ↔ cs = ds := by
  have hlast : cs.flatMap openPiece = ds.flatMap openPiece ↔ cs.map id = ds.map id :=
    flatMap_eq_flatMap_iff_of_last getLast?_openPiece fun _ _ h => congrArg _ h
  rw [hlast, List.map_id, List.map_id]

/-- A plain description is written with its lines broken, and then with its parentheses set off. -/
theorem flatMap_descriptionPiece (cs : List Char) :
    cs.flatMap descriptionPiece = (reflowed cs).flatMap openPiece := by
  have hpiece : ∀ c, descriptionPiece c = (enumerationPiece c).flatMap openPiece := by
    intro c
    by_cases hcomma : c = ','
    · rw [hcomma]; rfl
    · by_cases hopen : c = '('
      · rw [hopen]; rfl
      · have hlower : c.toLower ≠ '(' := mt (toLower_eq_iff (by decide)).mp hopen
        simp [descriptionPiece, enumerationPiece, openPiece, hcomma, hopen, hlower]
  unfold reflowed
  rw [List.flatMap_assoc]
  exact List.flatMap_congr fun c _ => hpiece c

theorem lower_eq_iff {s t : String} :
    lower s = lower t ↔ s.toList.map Char.toLower = t.toList.map Char.toLower := by
  rw [← toList_lower, ← toList_lower, String.toList_inj]

theorem reflowDescription_eq_iff {s t : String} :
    reflowDescription s = reflowDescription t ↔ lower s = lower t := by
  rw [← String.toList_inj, toList_reflowDescription, toList_reflowDescription,
    flatMap_descriptionPiece, flatMap_descriptionPiece, flatMap_openPiece_eq_iff, reflowed_eq_iff,
    lower_eq_iff]

/-! ### Enumerations -/

/-- The text behind the first opening parenthesis, or all of it when there is none. -/
def literalPart (s : String) : String :=
  if '(' ∈ s.toList then String.ofList (s.toList.dropWhile (· ≠ '(')).tail else s

theorem toList_literalPart (s : String) :
    (literalPart s).toList = (afterOpen? s.toList).getD s.toList := by
  unfold literalPart
  split
  · next hopen =>
    obtain ⟨before, inner, hs, hbefore, hinner⟩ := exists_first_open hopen
    have hskip : ∀ c ∈ before, decide (c ≠ '(') = true := by
      intro c hc
      rw [decide_eq_true_eq]
      rintro rfl
      exact hbefore hc
    rw [hinner, Option.getD_some, String.toList_ofList, hs, List.dropWhile_append_of_pos hskip]
    rfl
  · next hopen =>
    rw [afterOpen?_eq_none_iff.mpr hopen, Option.getD_none]

theorem reflowEnumeration_eq_iff {s t : String} :
    reflowEnumeration s = reflowEnumeration t ↔ lower (literalPart s) = lower (literalPart t) := by
  rw [← String.toList_inj, toList_reflowEnumeration, toList_reflowEnumeration,
    ← toList_literalPart, ← toList_literalPart, lower_eq_iff]
  exact reflowed_eq_iff

end Text

/-! ### Declarations -/

namespace Declaration

open Text (lower literalPart reflowDescription reflowEnumeration)

/-- What is given of a description in the declaration of a type. -/
def givenText (t : Descriptor) : String :=
  if t.isEnumeration then literalPart t.description else t.description

/-- The declarations of two types give the same text for the underlying type. -/
def DeclaredAlikeAs (t u : Descriptor) (text : String) : Prop :=
  typeText t = typeAround t text ∧ typeText u = typeAround u text

theorem declaredAlikeAs_iff {t u : Descriptor} {text : String} :
    DeclaredAlikeAs t u text ↔ underlyingText t = text ∧ underlyingText u = text := by
  unfold DeclaredAlikeAs
  rw [typeText_eq, typeText_eq, typeAround_inj, typeAround_inj]

theorem not_capital_mem_reflowDescription (description : String) :
    'E' ∉ (reflowDescription description).toList := by
  rw [Text.toList_reflowDescription, List.mem_flatMap]
  rintro ⟨c, -, hc⟩
  unfold Text.descriptionPiece at hc
  split at hc
  · exact absurd hc (by decide)
  · split at hc
    · exact absurd hc (by decide)
    · have hlower := congrArg Char.toLower (List.mem_singleton.mp hc)
      rw [Char.toLower_toLower_eq_toLower, ← List.mem_singleton.mp hc] at hlower
      exact absurd hlower (by decide)

/-- An enumeration is told from other types by its keyword, which is in capital letters. -/
theorem underlyingText_ne {t u : Descriptor} (ht : t.isEnumeration = true)
    (hu : u.isEnumeration = false) : underlyingText t ≠ underlyingText u := by
  have hcapital : 'E' ∈ "ENUMERATION OF \n  (".toList := by simp
  have hplain : underlyingText u = reflowDescription u.description :=
    if_neg (Bool.eq_false_iff.mp hu)
  intro h
  refine not_capital_mem_reflowDescription u.description ?_
  rw [← hplain, ← h, toList_underlyingText ht]
  unfold Text.declared
  exact List.mem_append_left _ hcapital

theorem underlyingText_eq_iff {t u : Descriptor} :
    underlyingText t = underlyingText u ↔
      t.isEnumeration = u.isEnumeration ∧ lower (givenText t) = lower (givenText u) := by
  cases ht : t.isEnumeration <;> cases hu : u.isEnumeration
  · simp only [underlyingText, givenText, ht, hu, true_and, Bool.false_eq_true, if_false]
    exact Text.reflowDescription_eq_iff
  · exact iff_of_false (underlyingText_ne hu ht).symm (by simp)
  · exact iff_of_false (underlyingText_ne ht hu) (by simp)
  · simp only [underlyingText, givenText, ht, hu, true_and, if_true, String.append_right_inj]
    exact Text.reflowEnumeration_eq_iff

/-- Reflowed texts are the same exactly when the descriptions, or of enumerations the parts behind
the first opening parenthesis, are the same in lower case.  Two declarations give the same text for
the underlying type exactly when both or neither of the types are enumerations and that holds of
what they give of the descriptions; so it holds of the whole descriptions of two types that are
none. -/
theorem told_apart_by_description (s s' : String) (t u : Descriptor) :
    (reflowDescription s = reflowDescription s' ↔ lower s = lower s') ∧
    (reflowEnumeration s = reflowEnumeration s' ↔ lower (literalPart s) = lower (literalPart s')) ∧
    ((∃ text, DeclaredAlikeAs t u text) ↔
      t.isEnumeration = u.isEnumeration ∧ lower (givenText t) = lower (givenText u)) ∧
    (t.isEnumeration = false → u.isEnumeration = false →
      lower t.description ≠ lower u.description → ¬ ∃ text, DeclaredAlikeAs t u text) := by
  have halike : (∃ text, DeclaredAlikeAs t u text) ↔
      t.isEnumeration = u.isEnumeration ∧ lower (givenText t) = lower (givenText u) := by
    simp only [declaredAlikeAs_iff, ← underlyingText_eq_iff]
    exact ⟨fun ⟨text, ht, hu⟩ => ht.trans hu.symm, fun h => ⟨_, rfl, h.symm⟩⟩
  refine ⟨Text.reflowDescription_eq_iff, Text.reflowEnumeration_eq_iff, halike, ?_⟩
  intro ht hu hdescription h
  have hgiven := (halike.mp h).2
  rw [givenText, givenText, ht, hu] at hgiven
  exact hdescription hgiven

/-- Two select types whose descriptions differ in a blank behind the comma. -/
def figures : Descriptor × Descriptor :=
  ({ name := "Figure", description := "SELECT (Point, Line)", body := .select {} },
    { name := "Figure", description := "SELECT (Point,Line)", body := .select {} })

theorem told_apart_figures :
    figures.1.isEnumeration = false ∧ figures.2.isEnumeration = false ∧
      lower figures.1.description ≠ lower figures.2.description ∧
      underlyingText figures.1 = "select \n  (point,\n   line)" ∧
      underlyingText figures.2 = "select \n  (point,\n  line)" ∧
      ¬ ∃ text, DeclaredAlikeAs figures.1 figures.2 text := by
  have hdescription : lower figures.1.description ≠ lower figures.2.description := by
    decide +kernel
  refine ⟨rfl, rfl, hdescription, by cbv, by cbv, ?_⟩
  exact (told_apart_by_description "" "" _ _).2.2.2 rfl rfl hdescription

end Declaration

end ExpressModel
