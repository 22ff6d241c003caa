import Mathlib
import ExpressModel.Declaration.TypeText

/-! # Literals of declared enumerations

The declaration of an enumeration opens a parenthesis of its own and goes on with the description
from behind the first one, a new line after every comma.  The literals of a description stand
behind its first opening parenthesis and before its last closing one; they are parted at commas,
trimmed, and written in lower case.

Reflowing adds nothing but blank characters behind commas, and these are trimmed away again
(`literalsIn_reflowed`), and it leaves every closing parenthesis where it is
(`beforeLastClose_reflowed`).  So the declared text has the literals of the description
(`literals_declared`), unless that closes a parenthesis without ever opening one: then the whole
of it is read, the closing parenthesis with it, and what is declared stops short of it. -/

namespace ExpressModel

namespace Text

/-! ### Letter case and blank characters -/

/-- A character that is no letter is what it is in either case. -/
theorem toLower_eq_iff {c x : Char} (hx : x.isAlpha = false) : c.toLower = x ↔ c = x := by
  by_cases hc : c.isUpper = true
  · have hletter : c.isAlpha = true := by
      rw [Char.isAlpha, hc, Bool.true_or]
    constructor
    · rintro rfl
      rw [Char.isAlpha_toLower_eq_isAlpha, hletter] at hx
      exact absurd hx (by decide)
    · rintro rfl
      rw [hletter] at hx
      exact absurd hx (by decide)
  · rw [Char.toLower_eq_of_not_isUpper hc]

theorem isAlpha_of_isBlank {c : Char} (h : isBlank c = true) : c.isAlpha = false := by
  simp only [isBlank, blankRanges, List.any_cons, List.any_nil, Bool.or_false, Bool.or_eq_true,
    Bool.and_eq_true, decide_eq_true_eq] at h
  rw [← Bool.not_eq_true]
  intro hletter
  simp only [Char.isAlpha, Char.isUpper, Char.isLower, Bool.or_eq_true, Bool.and_eq_true,
    decide_eq_true_eq, ge_iff_le, UInt32.le_iff_toNat_le] at hletter
  have hrange : 65 ≤ c.toNat ∧ c.toNat ≤ 90 ∨ 97 ≤ c.toNat ∧ c.toNat ≤ 122 := hletter
  omega

theorem isBlank_toLower (c : Char) : isBlank c.toLower = isBlank c := by
  rw [Bool.eq_iff_iff]
  constructor
  · intro h
    rwa [(toLower_eq_iff (isAlpha_of_isBlank h)).mp rfl]
  · intro h
    rwa [(toLower_eq_iff (isAlpha_of_isBlank h)).mpr rfl]

theorem trim_map_toLower (cs : List Char) :
    trim (cs.map Char.toLower) = (trim cs).map Char.toLower := by
  have hblank : isBlank ∘ Char.toLower = isBlank := funext isBlank_toLower
  unfold trim
  rw [List.dropWhile_map, hblank, ← List.map_reverse, List.dropWhile_map, hblank,
    ← List.map_reverse]

theorem trim_append_of_blank {before : List Char} (h : ∀ c ∈ before, isBlank c = true)
    (cs : List Char) : trim (before ++ cs) = trim cs := by
  unfold trim
  rw [List.dropWhile_append_of_pos h]

/-! ### Texts between commas -/

/-- A literal as it is read from the text that holds it. -/
def literal (cs : List Char) : List Char :=
  (trim cs).map Char.toLower

/-- The literals of a text that is parted at its commas. -/
def literalsIn (cs : List Char) : List (List Char) :=
  ((cs.splitOn ',').map literal).filter (· ≠ [])

theorem literalTexts_eq (cs : List Char) : literalTexts cs = literalsIn (literalList cs) := rfl

/-- The text of an enumeration as it is declared, from behind the parenthesis. -/
def reflowed (cs : List Char) : List Char :=
  cs.flatMap enumerationPiece

theorem literal_map_toLower (cs : List Char) : literal (cs.map Char.toLower) = literal cs := by
  unfold literal
  rw [trim_map_toLower, List.map_map]
  refine List.map_congr_left fun c _ => ?_
  exact Char.toLower_toLower_eq_toLower c

theorem literal_append_of_blank {before : List Char} (h : ∀ c ∈ before, isBlank c = true)
    (cs : List Char) : literal (before ++ cs) = literal cs := by
  unfold literal
  rw [trim_append_of_blank h]

theorem splitOn_reflowed {cs first : List Char} {rest : List (List Char)}
    (h : cs.splitOn ',' = first :: rest) :
    (reflowed cs).splitOn ',' =
      first.map Char.toLower :: rest.map fun l => ['\n', ' ', ' '] ++ l.map Char.toLower := by
  unfold reflowed
  induction cs generalizing first rest with
  | nil =>
      rw [List.splitOn_nil] at h
      obtain ⟨rfl, rfl⟩ := List.cons.inj h
      rfl
  | cons c cs ih =>
      rw [List.splitOn_cons_eq_if_modifyHead] at h
      obtain ⟨next, later, hcs⟩ := List.exists_cons_of_ne_nil (List.splitOn_ne_nil ',' cs)
      have hnext := ih hcs
      by_cases hc : c = ','
      · rw [if_pos (beq_iff_eq.mpr hc), hcs] at h
        obtain ⟨rfl, rfl⟩ := List.cons.inj h
        have hpiece : enumerationPiece c = [',', '\n', ' ', ' '] := if_pos hc
        rw [List.flatMap_cons, hpiece]
        simp [List.splitOn_cons_eq_if_modifyHead, hnext]
      · rw [if_neg (mt beq_iff_eq.mp hc), hcs, List.modifyHead_cons] at h
        obtain ⟨rfl, rfl⟩ := List.cons.inj h
        have hpiece : enumerationPiece c = [c.toLower] := if_neg hc
        have hlower : c.toLower ≠ ',' := mt (toLower_eq_iff (by decide)).mp hc
        rw [List.flatMap_cons, hpiece, List.singleton_append, List.splitOn_cons_eq_if_modifyHead,
          if_neg (mt beq_iff_eq.mp hlower), hnext, List.modifyHead_cons, List.map_cons]

theorem literalsIn_reflowed (cs : List Char) : literalsIn (reflowed cs) = literalsIn cs := by
  obtain ⟨first, rest, h⟩ := List.exists_cons_of_ne_nil (List.splitOn_ne_nil ',' cs)
  have hindent : ∀ c ∈ ['\n', ' ', ' '], isBlank c = true := by simp [isBlank, blankRanges]
  have hrest : (rest.map fun l => ['\n', ' ', ' '] ++ l.map Char.toLower).map literal =
      rest.map literal := by
    rw [List.map_map]
    refine List.map_congr_left fun l _ => ?_
    exact (literal_append_of_blank hindent _).trans (literal_map_toLower l)
  unfold literalsIn
  rw [splitOn_reflowed h, h, List.map_cons, List.map_cons, hrest, literal_map_toLower]

/-! ### Parentheses around literals -/

theorem afterOpen?_append {before : List Char} (h : '(' ∉ before) (inner : List Char) :
    afterOpen? (before ++ '(' :: inner) = some inner := by
  induction before with
  | nil => rfl
  | cons c before ih =>
      obtain ⟨hc, hbefore⟩ := not_or.mp (mt List.mem_cons.mpr h)
      rw [List.cons_append, afterOpen?, if_neg (Ne.symm hc), ih hbefore]

theorem beforeLastClose_of_not_mem {cs : List Char} (h : ')' ∉ cs) : beforeLastClose cs = cs :=
  if_neg h

theorem beforeLastClose_append (inner : List Char) {after : List Char} (h : ')' ∉ after) :
    beforeLastClose (inner ++ ')' :: after) = inner := by
  have hafter : ∀ c ∈ after.reverse, decide (c ≠ ')') = true := by
    intro c hc
    rw [decide_eq_true_eq]
    rintro rfl
    exact h (List.mem_reverse.mp hc)
  have hmem : ')' ∈ inner ++ ')' :: after := List.mem_append_right _ List.mem_cons_self
  rw [beforeLastClose, if_pos hmem, List.reverse_append, List.reverse_cons, List.append_assoc,
    List.dropWhile_append_of_pos hafter, List.singleton_append,
    List.dropWhile_cons_of_neg (by decide), List.drop_one, List.tail_cons, List.reverse_reverse]

theorem exists_last_close {cs : List Char} (h : ')' ∈ cs) :
    ∃ inner after, cs = inner ++ ')' :: after ∧ ')' ∉ after := by
  obtain ⟨after, inner, heq, hafter⟩ := List.eq_append_cons_of_mem (List.mem_reverse.mpr h)
  refine ⟨inner.reverse, after.reverse, ?_, mt List.mem_reverse.mp hafter⟩
  rw [← List.reverse_reverse cs, heq, List.reverse_append, List.reverse_cons, List.append_assoc,
    List.singleton_append]

theorem reflowed_append (cs ds : List Char) : reflowed (cs ++ ds) = reflowed cs ++ reflowed ds :=
  List.flatMap_append

theorem close_mem_reflowed {cs : List Char} : ')' ∈ reflowed cs ↔ ')' ∈ cs := by
  have hpiece : ∀ c, ')' ∈ enumerationPiece c ↔ c = ')' := by
    intro c
    by_cases hc : c = ','
    · simp [enumerationPiece, hc]
    · rw [enumerationPiece, if_neg hc, List.mem_singleton, eq_comm]
      exact toLower_eq_iff (by decide)
  simp [reflowed, List.mem_flatMap, hpiece]

theorem beforeLastClose_reflowed (cs : List Char) :
    beforeLastClose (reflowed cs) = reflowed (beforeLastClose cs) := by
  by_cases h : ')' ∈ cs
  · obtain ⟨inner, after, rfl, hafter⟩ := exists_last_close h
    rw [beforeLastClose_append inner hafter, reflowed_append]
    exact beforeLastClose_append _ (mt close_mem_reflowed.mp hafter)
  · rw [beforeLastClose_of_not_mem h,
      beforeLastClose_of_not_mem (mt close_mem_reflowed.mp h)]

/-- What is written of a description in the declaration of an enumeration. -/
def declared (cs : List Char) : List Char :=
  "ENUMERATION OF \n  (".toList ++ reflowed ((afterOpen? cs).getD cs)

/-- What is declared has the literals before the last closing parenthesis, whether or not one is
opened before. -/
theorem literalTexts_declared (cs : List Char) :
    literalTexts (declared cs) = literalsIn (beforeLastClose ((afterOpen? cs).getD cs)) := by
  have hopen : afterOpen? (declared cs) = some (reflowed ((afterOpen? cs).getD cs)) := by
    have hheading : '(' ∉ "ENUMERATION OF \n  ".toList := by decide
    have hsplit : "ENUMERATION OF \n  (".toList = "ENUMERATION OF \n  ".toList ++ ['('] := by decide
    unfold declared
    rw [hsplit, List.append_assoc, List.singleton_append, afterOpen?_append hheading]
  rw [literalTexts_eq, literalList, hopen]
  dsimp only
  rw [beforeLastClose_reflowed, literalsIn_reflowed]

theorem literalTexts_declared_eq {cs : List Char} (h : '(' ∈ cs ∨ ')' ∉ cs) :
    literalTexts (declared cs) = literalTexts cs := by
  rw [literalTexts_declared, literalTexts_eq, literalList]
  cases hopen : afterOpen? cs with
  | some inner => rfl
  | none =>
      have hclose : ')' ∉ cs := h.resolve_left (afterOpen?_eq_none_iff.mp hopen)
      rw [Option.getD_none, beforeLastClose_of_not_mem hclose]

end Text

/-! ### The declaration -/

namespace Declaration

/-- The declaration of a type that gives a text for the underlying type. -/
def typeAround (t : Descriptor) (text : String) : String :=
  "TYPE " ++ Text.lower t.name ++ " = " ++ text ++ ";\n" ++ ruleBlock "WHERE" t.whereRules ++
    "END_TYPE;\n"

theorem typeText_eq (t : Descriptor) : typeText t = typeAround t (underlyingText t) := rfl

/-- The text for the underlying type can be read off the declaration. -/
theorem typeAround_inj {t : Descriptor} {text text' : String} :
    typeAround t text = typeAround t text' ↔ text = text' := by
  unfold typeAround
  rw [String.append_left_inj, String.append_left_inj, String.append_left_inj,
    String.append_right_inj]

theorem toList_underlyingText {t : Descriptor} (h : t.isEnumeration = true) :
    (underlyingText t).toList = Text.declared t.description.toList := by
  rw [underlyingText, if_pos h, String.toList_append, Text.toList_reflowEnumeration]
  rfl

/-- Of an enumeration whose description opens a parenthesis or closes none, the declaration gives a
text that has the same literals, in the same order, in every enumeration that it describes. -/
theorem literals_declared (t : Descriptor) (ht : t.isEnumeration = true)
    (h : '(' ∈ t.description.toList ∨ ')' ∉ t.description.toList) :
    ∃ given, (∀ text, typeText t = typeAround t text ↔ text = given) ∧
      ∀ u : Descriptor, u.isEnumeration = true → u.description = given →
        u.literals = t.literals := by
  refine ⟨underlyingText t, ?_, ?_⟩
  · intro text
    rw [typeText_eq, typeAround_inj, eq_comm]
  · intro u hu hdescription
    unfold Descriptor.literals
    rw [if_pos hu, if_pos ht, hdescription, Text.literals, Text.literals, toList_underlyingText ht,
      Text.literalTexts_declared_eq h]

/-- An enumeration with parentheses within its literals and behind them, with an empty literal and
with a letter beyond `A`–`Z`. -/
def signals : Descriptor where
  name := "Signal"
  description := "Enumeration OF (RED, Grün (dark) ,, Blue) (*"
  body := .enumeration none

theorem literals_declared_signals : signals.isEnumeration = true ∧
    '(' ∈ signals.description.toList ∧ signals.literals = ["red", "grün (dark)", "blue"] ∧
    ∀ u : Descriptor, u.isEnumeration = true →
      u.description = "ENUMERATION OF \n  (red,\n   grün (dark) ,\n  ,\n   blue) (*" →
        u.literals = ["red", "grün (dark)", "blue"] := by
  have hopen : '(' ∈ signals.description.toList := by decide
  obtain ⟨given, hgiven, hliterals⟩ := literals_declared signals rfl (.inl hopen)
  have hsame : "ENUMERATION OF \n  (red,\n   grün (dark) ,\n  ,\n   blue) (*" = given :=
    (hgiven _).mp (by cbv)
  have hread : signals.literals = ["red", "grün (dark)", "blue"] := by cbv
  refine ⟨rfl, hopen, hread, ?_⟩
  intro u hu hdescription
  rw [← hread]
  exact hliterals u hu (hdescription.trans hsame)

end Declaration

end ExpressModel
