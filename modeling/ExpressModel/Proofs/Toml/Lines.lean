import Mathlib
import ExpressModel.Proofs.Toml.Scalar
import ExpressModel.Toml.Document

/-! # Lines of a document

A statement on a line of its own is read up to the end of that line (`Reads`): a header with a bare
key, and an assignment to a bare key of a value that is itself read up to the end of the line
(`ReadsValue`), such as a whole number, a truth value or a quoted text without escapes.

A text that is made of such lines, and of empty ones, is read as their statements, one after another
(`Written.readStatements_eq`). -/

namespace ExpressModel.Toml

/-- A character of a kind that has no blanks in it is no blank. -/
theorem isInlineBlank_eq_false {kind : Char → Bool} {c : Char} (hc : kind c = true)
    (hblank : kind ' ' = false) (htab : kind '\t' = false) : isInlineBlank c = false := by
  have hblank' : c ≠ ' ' := ne_of_apply_ne kind (by rw [hc, hblank]; decide)
  have htab' : c ≠ '\t' := ne_of_apply_ne kind (by rw [hc, htab]; decide)
  simp [isInlineBlank, hblank', htab']

/-! ### Keys -/

/-- A key that needs no quotes. -/
structure IsBareKey (key : List Char) : Prop where
  ne_nil : key ≠ []
  bare : ∀ c ∈ key, isBareKeyChar c = true

namespace IsBareKey

variable {key : List Char}

theorem exists_cons (h : IsBareKey key) :
    ∃ c cs, key = c :: cs ∧ isBareKeyChar c = true := by
  cases key with
  | nil => exact absurd rfl h.ne_nil
  | cons c cs => exact ⟨c, cs, rfl, h.bare c List.mem_cons_self⟩

/-- A text that opens with a key opens with no other character. -/
theorem append_ne (h : IsBareKey key) {c : Char} (hc : isBareKeyChar c = false)
    (rest more : List Char) : key ++ rest ≠ c :: more := by
  obtain ⟨d, ds, rfl, hd⟩ := h.exists_cons
  intro heq
  cases heq
  rw [hd] at hc
  cases hc

theorem skipInline_append (h : IsBareKey key) (rest : List Char) :
    skipInline (key ++ rest) = key ++ rest := by
  obtain ⟨d, ds, rfl, hd⟩ := h.exists_cons
  have hblank : isInlineBlank d = false := isInlineBlank_eq_false hd (by decide) (by decide)
  exact List.dropWhile_cons_of_neg (by simp [hblank])

theorem readKey_append (h : IsBareKey key) {rest : List Char}
    (hrest : rest.takeWhile isBareKeyChar = []) :
    readKey (key ++ rest) = some (String.ofList key, rest) := by
  have hrun : (key ++ rest).takeWhile isBareKeyChar = key := by
    rw [List.takeWhile_append_of_pos h.bare, hrest, List.append_nil]
  have hleft : (key ++ rest).dropWhile isBareKeyChar = rest := by
    have hall := List.takeWhile_append_dropWhile (p := isBareKeyChar) (l := rest)
    rw [hrest, List.nil_append] at hall
    rw [List.dropWhile_append_of_pos h.bare, hall]
  unfold readKey
  split
  · next heq => exact absurd heq (h.append_ne (by decide) rest _)
  · next heq => exact absurd heq (h.append_ne (by decide) rest _)
  · simp only [hrun, hleft]
    rw [if_neg (by simpa using h.ne_nil)]

/-- A bare key that no point follows is a path by itself. -/
theorem readPath_append (h : IsBareKey key) {rest : List Char}
    (hrest : rest.takeWhile isBareKeyChar = [])
    (hpoint : ∀ more, skipInline rest ≠ '.' :: more) :
    readPath (key ++ rest) = some ([String.ofList key], skipInline rest) := by
  show readParts (78 + 1) (key ++ rest) = _
  rw [readParts, h.skipInline_append, h.readKey_append hrest, Option.bind_some]
  dsimp only
  split
  · next heq => exact absurd heq (hpoint _)
  · rfl

end IsBareKey

/-! ### Values -/

/-- A value is read from a text, up to the end of its line. -/
def ReadsValue (text : List Char) (value : Setting) : Prop :=
  ∀ levels bound rest,
    readValue levels (bound + 1) (skipInline (text ++ '\n' :: rest)) = some (value, '\n' :: rest)

/-- A value that opens with none of the marks of other values is a scalar. -/
theorem readValue_scalar {c : Char} (hc : isScalarChar c = true) (levels bound : Nat)
    (cs : List Char) : readValue levels (bound + 1) (c :: cs) = readScalar (c :: cs) := by
  have hquote : c ≠ '"' := ne_of_apply_ne isScalarChar (by rw [hc]; decide)
  have hsingle : c ≠ '\'' := ne_of_apply_ne isScalarChar (by rw [hc]; decide)
  have hbracket : c ≠ '[' := ne_of_apply_ne isScalarChar (by rw [hc]; decide)
  have hbrace : c ≠ '\x7b' := ne_of_apply_ne isScalarChar (by rw [hc]; decide)
  unfold readValue
  split
  · next heq => exact absurd (List.cons.inj heq).1 hquote
  · next heq => exact absurd (List.cons.inj heq).1 hsingle
  · next heq => exact absurd (List.cons.inj heq).1 hbracket
  · next heq => exact absurd (List.cons.inj heq).1 hbrace
  · next heq => exact absurd (List.cons.inj heq).1 hbracket
  · next heq => exact absurd (List.cons.inj heq).1 hbrace
  · rfl

theorem readsValue_scalar {text : List Char} {value : Setting} (hne : text ≠ [])
    (hchars : ∀ c ∈ text, isScalarChar c = true) (hvalue : scalar? text = some value) :
    ReadsValue text value := by
  intro levels bound rest
  cases text with
  | nil => exact absurd rfl hne
  | cons c cs =>
      have hc := hchars c List.mem_cons_self
      have hblank : isInlineBlank c = false := isInlineBlank_eq_false hc (by decide) (by decide)
      have hskip : skipInline (c :: cs ++ '\n' :: rest) = c :: cs ++ '\n' :: rest :=
        List.dropWhile_cons_of_neg (by simp [hblank])
      rw [hskip, List.cons_append, readValue_scalar hc, ← List.cons_append,
        readScalar_line hchars, hvalue]
      rfl

theorem readsValue_toDigits {n : Nat} (hn : n ≤ Text.maxInt64) :
    ReadsValue (Nat.toDigits 10 n) (.integer n) :=
  readsValue_scalar Nat.toDigits_ne_nil (isDigits_toDigits n).isScalarChar (scalar?_toDigits hn)

theorem readsValue_true : ReadsValue ['t', 'r', 'u', 'e'] (.boolean true) := by
  refine readsValue_scalar (by simp) ?_ rfl
  intro c hc
  fin_cases hc <;> rfl

theorem readsValue_false : ReadsValue ['f', 'a', 'l', 's', 'e'] (.boolean false) := by
  refine readsValue_scalar (by simp) ?_ rfl
  intro c hc
  fin_cases hc <;> rfl

/-- Text without quotes and escapes is read up to the closing quotes. -/
theorem readBasic_append {text : List Char}
    (hplain : ∀ c ∈ text, isVisible c = true ∧ c ≠ '"' ∧ c ≠ '\\') (rest : List Char) :
    readBasic (text ++ '"' :: rest) = some (text, rest) := by
  induction text with
  | nil => rw [List.nil_append, readBasic]
  | cons c text ih =>
      obtain ⟨hvisible, hquote, hescape⟩ := hplain c List.mem_cons_self
      have hrest := ih fun d hd => hplain d (List.mem_cons_of_mem c hd)
      rw [List.cons_append, readBasic, if_pos hvisible, hrest]
      · rfl
      · exact hquote
      · exact hescape

theorem readsValue_quoted {text : List Char}
    (hplain : ∀ c ∈ text, isVisible c = true ∧ c ≠ '"' ∧ c ≠ '\\') :
    ReadsValue ('"' :: (text ++ ['"'])) (.text (String.ofList text)) := by
  intro levels bound rest
  have htext : '"' :: (text ++ ['"']) ++ '\n' :: rest = '"' :: (text ++ '"' :: '\n' :: rest) := by
    simp
  have hskip : skipInline ('"' :: (text ++ '"' :: '\n' :: rest)) =
      '"' :: (text ++ '"' :: '\n' :: rest) :=
    List.dropWhile_cons_of_neg (by decide)
  have hquoted : readQuoted ('"' :: (text ++ '"' :: '\n' :: rest)) =
      some (String.ofList text, '\n' :: rest) := by
    unfold readQuoted
    split
    · -- three quotes in a row would be in the text or run over the end of the line
      next cs heq =>
      cases text with
      | nil => simp at heq
      | cons c text =>
          have hc := (hplain c List.mem_cons_self).2.1
          simp [hc] at heq
    · next heq => simp at heq
    · next heq =>
      obtain ⟨-, rfl⟩ := List.cons.inj heq
      rw [readBasic_append hplain]
      rfl
    · next heq => simp at heq
    · next hdouble _ => exact absurd rfl (hdouble _)
  rw [htext, hskip]
  unfold readValue
  rw [hquoted]
  rfl

/-! ### Statements -/

/-- A statement is read from a line, up to its end, and begins where the line does. -/
structure Reads (line : List Char) (statement : Statement) : Prop where
  begins : ∀ rest, skipLines false (line ++ '\n' :: rest) = some (line ++ '\n' :: rest)
  reads : ∀ rest, readStatement (line ++ '\n' :: rest) = some (statement, '\n' :: rest)

theorem skipLines_cons {c : Char} (hblank : isInlineBlank c = false) (hcomment : c ≠ '#')
    (hline : c ≠ '\n') (hreturn : c ≠ '\r') (cs : List Char) :
    skipLines false (c :: cs) = some (c :: cs) := by
  rw [skipLines]
  · simp [hblank, hcomment]
  · exact hline
  · rintro - rfl
    exact absurd rfl hreturn

theorem reads_header {key : List Char} (h : IsBareKey key) :
    Reads ('[' :: (key ++ [']'])) (.table [String.ofList key]) where
  begins := fun rest =>
    skipLines_cons (by decide) (by decide) (by decide) (by decide) _
  reads := by
    intro rest
    have hline : '[' :: (key ++ [']']) ++ '\n' :: rest = '[' :: (key ++ ']' :: '\n' :: rest) := by
      simp
    have hpath : readPath (key ++ ']' :: '\n' :: rest) =
        some ([String.ofList key], ']' :: '\n' :: rest) :=
      h.readPath_append (List.takeWhile_cons_of_neg (by decide))
        (by simp [skipInline, isInlineBlank])
    rw [hline]
    unfold readStatement
    split
    · next heq => exact absurd (List.cons.inj heq).2 (h.append_ne (by decide) _ _)
    · next heq =>
      obtain ⟨-, rfl⟩ := List.cons.inj heq
      rw [hpath]
      rfl
    · next hother => exact absurd rfl (hother _)

theorem reads_assignment {key text : List Char} {value : Setting} (h : IsBareKey key)
    (hvalue : ReadsValue text value) :
    Reads (key ++ ' ' :: '=' :: ' ' :: text) (.assign [String.ofList key] value) where
  begins := by
    intro rest
    obtain ⟨c, cs, rfl, hc⟩ := h.exists_cons
    have hblank : isInlineBlank c = false := isInlineBlank_eq_false hc (by decide) (by decide)
    have hcomment : c ≠ '#' := ne_of_apply_ne isBareKeyChar (by rw [hc]; decide)
    have hline : c ≠ '\n' := ne_of_apply_ne isBareKeyChar (by rw [hc]; decide)
    have hreturn : c ≠ '\r' := ne_of_apply_ne isBareKeyChar (by rw [hc]; decide)
    exact skipLines_cons hblank hcomment hline hreturn _
  reads := by
    intro rest
    have hline : key ++ ' ' :: '=' :: ' ' :: text ++ '\n' :: rest =
        key ++ ' ' :: '=' :: ' ' :: (text ++ '\n' :: rest) := by
      simp
    have hpath : readPath (key ++ ' ' :: '=' :: ' ' :: (text ++ '\n' :: rest)) =
        some ([String.ofList key], '=' :: ' ' :: (text ++ '\n' :: rest)) :=
      h.readPath_append (List.takeWhile_cons_of_neg (by decide))
        (by simp [skipInline, isInlineBlank])
    have hskip : skipInline (' ' :: (text ++ '\n' :: rest)) = skipInline (text ++ '\n' :: rest) :=
      List.dropWhile_cons_of_pos (by decide)
    have hread : readValue maxDepth (2 * (' ' :: (text ++ '\n' :: rest)).length + 2)
        (skipInline (text ++ '\n' :: rest)) = some (value, '\n' :: rest) :=
      hvalue _ _ rest
    rw [hline]
    unfold readStatement
    split
    · next heq => exact absurd heq (h.append_ne (by decide) _ _)
    · next heq => exact absurd heq (h.append_ne (by decide) _ _)
    · simp only [hpath, hskip, hread, bind, Option.bind]
      rfl

/-! ### Texts -/

/-- A text of lines, a statement on each but the empty ones. -/
inductive Written : List Char → List Statement → Prop where
  | nil : Written [] []
  | blank {text : List Char} {statements : List Statement} (h : Written text statements) :
      Written ('\n' :: text) statements
  | line {line text : List Char} {statement : Statement} {statements : List Statement}
      (hline : Reads line statement) (h : Written text statements) :
      Written (line ++ '\n' :: text) (statement :: statements)

theorem readStatements_newline (bound : Nat) (cs : List Char) :
    readStatements bound ('\n' :: cs) = readStatements bound cs := by
  cases bound <;> rfl

theorem Written.readStatements_eq {text : List Char} {statements : List Statement}
    (h : Written text statements) {bound : Nat} (hbound : text.length < bound) :
    readStatements bound text = some statements := by
  induction h generalizing bound with
  | nil =>
      cases bound with
      | zero => cases hbound
      | succ bound => rfl
  | blank h ih =>
      rw [List.length_cons] at hbound
      rw [readStatements_newline, ih (by omega)]
  | @line line text statement statements hline h ih =>
      rw [List.length_append, List.length_cons] at hbound
      cases bound with
      | zero => cases hbound
      | succ bound =>
          have hrest : readStatements bound ('\n' :: text) = some statements := by
            rw [readStatements_newline, ih (by omega)]
          have hend : atLineEnd ('\n' :: text) = true := rfl
          rw [readStatements, hline.begins, Option.bind_eq_bind, Option.bind_some]
          split
          · next heq => simp at heq
          · rw [hline.reads, Option.bind_eq_bind, Option.bind_some]
            simp only [hend, hrest]
            rfl

end ExpressModel.Toml
