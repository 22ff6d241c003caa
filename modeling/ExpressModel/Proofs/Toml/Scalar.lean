import Mathlib
import ExpressModel.Toml.Scalar

/-! # Whole numbers as scalars

A whole number is written as its decimal digits, which open with no zero but a single one
(`opensPlain_toDigits`).  Digits alone are no date and no time of day, and stand for the number that
they are the digits of (`readDigits_toDigits`).  So a number that fits a word with a sign is read
back from its digits (`scalar?_toDigits`). -/

namespace ExpressModel

/-! ### Digits -/

/-- A text of digits, one at least. -/
structure Toml.IsDigits (cs : List Char) : Prop where
  ne_nil : cs ≠ []
  digit : ∀ c ∈ cs, c.isDigit = true

namespace Text

theorem digitValue?_digitChar {d : Nat} (h : d < 10) :
    digitValue? 10 (Nat.digitChar d) = some d := by
  interval_cases d <;> rfl

theorem readDigits_append (base n : Nat) (cs ds : List Char) :
    readDigits base n (cs ++ ds) = (readDigits base n cs).bind (readDigits base · ds) := by
  induction cs generalizing n with
  | nil => rfl
  | cons c cs ih =>
      rw [List.cons_append, readDigits, readDigits]
      cases digitValue? base c with
      | none => rfl
      | some v => exact ih _

/-- Digits stand for the number that they are the digits of. -/
theorem readDigits_toDigits (n : Nat) : readDigits 10 0 (Nat.toDigits 10 n) = some n := by
  induction n using Nat.strongRecOn with
  | ind n ih =>
      by_cases hn : n < 10
      · rw [Nat.toDigits_of_lt_base hn, readDigits, digitValue?_digitChar hn, Option.bind_some,
          Nat.zero_mul, Nat.zero_add]
        rfl
      · have hlt : n / 10 < n := by omega
        have hlast : n / 10 * 10 + n % 10 = n := by omega
        rw [Nat.toDigits_of_base_le (by decide) (Nat.le_of_not_lt hn), readDigits_append, ih _ hlt,
          Option.bind_some, readDigits, digitValue?_digitChar (by omega), Option.bind_some, hlast]
        rfl

end Text

namespace Toml

open Text

theorem isDigits_toDigits (n : Nat) : IsDigits (Nat.toDigits 10 n) where
  ne_nil := Nat.toDigits_ne_nil
  digit := fun _ hc => Nat.isDigit_of_mem_toDigits (by decide) (by decide) hc

theorem head?_toDigits {n : Nat} (hn : 0 < n) : (Nat.toDigits 10 n).head? ≠ some '0' := by
  induction n using Nat.strongRecOn with
  | ind n ih =>
      by_cases hlt : n < 10
      · rw [Nat.toDigits_of_lt_base hlt]
        interval_cases n <;> decide
      · have hrest := ih (n / 10) (by omega) (by omega)
        rw [Nat.toDigits_of_base_le (by decide) (Nat.le_of_not_lt hlt)]
        rwa [List.head?_append_of_ne_nil _ Nat.toDigits_ne_nil]

/-- No zero opens the digits of a number, but for the number zero. -/
theorem opensPlain_toDigits (n : Nat) :
    ((Nat.toDigits 10 n).length == 1 || (Nat.toDigits 10 n).head? != some '0') = true := by
  rcases Nat.eq_zero_or_pos n with rfl | hn
  · rfl
  · have hhead := head?_toDigits hn
    simp [hhead]

namespace IsDigits

variable {cs : List Char}

theorem not_mem (h : IsDigits cs) {c : Char} (hc : c.isDigit = false) : c ∉ cs := by
  intro hmem
  rw [h.digit c hmem] at hc
  cases hc

theorem exists_cons (h : IsDigits cs) : ∃ d ds, cs = d :: ds ∧ d.isDigit = true := by
  cases cs with
  | nil => exact absurd rfl h.ne_nil
  | cons d ds => exact ⟨d, ds, rfl, h.digit d List.mem_cons_self⟩

theorem isScalarChar (h : IsDigits cs) : ∀ c ∈ cs, Toml.isScalarChar c = true := by
  intro c hc
  have hdigit := h.digit c hc
  unfold Toml.isScalarChar Char.isAlphanum
  simp [hdigit]

theorem joinDigits?_eq (h : IsDigits cs) : joinDigits? Char.isDigit cs = some cs := by
  obtain ⟨hne, hdigit⟩ := h
  induction cs with
  | nil => exact absurd rfl hne
  | cons c cs ih =>
      have hc := hdigit c List.mem_cons_self
      cases cs with
      | nil => simp [joinDigits?, hc]
      | cons d ds =>
          have hd := hdigit d (List.mem_cons_of_mem c List.mem_cons_self)
          have hrest := ih (List.cons_ne_nil d ds) fun e he => hdigit e (List.mem_cons_of_mem c he)
          have hunderscore : d ≠ '_' := ne_of_apply_ne Char.isDigit (by rw [hd]; decide)
          rw [joinDigits?, if_pos hc, hrest]
          · rfl
          · simp
          · simpa using hunderscore

theorem splitSign_eq (h : IsDigits cs) : splitSign cs = (false, cs) := by
  have hminus := h.not_mem (c := '-') (by decide)
  have hplus := h.not_mem (c := '+') (by decide)
  unfold splitSign
  split
  · exact absurd List.mem_cons_self hminus
  · exact absurd List.mem_cons_self hplus
  · rfl

theorem isDate_eq_false (h : IsDigits cs) : isDate cs = false := by
  have hsplit : cs.splitOn '-' = [cs] := List.splitOn_eq_singleton (h.not_mem (by decide))
  unfold isDate
  rw [hsplit]

theorem isTime_eq_false (h : IsDigits cs) : isTime cs = false := by
  have hcolon : ':' ∉ cs.takeWhile (· ≠ '.') := fun hmem =>
    h.not_mem (by decide) (List.takeWhile_subset _ hmem)
  have hsplit : (cs.takeWhile (· ≠ '.')).splitOn ':' = [cs.takeWhile (· ≠ '.')] :=
    List.splitOn_eq_singleton hcolon
  unfold isTime splitPoint
  dsimp only
  rw [hsplit]

theorem take (h : IsDigits cs) {n : Nat} (hn : 0 < n) : IsDigits (cs.take n) where
  ne_nil := by
    obtain ⟨d, ds, rfl, -⟩ := h.exists_cons
    cases n with
    | zero => cases hn
    | succ n => simp
  digit := fun c hc => h.digit c (List.take_subset n cs hc)

theorem isMoment_eq_false (h : IsDigits cs) : isMoment cs = false := by
  have hfront := h.take (n := 10) (by decide)
  unfold isMoment
  dsimp only
  split
  · rw [h.isDate_eq_false, h.isTime_eq_false]
    rfl
  · rw [h.isTime_eq_false, hfront.isDate_eq_false]
    rfl

theorem based_ne (h : IsDigits cs) {mark : Char} (hmark : mark.isDigit = false)
    (rest : List Char) : cs ≠ '0' :: mark :: rest := by
  rintro rfl
  exact h.not_mem hmark (List.mem_cons_of_mem _ List.mem_cons_self)

end IsDigits

/-! ### Scalars -/

theorem integer?_toDigits {n : Nat} (hn : n ≤ maxInt64) :
    integer? (Nat.toDigits 10 n) = some (n : Int) := by
  have hdigits := isDigits_toDigits n
  have hwhole : wholeDigits? (Nat.toDigits 10 n) = some (Nat.toDigits 10 n) := by
    unfold wholeDigits? decimalDigits?
    rw [hdigits.joinDigits?_eq, Option.filter_some, if_pos (opensPlain_toDigits n)]
  have hnumber : readNat? 10 (Nat.toDigits 10 n) = some n := by
    unfold readNat?
    rw [if_neg (by simp), readDigits_toDigits]
  have hfits : fitsInt64 n = true := by
    unfold fitsInt64
    simp only [Bool.and_eq_true, decide_eq_true_eq]
    omega
  unfold integer?
  dsimp only
  split
  · next heq => exact absurd heq (hdigits.based_ne (by decide) _)
  · next heq => exact absurd heq (hdigits.based_ne (by decide) _)
  · next heq => exact absurd heq (hdigits.based_ne (by decide) _)
  · simp [hdigits.splitSign_eq, hwhole, hnumber, hfits]

/-- The digits of a number that fits stand for the number. -/
theorem scalar?_toDigits {n : Nat} (hn : n ≤ maxInt64) :
    scalar? (Nat.toDigits 10 n) = some (.integer n) := by
  have hdigits := isDigits_toDigits n
  have htrue : Nat.toDigits 10 n ≠ ['t', 'r', 'u', 'e'] := by
    intro heq
    exact hdigits.not_mem (c := 't') (by decide) (by simp [heq])
  have hfalse : Nat.toDigits 10 n ≠ ['f', 'a', 'l', 's', 'e'] := by
    intro heq
    exact hdigits.not_mem (c := 'f') (by decide) (by simp [heq])
  unfold scalar?
  rw [if_neg htrue, if_neg hfalse, hdigits.isMoment_eq_false, integer?_toDigits hn]
  rfl

theorem readScalar_line {cs : List Char} (h : ∀ c ∈ cs, isScalarChar c = true)
    (rest : List Char) :
    readScalar (cs ++ '\n' :: rest) = (scalar? cs).map (·, '\n' :: rest) := by
  have hrun : (cs ++ '\n' :: rest).takeWhile isScalarChar = cs := by
    rw [List.takeWhile_append_of_pos h, List.takeWhile_cons_of_neg (by decide), List.append_nil]
  have hrest : (cs ++ '\n' :: rest).dropWhile isScalarChar = '\n' :: rest := by
    rw [List.dropWhile_append_of_pos h, List.dropWhile_cons_of_neg (by decide)]
  unfold readScalar
  rw [hrun, hrest]
  dsimp only
  split
  · next heq => cases heq
  · rfl

end Toml

end ExpressModel
