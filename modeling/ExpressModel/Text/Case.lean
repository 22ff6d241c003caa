/-! # Letter case

Names are compared ignoring the case of the letters `A`–`Z`, and generated text is written with
those letters in lower case; every other character is kept.  `lower` is that case map and
`sameName` the comparison it induces: `sameName_iff` says that two names agree exactly when
their lower-case forms are equal, so agreement is an equivalence. -/

namespace ExpressModel.Text

/-- The text with `A`–`Z` in lower case. -/
def lower (s : String) : String :=
  s.map Char.toLower

theorem toList_lower (s : String) : (lower s).toList = s.toList.map Char.toLower := by
  simp [lower]

/-- Do two names agree, the case of `A`–`Z` ignored? -/
def sameName (a b : String) : Bool :=
  lower a == lower b

theorem sameName_iff {a b : String} : sameName a b = true ↔ lower a = lower b := by
  simp [sameName]

theorem sameName_refl (a : String) : sameName a a = true :=
  sameName_iff.mpr rfl

theorem sameName_comm (a b : String) : sameName a b = sameName b a :=
  BEq.comm

theorem sameName_trans {a b c : String} (hab : sameName a b = true) (hbc : sameName b c = true) :
    sameName a c = true :=
  sameName_iff.mpr ((sameName_iff.mp hab).trans (sameName_iff.mp hbc))

end ExpressModel.Text
