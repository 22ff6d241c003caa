/-! # Numbers in texts

Readers of whole numbers and of decimal fractions.  A whole number is exact; a decimal fraction
is the nearest binary fraction of double precision. -/

namespace ExpressModel.Text

/-! ### Digits -/

/-- The value of a digit in a base up to 16. -/
def digitValue? (base : Nat) (c : Char) : Option Nat :=
  let value? :=
    if '0' ≤ c ∧ c ≤ '9' then some (c.toNat - '0'.toNat)
    else if 'a' ≤ c ∧ c ≤ 'f' then some (c.toNat - 'a'.toNat + 10)
    else if 'A' ≤ c ∧ c ≤ 'F' then some (c.toNat - 'A'.toNat + 10)
    else none
  value?.filter (· < base)

/-- The number that digits of a base stand for, after a number already read. -/
def readDigits (base : Nat) : Nat → List Char → Option Nat
  | n, [] => some n
  | n, c :: cs => (digitValue? base c).bind fun v => readDigits base (n * base + v) cs

def readNat? (base : Nat) (cs : List Char) : Option Nat :=
  if cs.isEmpty then none else readDigits base 0 cs

/-- A sign, and what follows it: is the number negative? -/
def splitSign : List Char → Bool × List Char
  | '-' :: cs => (true, cs)
  | '+' :: cs => (false, cs)
  | cs => (false, cs)

/-- A whole number in decimal, with or without a sign. -/
def readInt? (cs : List Char) : Option Int :=
  let (negative, cs) := splitSign cs
  (readNat? 10 cs).map fun n => if negative then -(n : Int) else n

/-- The largest number that a signed word of 64 bits holds. -/
def maxInt64 : Nat :=
  1 <<< 63 - 1

/-- The largest number that an unsigned word of 64 bits holds. -/
def maxNat64 : Nat :=
  1 <<< 64 - 1

/-- Does a signed word of 64 bits hold the number? -/
def fitsInt64 (n : Int) : Bool :=
  -(maxInt64 : Int) - 1 ≤ n && n ≤ maxInt64

/-! ### Decimal fractions -/

/-- The binary fraction nearest to a whole number times a power of ten.  Powers beyond the range
of double precision are not computed. -/
def scaled (mantissa : Nat) (exponent : Int) : Float :=
  let magnitude := (toString mantissa).length + exponent
  if mantissa = 0 ∨ magnitude < -400 then 0.0
  else if 400 < magnitude then 1.0 / 0.0
  else if exponent < 0 then Float.ofScientific mantissa true exponent.natAbs
  else Float.ofScientific mantissa false exponent.natAbs

/-- The binary fraction nearest to a decimal one. -/
def decimal (negative : Bool) (whole fraction : List Char) (exponent : Int) : Option Float := do
  let mantissa ← readDigits 10 0 (whole ++ fraction)
  let magnitude := scaled mantissa (exponent - fraction.length)
  return if negative then -magnitude else magnitude

/-- A decimal fraction without its sign and its exponent: the digits before and behind the
point. -/
def splitPoint (cs : List Char) : List Char × List Char :=
  (cs.takeWhile (· ≠ '.'), (cs.dropWhile (· ≠ '.')).drop 1)

/-- A decimal fraction without its exponent, and the exponent, if there is one. -/
def splitExponent (cs : List Char) : List Char × Option (List Char) :=
  let isMark := fun c : Char => c == 'e' || c == 'E'
  match cs.dropWhile (!isMark ·) with
  | [] => (cs, none)
  | _ :: exponent => (cs.takeWhile (!isMark ·), some exponent)

/-- A decimal fraction, with or without a sign, a point and an exponent; there are digits before
the point or behind it.  Infinity and the value that is no number are written in letters. -/
def readFloat? (cs : List Char) : Option Float := do
  let (negative, cs) := splitSign cs
  match String.ofList (cs.map Char.toLower) with
  | "inf" | "infinity" => return if negative then -1.0 / 0.0 else 1.0 / 0.0
  | "nan" => return 0.0 / 0.0
  | _ =>
    let (digits, exponent?) := splitExponent cs
    let (whole, fraction) := splitPoint digits
    if whole.isEmpty ∧ fraction.isEmpty then none
    let exponent ← exponent?.elim (some 0) readInt?
    decimal negative whole fraction exponent

end ExpressModel.Text
