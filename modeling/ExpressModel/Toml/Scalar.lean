import ExpressModel.Config.Setting
import ExpressModel.Text.Number

/-! # TOML scalars

A scalar without quotes is a run of letters, digits, signs, points, colons and underscores.
`scalar?` says what such a run stands for: a truth value, a whole number of 64 bits in one of
four bases, a decimal fraction, or a date or time, which is kept as its text. -/

namespace ExpressModel.Toml

open Text

/-- May the character stand in a scalar without quotes? -/
def isScalarChar (c : Char) : Bool :=
  c.isAlphanum || c == '+' || c == '-' || c == '_' || c == '.' || c == ':'

/-! ### Numbers -/

/-- Digits with single underscores between them, the underscores left out. -/
def joinDigits? (isDigit : Char → Bool) : List Char → Option (List Char)
  | [] => none
  | [c] => if isDigit c then some [c] else none
  | c :: '_' :: cs => if isDigit c then (joinDigits? isDigit cs).map (c :: ·) else none
  | c :: cs => if isDigit c then (joinDigits? isDigit cs).map (c :: ·) else none

/-- Digits in decimal, underscores left out. -/
def decimalDigits? (cs : List Char) : Option (List Char) :=
  joinDigits? Char.isDigit cs

/-- Digits in decimal that open with no zero but a single one. -/
def wholeDigits? (cs : List Char) : Option (List Char) :=
  (decimalDigits? cs).filter fun digits => digits.length == 1 || digits.head? != some '0'

def basedNat? (base : Nat) (cs : List Char) : Option Nat := do
  readNat? base (← joinDigits? (fun c => (digitValue? base c).isSome) cs)

def integer? (cs : List Char) : Option Int :=
  let number? : Option Int :=
    match cs with
    | '0' :: 'x' :: cs => (basedNat? 16 cs).map Int.ofNat
    | '0' :: 'o' :: cs => (basedNat? 8 cs).map Int.ofNat
    | '0' :: 'b' :: cs => (basedNat? 2 cs).map Int.ofNat
    | cs => do
      let (negative, cs) := splitSign cs
      let n ← readNat? 10 (← wholeDigits? cs)
      return if negative then -(n : Int) else n
  number?.filter fitsInt64

/-- A decimal fraction: digits on both sides of the point, where there is one, and digits in the
exponent, where there is one.  One that exceeds every binary fraction is refused. -/
def float? (cs : List Char) : Option Float := do
  let (negative, cs) := splitSign cs
  if cs = ['i', 'n', 'f'] then
    return if negative then -1.0 / 0.0 else 1.0 / 0.0
  if cs = ['n', 'a', 'n'] then
    return 0.0 / 0.0
  let (digits, exponent?) := splitExponent cs
  let whole ← wholeDigits? (digits.takeWhile (· ≠ '.'))
  let fraction ← match digits.dropWhile (· ≠ '.') with
    | [] => if exponent?.isSome then some [] else none
    | _ :: fraction => decimalDigits? fraction
  let exponent ← exponent?.elim (some 0) fun cs => do
    let (negative, cs) := splitSign cs
    let n ← readNat? 10 (← decimalDigits? cs)
    return if negative then -(n : Int) else n
  (decimal negative whole fraction exponent).filter (· != 1.0 / 0.0)

/-! ### Dates and times -/

/-- A number of exactly that many digits. -/
def fixedNat? (width : Nat) (cs : List Char) : Option Nat :=
  if cs.length = width then readNat? 10 cs else none

def daysIn (year month : Nat) : Nat :=
  if month = 2 then
    if year % 4 = 0 ∧ (year % 100 ≠ 0 ∨ year % 400 = 0) then 29 else 28
  else if month = 4 ∨ month = 6 ∨ month = 9 ∨ month = 11 then 30
  else 31

def isDate (cs : List Char) : Bool :=
  match cs.splitOn '-' with
  | [year, month, day] =>
    match fixedNat? 4 year, fixedNat? 2 month, fixedNat? 2 day with
    | some year, some month, some day =>
      1 ≤ month && month ≤ 12 && 1 ≤ day && day ≤ daysIn year month
    | _, _, _ => false
  | _ => false

/-- Is it a time of day: hours, minutes and seconds, the seconds with a fraction perhaps? -/
def isTime (cs : List Char) : Bool :=
  let (clock, fraction) := splitPoint cs
  let pointed := cs.any (· == '.')
  let fractionOk := if pointed then !fraction.isEmpty && fraction.all Char.isDigit else true
  match clock.splitOn ':' with
  | [hour, minute, second] =>
    match fixedNat? 2 hour, fixedNat? 2 minute, fixedNat? 2 second with
    | some hour, some minute, some second =>
      hour ≤ 23 && minute ≤ 59 && second ≤ 60 && fractionOk
    | _, _, _ => false
  | _ => false

/-- Is it an offset from universal time: hours and minutes? -/
def isOffset (cs : List Char) : Bool :=
  match cs.splitOn ':' with
  | [hour, minute] =>
    match fixedNat? 2 hour, fixedNat? 2 minute with
    | some hour, some minute => hour ≤ 23 && minute ≤ 59
    | _, _ => false
  | _ => false

/-- Is it a time of day with an offset perhaps? -/
def isOffsetTime (cs : List Char) : Bool :=
  let isMark := fun c : Char => c == 'Z' || c == 'z' || c == '+' || c == '-'
  let time := cs.takeWhile (!isMark ·)
  match cs.dropWhile (!isMark ·) with
  | [] => isTime time
  | mark :: rest =>
    isTime time && if mark == 'Z' || mark == 'z' then rest.isEmpty else isOffset rest

/-- Is it a date, a time of day, or both? -/
def isMoment (cs : List Char) : Bool :=
  let (date, rest) := (cs.take 10, cs.drop 10)
  match rest with
  | [] => isDate cs || isTime cs
  | mark :: time =>
    isTime cs || isDate date && (mark == 'T' || mark == 't' || mark == ' ') && isOffsetTime time

/-! ### Scalars -/

/-- What a run of scalar characters stands for. -/
def scalar? (cs : List Char) : Option Setting :=
  if cs = ['t', 'r', 'u', 'e'] then some (.boolean true)
  else if cs = ['f', 'a', 'l', 's', 'e'] then some (.boolean false)
  else if isMoment cs then some (.date (String.ofList cs))
  else match integer? cs with
    | some n => some (.integer n)
    | none => (float? cs).map .float

/-- Takes a scalar from the front of a text; a date may be followed by a time behind a single
blank. -/
def readScalar (cs : List Char) : Option (Setting × List Char) :=
  let run := cs.takeWhile isScalarChar
  let rest := cs.dropWhile isScalarChar
  match isDate run, rest with
  | true, ' ' :: c :: more =>
    if c.isDigit then
      let time := (c :: more).takeWhile isScalarChar
      (scalar? (run ++ ' ' :: time)).map (·, (c :: more).dropWhile isScalarChar)
    else (scalar? run).map (·, rest)
  | _, _ => (scalar? run).map (·, rest)

end ExpressModel.Toml
