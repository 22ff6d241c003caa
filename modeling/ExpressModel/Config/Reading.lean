import ExpressModel.Config.Setting
import ExpressModel.Error
import ExpressModel.Text.Case
import ExpressModel.Text.Number

/-! # Reading settings

Readers are lenient: numbers and truth values may also be written as texts, and stand for one
another.  An open place of a list is no value of any kind.  The fields of a section have their keys
where the section is a table, and their positions where it is a list. -/

namespace ExpressModel.Setting

def wordTruth? (s : String) : Option Bool :=
  if ["true", "on", "yes"].contains (Text.lower s) then some true
  else if ["false", "off", "no"].contains (Text.lower s) then some false
  else none

/-- A whole number written as a text: digits, behind a plus sign perhaps, within 64 bits. -/
def textNat? (s : String) : Option Nat :=
  let digits := match s.toList with
    | '+' :: cs => cs
    | cs => cs
  (Text.readNat? 10 digits).filter (· ≤ Text.maxNat64)

/-- A setting as a number of slots: a whole number, a fraction rounded to the nearest, or a truth
value. -/
def asNat? : Setting → Option Nat
  | boolean b => some b.toNat
  | integer n => if n < 0 then none else some n.toNat
  | float x => some x.round.toUInt64.toNat
  | text s => (wordTruth? s).elim (textNat? s) fun b => some b.toNat
  | nothing | date _ | list _ | table _ => none

/-- A setting as a truth value; of numbers, zero is false. -/
def asBool? : Setting → Option Bool
  | boolean b => some b
  | integer n => some (n ≠ 0)
  | float x => some (x != 0.0)
  | text s => if s = "1" then some true else if s = "0" then some false else wordTruth? s
  | nothing | date _ | list _ | table _ => none

/-- A setting as one of some names in lower case: the name, letter case ignored, or a table with the
name as its only key. -/
def asChoice? (names : List String) : Setting → Option String
  | text s => names.find? (· = Text.lower s)
  | table [(key, _)] => names.find? (· = Text.lower key)
  | _ => none

/-- The field of a section: by its key in a table, by its position in a list. -/
def field? (key : String) (position : Nat) : Setting → Except ConfigFault (Option Setting)
  | table entries => .ok (entries.lookup key)
  | list items => .ok items[position]?
  | _ => .error (.wrongValue key)

end ExpressModel.Setting
