import ExpressModel.Text.Case
import ExpressModel.Text.Blank

/-! # Underlying-type texts

The description of a type is free text.  A declaration writes it reflowed: after a comma comes a
new line, and in a plain description also before a parenthesis.  An enumeration is written from
its first parenthesis on, and the same description is read for its literals.

The rules are given on lists of characters (`descriptionPiece`, `enumerationPiece`,
`afterOpen?`, `literalTexts`); `toList_reflowDescription` and `toList_reflowEnumeration` relate
them to the texts. -/

namespace ExpressModel.Text

/-! ### Reflowing -/

/-- What a character of a plain description is written as. -/
def descriptionPiece (c : Char) : List Char :=
  if c = ',' then [',', '\n', ' ', ' ']
  else if c = '(' then ['\n', ' ', ' ', '(']
  else [c.toLower]

/-- The description of a type that is not an enumeration, as its declaration writes it. -/
def reflowDescription (description : String) : String :=
  String.ofList (description.toList.flatMap descriptionPiece)

theorem toList_reflowDescription (description : String) :
    (reflowDescription description).toList = description.toList.flatMap descriptionPiece :=
  String.toList_ofList

/-- What a character of an enumeration's literals is written as. -/
def enumerationPiece (c : Char) : List Char :=
  if c = ',' then [',', '\n', ' ', ' '] else [c.toLower]

/-- What follows the first opening parenthesis, if there is one. -/
def afterOpen? : List Char → Option (List Char)
  | [] => none
  | c :: cs => if c = '(' then some cs else afterOpen? cs

theorem afterOpen?_eq_none_iff {cs : List Char} : afterOpen? cs = none ↔ '(' ∉ cs := by
  induction cs with
  | nil => simp [afterOpen?]
  | cons c cs ih =>
    by_cases h : c = '('
    · simp [afterOpen?, h]
    · simp [afterOpen?, h, ih, Ne.symm h]

/-- The description of an enumeration, as its declaration writes it: from behind the first
parenthesis, or all of it when there is none. -/
def reflowEnumeration (description : String) : String :=
  let cs := description.toList
  String.ofList (((afterOpen? cs).getD cs).flatMap enumerationPiece)

theorem toList_reflowEnumeration (description : String) :
    (reflowEnumeration description).toList =
      ((afterOpen? description.toList).getD description.toList).flatMap enumerationPiece :=
  String.toList_ofList

/-! ### Literals -/

/-- What stands before the last closing parenthesis, or everything when there is none. -/
def beforeLastClose (cs : List Char) : List Char :=
  if ')' ∈ cs then ((cs.reverse.dropWhile (· ≠ ')')).drop 1).reverse else cs

/-- The list of literals in an enumeration's description: behind the first opening parenthesis
and before the last closing one after it, or everything when nothing is opened. -/
def literalList (cs : List Char) : List Char :=
  match afterOpen? cs with
  | some inner => beforeLastClose inner
  | none => cs

/-- The literals a description lists: separated by commas, trimmed, in lower case, empty ones
left out. -/
def literalTexts (cs : List Char) : List (List Char) :=
  (((literalList cs).splitOn ',').map fun l => (trim l).map Char.toLower).filter (· ≠ [])

/-- The literals that an enumeration's description lists. -/
def literals (description : String) : List String :=
  (literalTexts description.toList).map String.ofList

end ExpressModel.Text
