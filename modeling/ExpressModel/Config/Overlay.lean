import ExpressModel.Config.Setting
import ExpressModel.Text.Case
import ExpressModel.Text.Number

/-! # Laying settings over one another

A later table is laid over an earlier one entry by entry, and any other later value takes the place
of what was there.  Keys are compared ignoring letter case, so they are kept in lower case.

The keys of a source are paths: `registry.index_policy` is an entry of a section and
`registry[1]` an item of a list.  A list grows to the position that is set, and the places that
this leaves open hold `nothing`. -/

namespace ExpressModel.Setting

/-! ### Layers -/

/-- Lays a value over what is there: a table entry by entry, anything else as a whole. -/
def overlay (incoming : Setting) (existing? : Option Setting) : Setting :=
  match incoming with
  | table entries =>
    entries.attach.foldl
      (fun target ⟨(key, value), _h⟩ =>
        let key := Text.lower key
        target.put key (overlay value (target.valueOf? key)))
      (existing?.getD (table []))
  | value => value
termination_by sizeOf incoming
decreasing_by
  have := List.sizeOf_lt_of_mem _h
  simp_all; omega

/-! ### Items of lists -/

/-- The items of a list; nothing else has items. -/
def items : Setting → List Setting
  | list items => items
  | _ => []

/-- Items with a place at a position, and the number of that place.  A negative position counts
from the end; places are added behind the last item, or in front of the first one where the
position lies before it. -/
def withPlace (position : Int) (items : List Setting) : List Setting × Nat :=
  let fromEnd := position.natAbs
  if 0 ≤ position then
    (items ++ List.replicate (position.toNat + 1 - items.length) nothing, position.toNat)
  else (List.replicate (fromEnd - items.length) nothing ++ items, items.length - fromEnd)

/-- Changes the item at a position; what is no list becomes one. -/
def updateItem (s : Setting) (position : Int) (f : Setting → Setting) : Setting :=
  let (items, place) := withPlace position s.items
  list (items.modify place f)

/-! ### Paths -/

/-- A step of a path: to the entry of a key, or to the item at a position. -/
inductive Step where
  | key (name : String)
  | item (position : Int)
  deriving DecidableEq

/-- Lays a value over what is at a path; whatever stands in the way becomes a table or a list.
An item is replaced as a whole. -/
def overlayAt (value : Setting) : List Step → Setting → Setting
  | [], _ => value
  | [.key name], s => s.put (Text.lower name) (overlay value (s.valueOf? (Text.lower name)))
  | .key name :: rest, s =>
    s.put (Text.lower name) (overlayAt value rest ((s.valueOf? (Text.lower name)).getD nothing))
  | .item position :: rest, s => s.updateItem position (overlayAt value rest)

/-- May the character be part of a key in a path? -/
def isPathChar (c : Char) : Bool :=
  c.isAlphanum || c == '_' || c == '-' || c == ' '

/-- The position in brackets, behind the opening one: a whole number of 64 bits without a plus
sign, with blanks around. -/
def position? (cs : List Char) : Option Int :=
  let isBlank := fun c : Char => c == ' ' || c == '\t'
  let cs := cs.dropWhile isBlank
  let number := cs.takeWhile fun c => c == '-' || c.isDigit
  let rest := (cs.drop number.length).dropWhile isBlank
  if rest = [']'] then (Text.readInt? number).filter Text.fitsInt64 else none

/-- The steps of a part of a path: a key, and any number of positions in brackets. -/
def stepsOf? (part : List Char) : Option (List Step) :=
  match part.splitOn '[' with
  | [] => none
  | name :: positions =>
    if name.isEmpty || !name.all isPathChar then none
    else (positions.mapM position?).map fun positions =>
      .key (String.ofList name) :: positions.map .item

/-- The path that a key of a source stands for: the steps of its parts between points, or the
whole key where that is no path. -/
def pathOf (key : String) : List Step :=
  (((key.toList.splitOn '.').mapM stepsOf?).map List.flatten).getD [.key key]

/-- Lays a source over the settings so far. -/
def overlaySource (s : Setting) (source : List (String × Setting)) : Setting :=
  source.foldl (fun s entry => overlayAt entry.2 (pathOf entry.1) s) s

end ExpressModel.Setting
