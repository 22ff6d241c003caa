import ExpressModel.Toml.Lexeme
import ExpressModel.Toml.Scalar

/-! # TOML values

A value is a scalar, a quoted text, an array or an inline table.  Arrays run over several lines
and may end with a comma; an inline table stays on one line and may not.  At most `maxDepth` of
them stand within one another.  A key of an inline table is given once; a key of several parts
opens a table of its own, which only such keys extend.

A table whose first key is `dateKey` is another way to write a date (`withDates?`). -/

namespace ExpressModel.Toml

/-- Sets a value at a path of keys within an inline table, or fails where a key is given
already.  The tables that such paths opened are listed by their own paths. -/
def insertAt? (opened : List (List String)) (above : List String) :
    List String → Setting → List (String × Setting) →
      Option (List (List String) × List (String × Setting))
  | [], _, _ => none
  | [key], value, entries =>
    if (entries.lookup key).isSome then none
    else some (opened, Setting.putEntry key value entries)
  | key :: rest, value, entries =>
    let here := above ++ [key]
    match entries.lookup key with
    | none =>
      (insertAt? (here :: opened) here rest value []).map fun (opened, inner) =>
        (opened, Setting.putEntry key (.table inner) entries)
    | some (.table inner) =>
      if here ∈ opened then
        (insertAt? opened here rest value inner).map fun (opened, inner) =>
          (opened, Setting.putEntry key (.table inner) entries)
      else none
    | some _ => none

/-- The entries that assignments at paths amount to, with the tables opened and the entries so
far. -/
def assignAll? (opened : List (List String)) (entries : List (String × Setting)) :
    List (List String × Setting) → Option (List (String × Setting))
  | [] => some entries
  | (path, value) :: rest =>
    (insertAt? opened [] path value entries).bind fun (opened, entries) =>
      assignAll? opened entries rest

/-- The table that assignments at paths amount to. -/
def inlineTable? (assignments : List (List String × Setting)) : Option Setting :=
  (assignAll? [] [] assignments).map .table

mutual

/-- Takes a value from the front of a text, with a bound on the depth of the reading and the
number of levels that may still be opened. -/
def readValue (levels : Nat) : Nat → Reader Setting
  | 0, _ => none
  | bound + 1, cs =>
    match levels, cs with
    | _, '"' :: _ => (readQuoted cs).map fun (text, rest) => (.text text, rest)
    | _, '\'' :: _ => (readQuoted cs).map fun (text, rest) => (.text text, rest)
    | 0, '[' :: _ => none
    | 0, '\x7b' :: _ => none
    | levels + 1, '[' :: cs =>
      (readItems levels bound cs).map fun (items, rest) => (.list items, rest)
    | levels + 1, '\x7b' :: cs => do
      let (assignments, rest) ← match skipInline cs with
        | '\x7d' :: rest => some ([], rest)
        | cs => readAssignments levels bound cs
      return (← inlineTable? assignments, rest)
    | _, cs => readScalar cs

/-- Takes the items of an array, up to its closing bracket. -/
def readItems (levels : Nat) : Nat → Reader (List Setting)
  | 0, _ => none
  | bound + 1, cs => do
    match ← skipLines false cs with
    | ']' :: rest => return ([], rest)
    | cs =>
      let (item, rest) ← readValue levels bound cs
      match ← skipLines false rest with
      | ']' :: rest => return ([item], rest)
      | ',' :: rest =>
        let (items, rest) ← readItems levels bound rest
        return (item :: items, rest)
      | _ => none

/-- Takes the assignments of an inline table, up to its closing brace. -/
def readAssignments (levels : Nat) : Nat → Reader (List (List String × Setting))
  | 0, _ => none
  | bound + 1, cs => do
    let (path, rest) ← readPath cs
    match skipInline rest with
    | '=' :: rest =>
      let (value, rest) ← readValue levels bound (skipInline rest)
      match skipInline rest with
      | '\x7d' :: rest => return ([(path, value)], rest)
      | ',' :: rest =>
        let (assignments, rest) ← readAssignments levels bound rest
        return ((path, value) :: assignments, rest)
      | _ => none
    | _ => none

end

/-! ### Dates in tables -/

/-- The key that marks a table as a date or time of day: where it comes first in a table, the
table stands for the text of that key. -/
def dateKey : String :=
  "$__toml_private_datetime"

/-- The date or time of day that a marked table stands for. -/
def markedDate? : Setting → Option Setting
  | .text s => if isMoment s.toList then some (.date s) else none
  | _ => none

mutual

/-- A value with the dates in place of the tables that are marked as dates; fails where the text
of a mark is no date. -/
def withDates? : Setting → Option Setting
  | .list items => (itemsWithDates? items).map .list
  | .table [] => some (.table [])
  | .table ((key, value) :: rest) =>
    if key = dateKey then markedDate? value
    else do
      let value ← withDates? value
      let rest ← entriesWithDates? rest
      return .table ((key, value) :: rest)
  | s => some s

/-- The items of an array with the dates in them. -/
def itemsWithDates? : List Setting → Option (List Setting)
  | [] => some []
  | item :: rest => do
    let item ← withDates? item
    let rest ← itemsWithDates? rest
    return item :: rest

/-- The entries of a table with the dates in them. -/
def entriesWithDates? : List (String × Setting) → Option (List (String × Setting))
  | [] => some []
  | (key, value) :: rest => do
    let value ← withDates? value
    let rest ← entriesWithDates? rest
    return (key, value) :: rest

end

end ExpressModel.Toml
