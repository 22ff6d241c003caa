import ExpressModel.Config.Library
import ExpressModel.Text.Number

/-! # Writing tables

A table is written as its name in brackets and a line for each entry, and an empty line comes before
each further table.  Names stand without quotes, and texts without escapes.  Numbers in files have
64 bits with a sign, so a larger one cannot be written. -/

namespace ExpressModel

def Scalar.printed : Scalar → Except ConfigFault String
  | integer n => if n ≤ Text.maxInt64 then .ok (toString n) else .error (.notWritable n)
  | text s => .ok ("\"" ++ s ++ "\"")
  | boolean b => .ok (if b then "true" else "false")

namespace Tables

def printedEntry (e : String × Scalar) : Except ConfigFault String :=
  e.2.printed.map fun value => e.1 ++ " = " ++ value ++ "\n"

def printedTable (t : String × List (String × Scalar)) : Except ConfigFault String :=
  (t.2.mapM printedEntry).map fun lines => "[" ++ t.1 ++ "]\n" ++ String.join lines

def printed (tables : Tables) : Except ConfigFault String :=
  (tables.mapM printedTable).map (String.intercalate "\n")

end Tables

end ExpressModel
