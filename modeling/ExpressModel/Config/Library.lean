import ExpressModel.Config.Setting
import ExpressModel.Error

/-! # Libraries of settings

A program leaves files and variables to a library, which collects what each source sets, merges the
sources one after another, and takes values out of the result.  `SettingsLibrary` is all that a
program uses of such a library, and what is needed to say what the library does; how it does that is
left open. -/

namespace ExpressModel

/-- What a source sets: keys, or paths of keys, with their values. -/
abbrev Layer : Type :=
  List (String × Setting)

/-- A source of settings, as a program asks for it. -/
inductive Source where
  /-- A file, by a name that may leave out how it ends. -/
  | file (name : String) (required : Bool)
  /-- The variables whose names begin with a start and a separator.  The separator also stands
  between the levels of a key. -/
  | environment (start separator : String) (parsing : Bool)

/-- What a program finds around it. -/
structure Surroundings where
  /-- The text of the file at a path. -/
  file? : String → Option String := fun _ => none
  /-- The path of the user's own file, if the user has a home. -/
  userPath? : Option String := none
  environment : List (String × String) := []

/-- A value that is written on one line. -/
inductive Scalar where
  | integer (n : Nat)
  | text (s : String)
  | boolean (b : Bool)

def Scalar.setting : Scalar → Setting
  | integer n => .integer n
  | text s => .text s
  | boolean b => .boolean b

/-- Tables by their names, with the entries of each. -/
abbrev Tables : Type :=
  List (String × List (String × Scalar))

def Tables.layer (tables : Tables) : Layer :=
  tables.map fun t => (t.1, .table (t.2.map fun e => (e.1, e.2.setting)))

/-- A library that collects and merges settings, and writes them. -/
structure SettingsLibrary where
  /-- The paths that the name of a file may stand for, the preferred one first. -/
  candidates : String → List String
  /-- What a file sets, by its path and its text. -/
  parse : String → String → Except ConfigFault Layer
  /-- The value that the text of a variable is parsed as. -/
  parsed : String → Setting
  /-- What a variable sets, by the start, the separator and whether values are parsed. -/
  setByVariable? : String → String → Bool → String × String → Option (String × Setting)
  collect : Surroundings → Source → Except ConfigFault Layer
  /-- Lays what a source sets over the settings so far. -/
  merge : Setting → Layer → Setting
  /-- The settings of all sources together. -/
  build : Surroundings → List Source → Except ConfigFault Setting
  /-- The field of a section, by its key and its position. -/
  field? : String → Nat → Setting → Except ConfigFault (Option Setting)
  natural? : Setting → Option Nat
  boolean? : Setting → Option Bool
  /-- One of the given names. -/
  choice? : List String → Setting → Option String
  /-- The text of a file that sets what is in some tables. -/
  write : Tables → Except ConfigFault String

end ExpressModel
