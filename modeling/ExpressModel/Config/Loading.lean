import ExpressModel.Config.Basic
import ExpressModel.Config.Library

/-! # Loading and writing configurations

A configuration is put together from up to four files and the environment, each laid over the ones
before: the two files of the working directory, the user's file, the file that was asked for, and
last the variables of the program.  Only the file that was asked for has to be there.

Each setting is read as a value of its kind, a missing one takes its default, and unknown keys are
left out.  A configuration is written with all its settings. -/

namespace ExpressModel

/-- The files of the working directory, the hidden one last. -/
def Config.localFiles : List String :=
  ["express_dictionary.toml", ".express_dictionary.toml"]

/-- The path of the user's file, where that is there. -/
def Surroundings.userFile? (w : Surroundings) : Option String :=
  w.userPath?.filter fun path => (w.file? path).isSome

/-- The sources of a configuration, each laid over the ones before. -/
def Surroundings.sources (w : Surroundings) (requested? : Option String) : List Source :=
  Config.localFiles.map (.file · false) ++ w.userFile?.toList.map (.file · false) ++
    requested?.toList.map (.file · true) ++ [.environment "EXPRESS_DICT" "__" true]

def Config.tables (c : Config) : Tables :=
  [("registry",
      [("initial_capacity", .integer c.registry.initialCapacity),
        ("index_policy", .text c.registry.indexPolicy.setting)]),
    ("generation", [("header_comment", .boolean c.generation.headerComment)])]

namespace SettingsLibrary

variable (library : SettingsLibrary)

/-! ### Reading -/

/-- A setting as an index policy, by its name. -/
def policy? (s : Setting) : Option IndexPolicy :=
  (library.choice? (IndexPolicy.all.map IndexPolicy.setting) s).bind IndexPolicy.ofSetting?

/-- The value of a field, or its default when the field is not there. -/
def fieldValue {α : Type} (section? : Option Setting) (key : String) (position : Nat)
    (read : Setting → Option α) (default : α) : Except Error α := do
  match section? with
  | none => return default
  | some s =>
    match ← (library.field? key position s).mapError Error.config with
    | none => return default
    | some value =>
      match read value with
      | none => throw (.config (.wrongValue key))
      | some a => return a

/-- The configuration that settings amount to. -/
def read (settings : Setting) : Except Error Config := do
  let registry? ← (library.field? "registry" 0 settings).mapError Error.config
  let generation? ← (library.field? "generation" 1 settings).mapError Error.config
  let defaults : Config := {}
  let initialCapacity ← library.fieldValue registry? "initial_capacity" 0 library.natural?
    defaults.registry.initialCapacity
  let indexPolicy ← library.fieldValue registry? "index_policy" 1 library.policy?
    defaults.registry.indexPolicy
  let headerComment ← library.fieldValue generation? "header_comment" 0 library.boolean?
    defaults.generation.headerComment
  return { registry := { initialCapacity, indexPolicy }, generation := { headerComment } }

/-! ### Loading and writing -/

/-- Loads the configuration, from the file that is asked for and whatever else is there. -/
def load (w : Surroundings) (requested? : Option String) : Except Error Config := do
  library.read (← (library.build w (w.sources requested?)).mapError Error.config)

/-- The configuration as the text of a file. -/
def toToml (c : Config) : Except Error String :=
  (library.write c.tables).mapError Error.config

end SettingsLibrary

end ExpressModel
