import ExpressModel.Config.Loading
import ExpressModel.Config.Overlay
import ExpressModel.Config.Printing
import ExpressModel.Config.Reading
import ExpressModel.Toml.Document

/-! # Sources of configuration

A library for files of one format and for the environment, and what it makes of a machine with no
other files than those of the program. -/

namespace ExpressModel

/-! ### The environment -/

/-- The name of a variable as a path: a point for every separator, the given number of characters
left out. -/
def pointed (separator : List Char) : Nat → List Char → List Char
  | _, [] => []
  | skip + 1, _ :: cs => pointed separator skip cs
  | 0, c :: cs =>
    if separator.isPrefixOf (c :: cs) then '.' :: pointed separator (separator.length - 1) cs
    else c :: pointed separator 0 cs

/-- The path that a variable sets, if its name begins as required, letter case ignored. -/
def variableKey? (start separator name : String) : Option String :=
  let start := (Text.lower (start ++ separator)).toList
  let name := (Text.lower name).toList
  if start.isPrefixOf name then
    some (String.ofList (pointed separator.toList 0 (name.drop start.length)))
  else none

/-- The value of a variable: a truth value, a whole number, a fraction, or else a text. -/
def variableValue (value : String) : Setting :=
  let cs := value.toList
  if Text.lower value = "true" then .boolean true
  else if Text.lower value = "false" then .boolean false
  else match (Text.readInt? cs).filter Text.fitsInt64 with
    | some n => .integer n
    | none => (Text.readFloat? cs).elim (.text value) .float

def variableSetting? (start separator : String) (parsing : Bool) (v : String × String) :
    Option (String × Setting) :=
  (variableKey? start separator v.1).map fun key =>
    (key, if parsing then variableValue v.2 else .text v.2)

/-! ### Files -/

def fileEnding : String :=
  ".toml"

/-- The paths that a name may stand for: itself, and itself with the ending. -/
def filePaths (name : String) : List String :=
  [name, name ++ fileEnding]

def fileLayer (path text : String) : Except ConfigFault Layer :=
  if fileEnding.toList.isSuffixOf path.toList then
    (Toml.parse? text).elim (.error .malformed) .ok
  else .error .malformed

/-! ### The library -/

/-- What a source sets; a file that is not there sets nothing, unless it is required. -/
def Surroundings.layer (w : Surroundings) : Source → Except ConfigFault Layer
  | .file name required =>
    match (filePaths name).findSome? fun path => (w.file? path).map (path, ·) with
    | some (path, text) => fileLayer path text
    | none => if required then .error .missingFile else .ok []
  | .environment start separator parsing =>
    .ok (w.environment.filterMap (variableSetting? start separator parsing))

/-- The settings of all sources, laid over one another. -/
def Surroundings.settings (w : Surroundings) (sources : List Source) :
    Except ConfigFault Setting :=
  (sources.mapM w.layer).map fun layers => layers.foldl Setting.overlaySource (.table [])

/-- A library for files of the one format. -/
def SettingsLibrary.plain : SettingsLibrary where
  candidates := filePaths
  parse := fileLayer
  parsed := variableValue
  setByVariable? := variableSetting?
  collect := Surroundings.layer
  merge := Setting.overlaySource
  build := Surroundings.settings
  field? := Setting.field?
  natural? := Setting.asNat?
  boolean? := Setting.asBool?
  choice? := Setting.asChoice?
  write := Tables.printed

/-! ### Configurations -/

/-- The file that a caller may ask for. -/
inductive RequestedFile where
  | none
  | missing
  | present (text : String)

/-- A machine with no other files than those of the program. -/
structure ConfigSources where
  /-- The visible file of the working directory. -/
  localFile? : Option String := .none
  hiddenFile? : Option String := .none
  userFile? : Option String := .none
  requestedFile : RequestedFile := .none
  /-- The environment, as pairs of a name and a value. -/
  environment : List (String × String) := []

namespace ConfigSources

variable (s : ConfigSources)

/-- The text of the file that is asked for, if it is there. -/
def requestedText? : Option String :=
  match s.requestedFile with
  | .present text => some text
  | .none | .missing => .none

def requestedPath? : Option String :=
  match s.requestedFile with
  | .none => .none
  | .missing | .present _ => some "requested.toml"

def surroundings : Surroundings where
  file? path :=
    if path = "express_dictionary.toml" then s.localFile?
    else if path = ".express_dictionary.toml" then s.hiddenFile?
    else if path = "home/express_dictionary.toml" then s.userFile?
    else if path = "requested.toml" then s.requestedText?
    else .none
  userPath? := some "home/express_dictionary.toml"
  environment := s.environment

end ConfigSources

def Config.load (s : ConfigSources) : Except Error Config :=
  SettingsLibrary.plain.load s.surroundings s.requestedPath?

/-- The configuration as the text of a file. -/
def Config.toToml (c : Config) : Except Error String :=
  SettingsLibrary.plain.toToml c

end ExpressModel
