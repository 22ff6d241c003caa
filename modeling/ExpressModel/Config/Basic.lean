/-! # Configuration

What a user can set: how registries are laid out and whether generated text opens with a
comment.  Every setting has a default. -/

namespace ExpressModel

/-- What a registry does with a write beyond its end: refuse it, or leave a gap. -/
inductive IndexPolicy where
  | strict
  | extend
  deriving DecidableEq, Inhabited

namespace IndexPolicy

def name : IndexPolicy → String
  | .strict => "Strict"
  | .extend => "Extend"

def setting : IndexPolicy → String
  | .strict => "strict"
  | .extend => "extend"

def all : List IndexPolicy :=
  [.strict, .extend]

/-- The policy of a name in a configuration file. -/
def ofSetting? (name : String) : Option IndexPolicy :=
  all.find? (·.setting = name)

end IndexPolicy

/-- How a registry is laid out. -/
structure RegistryOptions where
  /-- The number of slots set aside from the start. -/
  initialCapacity : Nat := 16
  indexPolicy : IndexPolicy := .strict
  deriving DecidableEq, Inhabited

/-- How declarations are generated. -/
structure GenerationOptions where
  /-- Does a generated schema open with a comment that names it? -/
  headerComment : Bool := true
  deriving DecidableEq, Inhabited

/-- The settings of a dictionary. -/
structure Config where
  registry : RegistryOptions := {}
  generation : GenerationOptions := {}
  deriving DecidableEq, Inhabited

end ExpressModel
