import ExpressModel.Handle

/-! # Errors

The causes for which an operation is refused, each with the data it reports, and their wording
in `Error.message`. -/

namespace ExpressModel

/-- What a descriptor was required to be. -/
inductive Expected where
  | entity
  | nonEntity
  | plain
  | select
  deriving DecidableEq

/-- The requirement as a message names it. -/
def Expected.text : Expected → String
  | .entity => "an entity"
  | .nonEntity => "a non-entity type"
  | .plain => "a simple or reference kind"
  | .select => "a select type"

/-- What is wrong with a configuration. -/
inductive ConfigFault where
  /-- A configuration file that was asked for does not exist. -/
  | missingFile
  /-- A configuration file is not well-formed. -/
  | malformed
  /-- A setting has a value of the wrong kind. -/
  | wrongValue (key : String)
  /-- A number is too large to be written to a configuration file. -/
  | notWritable (value : Nat)
  deriving DecidableEq

/-- Why an operation is refused. -/
inductive Error where
  /-- A registry of that length has no place for the index. -/
  | indexOutOfRange (index length : Nat)
  /-- A search came back to where it had been; the name says where. -/
  | cyclicTypeGraph (name : String)
  | unknownType (id : TypeId)
  | unknownSchema (id : SchemaId)
  /-- The descriptor of that name is not what the operation needs. -/
  | kindMismatch (name : String) (expected : Expected)
  | config (fault : ConfigFault)
  deriving DecidableEq

/-- The wording of a fault in a configuration. -/
def ConfigFault.message : ConfigFault → String
  | .missingFile => "configuration file not found"
  | .malformed => "configuration file is not well-formed"
  | .wrongValue key => "invalid value for " ++ key
  | .notWritable value => "value out of range: " ++ toString value

def Error.message : Error → String
  | .indexOutOfRange index length =>
    "Index " ++ toString index ++ " out of range for registry of length " ++ toString length
  | .cyclicTypeGraph name => "Cyclic type graph detected at " ++ name
  | .unknownType id => "Unknown type handle: " ++ id.display
  | .unknownSchema id => "Schema not found: " ++ id.display
  | .kindMismatch name expected => "Descriptor " ++ name ++ " is not " ++ expected.text
  | .config fault => "Configuration error: " ++ fault.message

end ExpressModel
