import ExpressModel.Declaration.Rules
import ExpressModel.Descriptor.Basic

/-! # Type declarations

A type is declared by its name, the text of its underlying type and its WHERE rules. -/

namespace ExpressModel.Declaration

/-- What a type declaration gives for the underlying type. -/
def underlyingText (t : Descriptor) : String :=
  if t.isEnumeration then "ENUMERATION OF \n  (" ++ Text.reflowEnumeration t.description
  else Text.reflowDescription t.description

def typeText (t : Descriptor) : String :=
  "TYPE " ++ Text.lower t.name ++ " = " ++ underlyingText t ++ ";\n" ++
    ruleBlock "WHERE" t.whereRules ++ "END_TYPE;\n"

end ExpressModel.Declaration
