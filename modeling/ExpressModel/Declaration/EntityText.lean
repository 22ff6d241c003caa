import ExpressModel.Declaration.Rules
import ExpressModel.Resolve.Domain

/-! # Entity declarations

An entity is declared by its name, its supertype statement, its supertypes, its attributes in
three sections (explicit, derived, inverse) and its rules.  Every part that has nothing to list is
left out.  Attributes name their domains as the schema does that the declaration is written
for. -/

namespace ExpressModel.Declaration

/-! ### Attributes -/

def attributeText (d : Dictionary) (schema? : Option String) (a : Attribute) :
    Except Error String := do
  let domain ← a.domainText d schema?
  let optional := if a.optional.isTrue then "OPTIONAL " else ""
  return match a.role with
    | .explicit => a.name ++ " : " ++ optional ++ domain
    | .derived initializer? =>
      let qualifier := if '.' ∈ a.name.toList then "SELF\\" else ""
      let initializer := initializer?.elim "" fun text => " \n\t\t:= " ++ text
      qualifier ++ a.name ++ " : " ++ domain ++ initializer
    | .inverse inverted => a.name ++ " : " ++ optional ++ domain ++ " FOR " ++ inverted

/-- The definitions of attributes, a line each. -/
def attributeLines (d : Dictionary) (schema? : Option String) (attrs : List Attribute) :
    Except Error String := do
  let lines ← attrs.mapM (attributeText d schema?)
  return String.join (lines.map fun line => "    " ++ line ++ ";\n")

/-- A section of attributes under a heading, left out when there are none. -/
def attributeSection (d : Dictionary) (schema? : Option String) (heading : String)
    (attrs : List Attribute) : Except Error String :=
  if attrs.isEmpty then .ok ""
  else (attributeLines d schema? attrs).map (heading ++ ·)

/-! ### The declaration -/

/-- The clause that names the supertypes, left out when there are none. -/
def subtypeClause (d : Dictionary) (supertypes : List EntityId) : Except Error String := do
  let names ← supertypes.mapM fun s => (d.require s.toType).map fun t => Text.lower t.name
  return if names.isEmpty then ""
    else "\n  SUBTYPE OF (" ++ String.intercalate ",\n\t\t" names ++ ")"

/-- The supertype statement, left out when it is empty. -/
def supertypeStatement (b : EntityBody) : String :=
  match b.supertypeStatement?.filter (!·.isEmpty) with
  | none => ""
  | some statement => "\n  " ++ statement

def attributeSections (d : Dictionary) (schema? : Option String) (b : EntityBody) :
    Except Error String := do
  let attrs := b.explicitAttrs.values
  let explicit ← attributeLines d schema? (attrs.filter (!·.isDerived))
  let derived ← attributeSection d schema? "  DERIVE\n" (attrs.filter (·.isDerived))
  let inverse ← attributeSection d schema? "  INVERSE\n" b.inverseAttrs.values
  return explicit ++ derived ++ inverse

/-- The declaration of an entity; of a type that is no entity there is only the frame. -/
def entityText (d : Dictionary) (schema? : Option String) (t : Descriptor) :
    Except Error String :=
  let opening := "ENTITY " ++ Text.lower t.name
  match t.entity? with
  | none => .ok (opening ++ ";\nEND_ENTITY;\n")
  | some b => do
    let clause ← subtypeClause d b.supertypes.live
    let sections ← attributeSections d schema? b
    return opening ++ supertypeStatement b ++ clause ++ ";\n" ++ sections ++
      ruleBlock "UNIQUE" b.uniqueness ++ ruleBlock "WHERE" t.whereRules ++ "END_ENTITY;\n"

end ExpressModel.Declaration
