import ExpressModel.Descriptor.Basic

/-! # Names of descriptors

A type has a name of its own and may go by other names in other schemas.  The alternate names
are a list with one entry per schema, schemas being told apart by their names ignoring letter
case; `addAltName` overwrites the name of the entry for the schema or adds one at the end. -/

namespace ExpressModel.Descriptor

open Text (lower sameName)

/-- The entry for a schema: the first that names it. -/
def altNameFor? (schema : String) (names : List AltName) : Option AltName :=
  names.find? fun alt => sameName alt.schema schema

/-- Records a name for a schema in a list of alternate names. -/
def recordAltName (schema name : String) : List AltName → List AltName
  | [] => [⟨schema, name⟩]
  | alt :: rest =>
    if sameName alt.schema schema then { alt with name } :: rest
    else alt :: recordAltName schema name rest

def addAltName (schema name : String) (t : Descriptor) : Descriptor :=
  { t with altNames := recordAltName schema name t.altNames }

/-- The name of the type in a schema, or its own name. -/
def nameIn (t : Descriptor) (schema? : Option String) : String :=
  ((schema?.bind fun schema => altNameFor? schema t.altNames).map AltName.name).getD t.name

/-- Is it the type's own name?  A type without a name has none. -/
def ownName (t : Descriptor) (name : String) : Bool :=
  t.isNamed && sameName t.name name

/-- Is it the type's name in some other schema? -/
def altName (t : Descriptor) (name : String) : Bool :=
  t.altNames.any fun alt => sameName alt.name name

def possibleName (t : Descriptor) (name : String) : Bool :=
  t.ownName name || t.altName name

/-- Is it the type's current name: the one in the schema, or any where no schema is given? -/
def currentName (t : Descriptor) (name : String) (schema? : Option String) : Bool :=
  match schema?.filter (!·.isEmpty) with
  | none => t.possibleName name
  | some schema =>
    match altNameFor? schema t.altNames with
    | some alt => sameName alt.name name
    | none => t.ownName name

/-- How an attribute's domain is written in a schema: by name, or in full for an inline type. -/
def domainText (t : Descriptor) (schema? : Option String) : String :=
  if t.isNamed then lower (t.nameIn schema?) else t.description

theorem altNameFor?_recordAltName (schema name : String) (names : List AltName) :
    (altNameFor? schema (recordAltName schema name names)).map AltName.name = some name := by
  induction names with
  | nil => simp [altNameFor?, recordAltName, Text.sameName_refl]
  | cons alt rest ih =>
    by_cases h : sameName alt.schema schema = true
    · simp [altNameFor?, recordAltName, h]
    · simp only [altNameFor?] at ih ⊢
      simpa [recordAltName, h] using ih

/-- A name recorded for a schema is none for another schema. -/
theorem altNameFor?_recordAltName_of_ne {schema other : String}
    (h : ¬ sameName other schema = true) (name : String) (names : List AltName) :
    altNameFor? schema (recordAltName other name names) = altNameFor? schema names := by
  induction names with
  | nil => simp [altNameFor?, recordAltName, h]
  | cons alt rest ih =>
    unfold recordAltName
    by_cases hother : sameName alt.schema other = true
    · have halt : ¬ sameName alt.schema schema = true := by
        intro hschema
        rw [Text.sameName_comm] at hother
        exact h (Text.sameName_trans hother hschema)
      rw [if_pos hother]
      simp [altNameFor?, halt]
    · rw [if_neg hother]
      by_cases halt : sameName alt.schema schema = true
      · simp [altNameFor?, halt]
      · simpa [altNameFor?, halt] using ih

theorem nameIn_addAltName_of_ne {schema other : String} (h : ¬ sameName other schema = true)
    (name : String) (t : Descriptor) :
    (t.addAltName other name).nameIn (some schema) = t.nameIn (some schema) := by
  simp only [nameIn, addAltName, Option.bind_some, altNameFor?_recordAltName_of_ne h]

end ExpressModel.Descriptor
