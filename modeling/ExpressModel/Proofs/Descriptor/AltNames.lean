import Mathlib
import ExpressModel.Descriptor.Names

/-! # Alternate names

The names that a type goes by in other schemas are a list that serves as a map: names are recorded
in it one after the other, and the last one given for a schema counts, schemas being told apart
ignoring letter case (`KeepsLastNames`).

The list has one entry for each class of schema names, with the spelling that came first
(`schemas_addAltNames`), so readers that take the first entry for a schema all read the same
(`altNameFor?_addAltNames`), and a name that was given and then overwritten is in no entry at
all. -/

namespace ExpressModel

open Text (sameName sameName_iff sameName_refl)

/-! ### First occurrences -/

/-- An element at the end is kept when none before it is related to it. -/
theorem eraseDupsBy_concat {α : Type} (r : α → α → Bool) (as : List α) (b : α) :
    (as ++ [b]).eraseDupsBy r =
      if (as.eraseDupsBy r).any (r b) then as.eraseDupsBy r else as.eraseDupsBy r ++ [b] := by
  have hloop : ∀ kept, List.eraseDupsBy.loop r (as ++ [b]) kept =
      if (List.eraseDupsBy.loop r as kept).any (r b) then List.eraseDupsBy.loop r as kept
      else List.eraseDupsBy.loop r as kept ++ [b] := by
    induction as with
    | nil =>
        intro kept
        simp only [List.nil_append, List.eraseDupsBy.loop, List.any_reverse]
        cases kept.any (r b) <;> simp
    | cons a as ih =>
        intro kept
        simp only [List.cons_append, List.eraseDupsBy.loop]
        by_cases hseen : kept.any (r a) = true
        · simp only [hseen]
          exact ih kept
        · simp only [hseen]
          exact ih (a :: kept)
  exact hloop []

namespace Text

theorem sameName_congr_left {a b : String} (h : sameName a b = true) :
    sameName a = sameName b := by
  funext c
  unfold sameName
  rw [sameName_iff.mp h]

theorem sameName_congr_right {a b : String} (h : sameName a b = true) (c : String) :
    sameName c a = sameName c b := by
  unfold sameName
  rw [sameName_iff.mp h]

end Text

namespace Descriptor

variable {t : Descriptor} {calls : List AltName} {schema : String}

/-! ### Specification -/

/-- Gives a type names in schemas, one after the other. -/
def addAltNames (calls : List AltName) (t : Descriptor) : Descriptor :=
  calls.foldl (fun t call => t.addAltName call.schema call.name) t

def lastNameFor? (schema : String) (calls : List AltName) : Option String :=
  (calls.filter fun call => sameName call.schema schema).getLast?.map AltName.name

/-- The schemas that names are given for, each as it is spelled first. -/
def firstSpellings (calls : List AltName) : List String :=
  (calls.map AltName.schema).eraseDupsBy sameName

theorem lastNameFor?_concat (schema : String) (calls : List AltName) (call : AltName) :
    lastNameFor? schema (calls ++ [call]) =
      if sameName call.schema schema then some call.name else lastNameFor? schema calls := by
  unfold lastNameFor?
  rw [List.filter_append, List.filter_singleton]
  cases sameName call.schema schema <;> simp

theorem addAltNames_concat (calls : List AltName) (call : AltName) (t : Descriptor) :
    t.addAltNames (calls ++ [call]) = (t.addAltNames calls).addAltName call.schema call.name := by
  unfold addAltNames
  rw [List.foldl_append]
  rfl

theorem firstSpellings_concat (calls : List AltName) (call : AltName) :
    firstSpellings (calls ++ [call]) =
      if (firstSpellings calls).any (sameName call.schema) then firstSpellings calls
      else firstSpellings calls ++ [call.schema] := by
  unfold firstSpellings
  rw [List.map_append, List.map_singleton, eraseDupsBy_concat]

/-- All classes of schema names are among those that are spelled first. -/
theorem any_firstSpellings (schema : String) (calls : List AltName) :
    (firstSpellings calls).any (sameName schema) =
      calls.any fun call => sameName call.schema schema := by
  induction calls using List.reverseRecOn with
  | nil => rfl
  | append_singleton calls call ih =>
      rw [firstSpellings_concat, List.any_append, ← ih, List.any_cons, List.any_nil,
        Bool.or_false]
      cases hknown : (firstSpellings calls).any (sameName call.schema) with
      | true =>
          rw [if_pos rfl]
          cases hsame : sameName call.schema schema with
          | true => rw [Bool.or_true, ← Text.sameName_congr_left hsame, hknown]
          | false => rw [Bool.or_false]
      | false =>
          rw [if_neg Bool.false_ne_true, List.any_append, List.any_cons, List.any_nil,
            Bool.or_false, Text.sameName_comm schema]

/-- Among the schemas as they are spelled first each class of names is once. -/
theorem countP_firstSpellings (schema : String) (calls : List AltName) :
    (firstSpellings calls).countP (sameName · schema) =
      if calls.any (fun call => sameName call.schema schema) then 1 else 0 := by
  induction calls using List.reverseRecOn with
  | nil => rfl
  | append_singleton calls call ih =>
      rw [firstSpellings_concat, any_firstSpellings, List.any_append, List.any_cons,
        List.any_nil, Bool.or_false]
      cases hsame : sameName call.schema schema with
      | true =>
          simp only [Text.sameName_congr_right hsame, Bool.or_true, if_true]
          cases hany : calls.any fun call => sameName call.schema schema with
          | true =>
              rw [hany] at ih
              exact ih
          | false =>
              rw [hany] at ih
              rw [if_neg Bool.false_ne_true, List.countP_append, ih, List.countP_singleton, hsame]
              rfl
      | false =>
          rw [Bool.or_false, ← ih]
          split
          · rfl
          · rw [List.countP_append, List.countP_singleton, hsame]
            rfl

/-! ### Recording -/

theorem schemas_recordAltName (schema name : String) (names : List AltName) :
    (recordAltName schema name names).map AltName.schema =
      if (names.map AltName.schema).any (sameName schema) then names.map AltName.schema
      else names.map AltName.schema ++ [schema] := by
  induction names with
  | nil => rfl
  | cons alt names ih =>
      rw [List.map_cons, List.any_cons, Text.sameName_comm schema, recordAltName]
      cases hsame : sameName alt.schema schema with
      | true => simp
      | false =>
          rw [if_neg Bool.false_ne_true, List.map_cons, ih, Bool.false_or]
          split <;> rfl

theorem schemas_addAltNames (h : t.altNames = []) (calls : List AltName) :
    (t.addAltNames calls).altNames.map AltName.schema = firstSpellings calls := by
  induction calls using List.reverseRecOn with
  | nil => exact congrArg (List.map AltName.schema) h
  | append_singleton calls call ih =>
      rw [addAltNames_concat, firstSpellings_concat, ← ih]
      exact schemas_recordAltName call.schema call.name _

theorem altNameFor?_congr {other : String} (h : sameName schema other = true)
    (names : List AltName) : altNameFor? schema names = altNameFor? other names := by
  unfold altNameFor?
  simp only [Text.sameName_congr_right h]

/-- What readers find for a schema is the last name given for it, or what was there before. -/
theorem altNameFor?_addAltNames (schema : String) (calls : List AltName) (t : Descriptor) :
    (altNameFor? schema (t.addAltNames calls).altNames).map AltName.name =
      (lastNameFor? schema calls).or ((altNameFor? schema t.altNames).map AltName.name) := by
  induction calls using List.reverseRecOn with
  | nil => rfl
  | append_singleton calls call ih =>
      rw [addAltNames_concat, lastNameFor?_concat]
      unfold addAltName
      cases hsame : sameName call.schema schema with
      | true =>
          rw [← altNameFor?_congr hsame, altNameFor?_recordAltName]
          rfl
      | false =>
          rw [altNameFor?_recordAltName_of_ne (by simp [hsame]), ih]
          rfl

/-- In a list with one entry for each class, an entry is the one that is found for its schema. -/
theorem altNameFor?_of_mem {names : List AltName} {alt : AltName}
    (hone : names.countP (sameName ·.schema alt.schema) ≤ 1) (h : alt ∈ names) :
    altNameFor? alt.schema names = some alt := by
  induction names with
  | nil => cases h
  | cons other names ih =>
      unfold altNameFor? at ih ⊢
      cases hsame : sameName other.schema alt.schema with
      | true =>
          rw [List.find?_cons, hsame]
          rcases List.mem_cons.mp h with rfl | h
          · rfl
          · have hpos : 0 < names.countP (sameName ·.schema alt.schema) :=
              List.countP_pos_iff.mpr ⟨alt, h, sameName_refl _⟩
            rw [List.countP_cons, hsame, if_pos rfl] at hone
            omega
      | false =>
          have hne : alt ≠ other := by
            rintro rfl
            rw [sameName_refl] at hsame
            cases hsame
          rw [List.countP_cons, hsame, if_neg Bool.false_ne_true] at hone
          rw [List.find?_cons, hsame]
          exact ih hone ((List.mem_cons.mp h).resolve_left hne)

/-- There is one entry for each class of schemas that names were given for. -/
theorem countP_addAltNames (h : t.altNames = []) (schema : String) (calls : List AltName) :
    (t.addAltNames calls).altNames.countP (sameName ·.schema schema) =
      if calls.any (sameName ·.schema schema) then 1 else 0 := by
  rw [← countP_firstSpellings, ← schemas_addAltNames h, List.countP_map]
  rfl

theorem lastNameFor?_of_mem (h : t.altNames = []) {alt : AltName}
    (halt : alt ∈ (t.addAltNames calls).altNames) :
    lastNameFor? alt.schema calls = some alt.name := by
  have hone : (t.addAltNames calls).altNames.countP (sameName ·.schema alt.schema) ≤ 1 := by
    rw [countP_addAltNames h]
    split <;> decide
  have hread := altNameFor?_addAltNames alt.schema calls t
  rw [altNameFor?_of_mem hone halt, h] at hread
  exact (hread.trans Option.or_none).symm

/-! ### Reading -/

theorem nameIn_of_altName {alt : AltName} (h : altNameFor? schema t.altNames = some alt) :
    t.nameIn (some schema) = alt.name := by
  unfold nameIn
  rw [Option.bind_some, h]
  rfl

theorem nameIn_of_none (h : altNameFor? schema t.altNames = none) :
    t.nameIn (some schema) = t.name := by
  unfold nameIn
  rw [Option.bind_some, h]
  rfl

theorem ownName_of_isNamed (h : t.isNamed = true) (name : String) :
    t.ownName name = sameName t.name name := by
  unfold ownName
  rw [h, Bool.true_and]

/-- In a schema a type is called by its name there and by no other. -/
theorem currentName_of_schema (h : t.isNamed = true) (hschema : schema ≠ "") (name : String) :
    t.currentName name (some schema) = sameName (t.nameIn (some schema)) name := by
  have hread : (some schema).filter (!·.isEmpty) = some schema := by
    simp [hschema]
  unfold currentName
  rw [hread]
  dsimp only
  cases halt : altNameFor? schema t.altNames with
  | none => rw [nameIn_of_none halt, ownName_of_isNamed h]
  | some alt => rw [nameIn_of_altName halt]

/-- Where no schema is given, a type is called by its own name and by those in its entries. -/
theorem currentName_of_none (h : t.isNamed = true) {schema? : Option String}
    (hschema : schema? ∈ [none, some ""]) (name : String) :
    t.currentName name schema? = true ↔ sameName t.name name = true ∨
      ∃ alt ∈ t.altNames, sameName alt.name name = true := by
  have hread : schema?.filter (!·.isEmpty) = none := by
    simp only [List.mem_cons, List.not_mem_nil, or_false] at hschema
    rcases hschema with rfl | rfl
    · rfl
    · rfl
  unfold currentName possibleName altName
  rw [hread]
  dsimp only
  rw [Bool.or_eq_true, ownName_of_isNamed h, List.any_eq_true]

/-! ### Exactness -/

/-- What a type without alternate names is called once names have been given to it. -/
structure KeepsLastNames (calls : List AltName) (t u : Descriptor) : Prop where
  /-- The entries are for the schemas that names were given for, in the order and in the spelling
  in which these came up first. -/
  schemas : u.altNames.map AltName.schema = firstSpellings calls
  /-- There is one entry for each class of schemas, and none for other schemas. -/
  one : ∀ schema, u.altNames.countP (sameName ·.schema schema) =
    if calls.any (sameName ·.schema schema) then 1 else 0
  /-- An entry holds the last name given for its class. -/
  names : ∀ alt ∈ u.altNames, lastNameFor? alt.schema calls = some alt.name
  /-- The last name given for a schema is the name there, which is otherwise the own name. -/
  nameIn : ∀ schema, u.nameIn (some schema) = (lastNameFor? schema calls).getD t.name
  /-- In a schema no other name counts. -/
  currentName : t.isNamed = true → ∀ name schema, schema ≠ "" →
    (u.currentName name (some schema) = true ↔
      sameName name (u.nameIn (some schema)) = true)
  /-- Without a schema the own name counts and every name in an entry. -/
  anyName : t.isNamed = true → ∀ name, ∀ schema? ∈ [none, some ""],
    (u.currentName name schema? = true ↔ sameName name t.name = true ∨
      ∃ alt ∈ u.altNames, sameName name alt.name = true)
  /-- A name that is nowhere the last one given does not count any more. -/
  overwritten : t.isNamed = true → ∀ name, ∀ schema? ∈ [none, some ""],
    sameName name t.name = false →
    (∀ schema, ∀ last ∈ lastNameFor? schema calls, sameName name last = false) →
    u.currentName name schema? = false
  /-- Nothing else of the type has changed. -/
  rest : u = { t with altNames := u.altNames }

theorem addAltNames_rest (calls : List AltName) (t : Descriptor) :
    t.addAltNames calls = { t with altNames := (t.addAltNames calls).altNames } := by
  have hrest : ∃ names, t.addAltNames calls = { t with altNames := names } := by
    induction calls using List.reverseRecOn with
    | nil => exact ⟨t.altNames, rfl⟩
    | append_singleton calls call ih =>
        obtain ⟨names, hnames⟩ := ih
        rw [addAltNames_concat, hnames]
        exact ⟨_, rfl⟩
  obtain ⟨names, hnames⟩ := hrest
  rw [hnames]

/-- The alternate names of a type are a map in which the last writer wins. -/
theorem keepsLastNames (h : t.altNames = []) (calls : List AltName) :
    KeepsLastNames calls t (t.addAltNames calls) := by
  have hrest := addAltNames_rest calls t
  have hname : (t.addAltNames calls).name = t.name := by rw [hrest]
  have hnamed : t.isNamed = true → (t.addAltNames calls).isNamed = true := by
    unfold isNamed
    rw [hname]
    exact id
  have hfound : ∀ schema, (altNameFor? schema (t.addAltNames calls).altNames).map AltName.name =
      lastNameFor? schema calls := by
    intro schema
    rw [altNameFor?_addAltNames, h]
    exact Option.or_none
  have hany : t.isNamed = true → ∀ name, ∀ schema? ∈ [none, some ""],
      ((t.addAltNames calls).currentName name schema? = true ↔ sameName name t.name = true ∨
        ∃ alt ∈ (t.addAltNames calls).altNames, sameName name alt.name = true) := by
    intro ht name schema? hschema
    rw [currentName_of_none (hnamed ht) hschema, hname]
    simp only [Text.sameName_comm name]
  refine ⟨schemas_addAltNames h calls, fun schema => countP_addAltNames h schema calls,
    fun _ => lastNameFor?_of_mem h, ?_, ?_, hany, ?_, hrest⟩
  · intro schema
    unfold nameIn
    rw [Option.bind_some, hfound, hname]
  · intro ht name schema hschema
    rw [currentName_of_schema (hnamed ht) hschema, Text.sameName_comm]
  · intro ht name schema? hschema hown hlast
    refine Bool.eq_false_of_not_eq_true ?_
    intro hcurrent
    rcases (hany ht name schema? hschema).mp hcurrent with hsame | ⟨alt, halt, hsame⟩
    · rw [hown] at hsame
      cases hsame
    · rw [hlast alt.schema alt.name (lastNameFor?_of_mem h halt)] at hsame
      cases hsame

def measure : Descriptor where
  name := "Length"
  description := "REAL"
  body := .plain .real

/-- Names in two schemas, one of which is given two names and spelled in two ways. -/
def measureNames : List AltName :=
  [⟨"importer", "distance"⟩, ⟨"drawing", "span"⟩, ⟨"IMPORTER", "Reach"⟩]

theorem keepsLastNames_measure :
    measure.altNames = [] ∧
      KeepsLastNames measureNames measure (measure.addAltNames measureNames) ∧
      (measure.addAltNames measureNames).altNames =
        [⟨"importer", "Reach"⟩, ⟨"drawing", "span"⟩] ∧
      (measure.addAltNames measureNames).currentName "reach" none = true ∧
      (measure.addAltNames measureNames).currentName "distance" none = false := by
  refine ⟨rfl, keepsLastNames rfl measureNames, ?_, ?_, ?_⟩
  · cbv
  · cbv
  · cbv

end Descriptor

end ExpressModel
