import Mathlib
import ExpressModel.Config.Library
import ExpressModel.Text.Case

/-! # What libraries of settings are documented to do

The library that a program reads its configuration with is given by its documentation alone, one
structure for each part: how sources are collected and put together (`Collects`), how what a source
sets is merged into what there is (`Merges`), how values are read (`Reads`), and how tables are
written and read again (`Writes`).

Only plain cases are asked for: keys that are names (`isName`), which stand for themselves whether
letter case counts or not, and values of the kinds that a program needs. -/

namespace ExpressModel

/-- Is it made of words of small letters, with single underscores between them? -/
def isName (s : String) : Bool :=
  (s.toList.splitOn '_').all fun word => !word.isEmpty && word.all Char.isLower

namespace Setting

def isTable : Setting → Bool
  | table _ => true
  | _ => false

/-- The section of a name, if it is there, is a table. -/
def TableAt (s : Setting) (name : String) : Prop :=
  ∀ t, s.valueOf? name = some t → t.isTable = true

/-- The entry of a key in the section of a name. -/
def inSection? (s : Setting) (name key : String) : Option Setting :=
  (s.valueOf? name).bind (·.valueOf? key)

theorem mem_of_lookup {entries : List (String × Setting)} {key : String} {v : Setting}
    (h : entries.lookup key = some v) : (key, v) ∈ entries := by
  obtain ⟨before, after, rfl, -⟩ := List.lookup_eq_some_iff.mp h
  exact List.mem_append_right _ List.mem_cons_self

theorem lookup_of_not_mem {key : String} {entries : List (String × Setting)}
    (h : key ∉ entries.map Prod.fst) : entries.lookup key = none := by
  rw [List.lookup_eq_none_iff]
  intro e he
  rw [bne_iff_ne]
  rintro rfl
  exact h (List.mem_map_of_mem he)

theorem lookup_of_mem {entries : List (String × Setting)} (hnodup : (entries.map Prod.fst).Nodup)
    {key : String} {v : Setting} (h : (key, v) ∈ entries) : entries.lookup key = some v := by
  induction entries with
  | nil => cases h
  | cons e entries ih =>
      obtain ⟨k, u⟩ := e
      rw [List.map_cons, List.nodup_cons] at hnodup
      rcases List.mem_cons.mp h with heq | hmem
      · cases heq
        exact List.lookup_cons_self
      · have hne : key ≠ k := by
          rintro rfl
          exact hnodup.1 (List.mem_map.mpr ⟨_, hmem, rfl⟩)
        rw [List.lookup_cons, beq_eq_false_iff_ne.mpr hne]
        exact ih hnodup.2 hmem

end Setting

/-- A path of a file whose name ends as that of a TOML file. -/
def IsTomlPath (path : String) : Prop :=
  ∃ front c, c.isAlphanum = true ∧ path.toList = front ++ c :: ".toml".toList

/-- Tables with names for keys and texts, each key given once. -/
structure Tables.IsPlain (tables : Tables) : Prop where
  names : ∀ t ∈ tables, isName t.1
  nodup : (tables.map Prod.fst).Nodup
  keys : ∀ t ∈ tables, ∀ e ∈ t.2, isName e.1
  keys_nodup : ∀ t ∈ tables, (t.2.map Prod.fst).Nodup
  texts : ∀ t ∈ tables, ∀ e ∈ t.2, ∀ s, e.2 = .text s → isName s

namespace SettingsLibrary

variable (library : SettingsLibrary)

/-- The path and the text of the file that a name stands for, if it is there. -/
def found? (w : Surroundings) (name : String) : Option (String × String) :=
  (library.candidates name).findSome? fun path => (w.file? path).map (path, ·)

/-- Files are found by their paths, or else by the other candidates for their names; those that are
not required may be missing.  A variable is named by the start and by the levels of its key, letter
case ignored.  All sources are collected, and merged in order. -/
structure Collects : Prop where
  exact : ∀ name, (library.candidates name).head? = some name
  present : ∀ w name required path text layer, library.found? w name = some (path, text) →
    library.parse path text = .ok layer → library.collect w (.file name required) = .ok layer
  absent : ∀ w name, library.found? w name = none → library.collect w (.file name false) = .ok []
  missing : ∀ w name, library.found? w name = none →
    ∃ fault, library.collect w (.file name true) = .error fault
  environment : ∀ w start separator parsing,
    library.collect w (.environment start separator parsing) =
      .ok (w.environment.filterMap (library.setByVariable? start separator parsing))
  named : ∀ start name key v value, isName name → isName key →
    Text.lower v = Text.lower start ++ "__" ++ name ++ "__" ++ key →
    library.setByVariable? start "__" true (v, value) =
      some (name ++ "." ++ key, library.parsed value)
  build : ∀ w sources layers, sources.mapM (library.collect w) = .ok layers →
    library.build w sources = .ok (layers.foldl library.merge (.table []))
  failed : ∀ w sources source fault, source ∈ sources → library.collect w source = .error fault →
    ∃ fault, library.build w sources = .error fault

/-- A source is merged entry by entry.  A table goes over a section key by key, and a path of two
names to the key in the section; an entry of another name leaves the section as it is. -/
structure Merges : Prop where
  nil : ∀ s, library.merge s [] = s
  cons : ∀ s e layer, library.merge s (e :: layer) = library.merge (library.merge s [e]) layer
  isTable : ∀ s e, s.isTable = true → (library.merge s [e]).isTable = true
  other : ∀ s e name, ¬ name.toList <+: (Text.lower e.1).toList →
    (library.merge s [e]).valueOf? name = s.valueOf? name
  table_tableAt : ∀ s name entries, isName name → s.TableAt name →
    (library.merge s [(name, .table entries)]).TableAt name
  table_sets : ∀ s name entries key v, isName name → isName key → s.TableAt name →
    entries.lookup key = some v → (∀ e ∈ entries, Text.lower e.1 = key → e = (key, v)) →
    v.isTable = false → (library.merge s [(name, .table entries)]).inSection? name key = some v
  table_keeps : ∀ s name entries key, isName name → s.TableAt name →
    (∀ e ∈ entries, Text.lower e.1 ≠ key) →
    (library.merge s [(name, .table entries)]).inSection? name key = s.inSection? name key
  path_tableAt : ∀ s name key v, isName name → isName key → s.TableAt name → v.isTable = false →
    (library.merge s [(name ++ "." ++ key, v)]).TableAt name
  path_sets : ∀ s name key v, isName name → isName key → s.TableAt name → v.isTable = false →
    (library.merge s [(name ++ "." ++ key, v)]).inSection? name key = some v
  path_keeps : ∀ s name key v other, isName name → isName key → s.TableAt name →
    v.isTable = false → other ≠ key →
    (library.merge s [(name ++ "." ++ key, v)]).inSection? name other = s.inSection? name other

/-- The fields of a table are its entries, and values are read as what they are. -/
structure Reads : Prop where
  field : ∀ key position entries,
    library.field? key position (.table entries) = .ok (entries.lookup key)
  natural : ∀ n : Nat, n < 2 ^ 64 → library.natural? (.integer n) = some n
  boolean : ∀ b, library.boolean? (.boolean b) = some b
  choice : ∀ names name, (∀ n ∈ names, isName n) → name ∈ names →
    library.choice? names (.text name) = some name

/-- Tables are written unless one of their numbers does not fit 64 bits with a sign, and what is
written is read again. -/
structure Writes : Prop where
  ok_iff : ∀ tables : Tables, tables.IsPlain → ((∃ text, library.write tables = .ok text) ↔
    ∀ t ∈ tables, ∀ e ∈ t.2, ∀ n, e.2 = .integer n → n < 2 ^ 63)
  parse : ∀ (tables : Tables) text path, tables.IsPlain → library.write tables = .ok text →
    IsTomlPath path → library.parse path text = .ok tables.layer

end SettingsLibrary

end ExpressModel
