/-! # Settings

The values of configuration sources: scalars, dates, lists and tables.  A table is a list of entries
in the order in which they came up. -/

namespace ExpressModel

/-- A value of a configuration source. -/
inductive Setting where
  /-- An open place of a list. -/
  | nothing
  | boolean (b : Bool)
  | integer (n : Int)
  | float (x : Float)
  | text (s : String)
  /-- A date, a time of day or both, as it is written. -/
  | date (s : String)
  | list (items : List Setting)
  | table (entries : List (String × Setting))
  deriving Inhabited

namespace Setting

/-! ### Tables -/

/-- The entries of a table; nothing else has entries. -/
def entries : Setting → List (String × Setting)
  | table entries => entries
  | _ => []

def valueOf? (s : Setting) (key : String) : Option Setting :=
  s.entries.lookup key

/-- Sets the entry of a key in a list of entries. -/
def putEntry (key : String) (value : Setting) :
    List (String × Setting) → List (String × Setting)
  | [] => [(key, value)]
  | (k, v) :: rest => if k = key then (key, value) :: rest else (k, v) :: putEntry key value rest

/-- Sets the entry of a key; what is no table becomes one. -/
def put (s : Setting) (key : String) (value : Setting) : Setting :=
  table (putEntry key value s.entries)

/-- Moves the entry of a key behind the others. -/
def moveLast (s : Setting) (key : String) : Setting :=
  let (here, others) := s.entries.partition (·.1 = key)
  table (others ++ here)

theorem lookup_putEntry (key : String) (value : Setting) (entries : List (String × Setting)) :
    (putEntry key value entries).lookup key = some value := by
  induction entries with
  | nil => simp [putEntry]
  | cons e rest ih =>
    rcases e with ⟨k, v⟩
    by_cases h : k = key
    · simp [putEntry, h]
    · simp only [putEntry, h, if_false, List.lookup_cons]
      have hne : (key == k) = false := by simpa using Ne.symm h
      simpa [hne] using ih

@[simp] theorem valueOf?_put (s : Setting) (key : String) (value : Setting) :
    (s.put key value).valueOf? key = some value :=
  lookup_putEntry key value s.entries

end Setting

end ExpressModel
