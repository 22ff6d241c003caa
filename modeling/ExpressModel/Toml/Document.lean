import ExpressModel.Toml.Value

/-! # TOML documents

A document is a sequence of statements: assignments, and headers that say which table the
following assignments belong to.  `readStatements` takes a text apart into statements and
`Document.ofStatements?` puts the tables together; it fails where a key is given twice, a table is
opened twice, or a value is treated as a table.

A document knows which of its tables are open for what (`Opening`); a table that is a value is
not listed there and so is closed.  The entries of a table keep the order in which they came up;
a table that was only mentioned comes up when its header does. -/

namespace ExpressModel.Toml

/-! ### Statements -/

/-- A line of a document. -/
inductive Statement where
  /-- A table begins. -/
  | table (path : List String)
  /-- A further element of an array of tables begins. -/
  | element (path : List String)
  | assign (path : List String) (value : Setting)

/-- Takes a statement from the front of a text. -/
def readStatement : Reader Statement
  | '[' :: '[' :: cs => do
    let (path, rest) ← readPath cs
    match rest with
    | ']' :: ']' :: rest => return (.element path, rest)
    | _ => none
  | '[' :: cs => do
    let (path, rest) ← readPath cs
    match rest with
    | ']' :: rest => return (.table path, rest)
    | _ => none
  | cs => do
    let (path, rest) ← readPath cs
    match rest with
    | '=' :: rest =>
      let (value, rest) ← readValue maxDepth (2 * rest.length + 2) (skipInline rest)
      return (.assign path value, rest)
    | _ => none

/-- Takes a text apart into statements, a line for each, with a bound on their number. -/
def readStatements : Nat → List Char → Option (List Statement)
  | 0, _ => none
  | bound + 1, cs => do
    match ← skipLines false cs with
    | [] => return []
    | cs =>
      let (statement, rest) ← readStatement cs
      if atLineEnd rest then
        let statements ← readStatements bound rest
        return statement :: statements
      else none

/-! ### Tables -/

/-- What a table of a document is open for. -/
inductive Opening where
  /-- Mentioned on the way to another; a header may still open it. -/
  | mentioned
  /-- Opened by its header, once. -/
  | header
  /-- Opened by an assignment to a path through it; only such assignments add to it. -/
  | dotted
  /-- An array of tables, whose last element is meant. -/
  | elements
  deriving DecidableEq

/-- The tables of a document so far. -/
structure Document where
  root : Setting := .table []
  openings : List (List String × Opening) := []
  /-- The path of the table that assignments belong to. -/
  current : List String := []

namespace Document

/-- The value at a path; an array of tables stands for its last element. -/
def valueAt? : List String → Setting → Option Setting
  | [], s => some s
  | key :: rest, s =>
    match s.valueOf? key with
    | none => none
    | some (.list items) =>
      if rest.isEmpty then some (.list items) else items.getLast?.bind (valueAt? rest)
    | some inner => valueAt? rest inner

/-- Changes the table at a path; an array of tables stands for its last element. -/
def updateAt (f : Setting → Setting) : List String → Setting → Setting
  | [], s => f s
  | key :: rest, s =>
    match s.valueOf? key with
    | some (.list items) =>
      let last := items.getLast?.getD (.table [])
      s.put key (.list (items.dropLast ++ [updateAt f rest last]))
    | some inner => s.put key (updateAt f rest inner)
    | none => s.put key (updateAt f rest (.table []))

def setAt (value : Setting) (path : List String) (root : Setting) : Setting :=
  match path.getLast? with
  | some key => updateAt (·.put key value) path.dropLast root
  | none => value

/-- Moves the value at a path behind the others in its table. -/
def moveLastAt (path : List String) (root : Setting) : Setting :=
  match path.getLast? with
  | some key => updateAt (·.moveLast key) path.dropLast root
  | none => root

/-- What the table at a path is open for. -/
def opening? (d : Document) (path : List String) : Option Opening :=
  d.openings.lookup path

/-- Puts a value at a path and notes what it is open for. -/
def openTable (path : List String) (value : Setting) (opening : Opening) (d : Document) :
    Document :=
  { d with root := setAt value path d.root, openings := (path, opening) :: d.openings }

/-- The proper initial parts of a path, shortest first. -/
def prefixesOf (path : List String) : List (List String) :=
  (List.range (path.length - 1)).map fun n => path.take (n + 1)

/-- Makes sure that there is a table at a path on the way to another, open for that use. -/
def passThrough? (fresh : Opening) (allowed : Opening → Bool) (d : Document)
    (path : List String) : Option Document :=
  match valueAt? path d.root with
  | none => some (d.openTable path (.table []) fresh)
  | some _ => if (d.opening? path).any allowed then some d else none

/-- Makes sure that there are tables on the way to a header's path. -/
def reachHeader? (path : List String) (d : Document) : Option Document :=
  (prefixesOf path).foldlM (passThrough? .mentioned fun _ => true) d

/-- Makes sure that there are tables on the way to the path of an assignment.  Tables that have
no header so far may be passed; the one that the assignment adds to is open for nothing else. -/
def reachDotted? (path : List String) (d : Document) : Option Document := do
  let way := (prefixesOf path).map (d.current ++ ·)
  let d ← way.dropLast.foldlM (passThrough? .dotted (· != .header)) d
  way.getLast?.toList.foldlM (passThrough? .dotted (· == .dotted)) d

def step? (d : Document) : Statement → Option Document
  | .table path => do
    let d ← d.reachHeader? path
    let d := { d with current := path }
    match valueAt? path d.root with
    | none => return d.openTable path (.table []) .header
    | some _ =>
      if d.opening? path = some .mentioned then
        return { d with
          root := moveLastAt path d.root, openings := (path, .header) :: d.openings }
      else none
  | .element path => do
    let d ← d.reachHeader? path
    let d := { d with current := path }
    match valueAt? path d.root with
    | none => return d.openTable path (.list [.table []]) .elements
    | some (.list items) =>
      if d.opening? path = some .elements then
        let openings := d.openings.filter fun (p, _) => !(path.isPrefixOf p && p != path)
        return { d with root := setAt (.list (items ++ [.table []])) path d.root, openings }
      else none
    | some _ => none
  | .assign path value => do
    let d ← d.reachDotted? path
    let target := d.current ++ path
    match valueAt? target d.root with
    | none => return { d with root := setAt value target d.root }
    | some _ => none

/-- The tables that statements amount to. -/
def ofStatements? (statements : List Statement) : Option Document :=
  statements.foldlM step? {}

end Document

/-- The entries of the root table of a document, unless it is malformed or the root is no table
but a date.  A byte order mark at the front is left out. -/
def parse? (text : String) : Option (List (String × Setting)) := do
  let cs := match text.toList with
    | '\uFEFF' :: cs => cs
    | cs => cs
  let statements ← readStatements (cs.length + 1) cs
  let document ← Document.ofStatements? statements
  match ← withDates? document.root with
  | .table entries => return entries
  | _ => none

end ExpressModel.Toml
