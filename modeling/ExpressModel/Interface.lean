import ExpressModel.Registry.Owned

/-! # Interfaces between schemas

A schema imports from another by a USE or a REFERENCE interface, which lists the imported items,
each under its own or under another name, or imports everything. -/

namespace ExpressModel

/-- How imported items may be used. -/
inductive InterfaceKind where
  | use
  | reference
  deriving DecidableEq, Inhabited

def InterfaceKind.keyword : InterfaceKind → String
  | .use => "USE"
  | .reference => "REFERENCE"

/-- The two kinds in the order of their clauses. -/
def InterfaceKind.all : List InterfaceKind :=
  [.use, .reference]

/-- An imported item. -/
structure ImportItem where
  /-- The name in the schema it comes from. -/
  name : String
  /-- The name it has here, where that differs. -/
  newName? : Option String := none
  deriving DecidableEq

/-- An item under another name; an empty name is no other name. -/
def ImportItem.renamed (name newName : String) : ImportItem :=
  ⟨name, if newName.isEmpty then none else some newName⟩

/-- An import from one schema into another. -/
structure Interface where
  /-- The name of the importing schema. -/
  current : String
  /-- The name of the schema imported from. -/
  foreign : String
  importsAll : Bool := false
  items : OwnedRegistry ImportItem := .empty

namespace Interface

def withItem (item : ImportItem) (i : Interface) : Interface :=
  { i with items := (i.items.append item).2 }

/-- Takes over the options for the items. -/
def applyOptions (options : RegistryOptions) (i : Interface) : Interface :=
  { i with items := i.items.applyOptions options }

/-- An interface of its own with the same items in the same order, each a new element, in a
registry of the same policy and with as much room as can be set aside. -/
def copy (i : Interface) : Interface :=
  { i with items := (OwnedRegistry.new i.items.capacity i.items.policy).appendAll i.items.values }

/-- A copy lists the same items; vacant slots are not copied. -/
@[simp] theorem values_copy (i : Interface) : i.copy.items.values = i.items.values := by
  simp [copy, OwnedRegistry.values_appendAll]

end Interface

end ExpressModel
