import DataModel.Error
import DataModel.Label

/-!
# Enumerations

Named sets of items with integer values. An item may be declared without a value; linking numbers
it.
-/

namespace DataModel

/-- An item of an enumeration. -/
structure EnumItem where
  name : String
  value : Option Int64 := none
  doc : Option String := none
  labels : List Label := []
  deriving DecidableEq

/-- An enumeration. -/
structure Enumeration where
  id : Handle .enumeration
  name : String
  canonical : String
  doc : Option String := none
  items : List EnumItem := []
  deriving DecidableEq

namespace Enumeration

/-- A new enumeration without items. -/
def declare (id : Handle .enumeration) (name : String) : Enumeration :=
  { id, name, canonical := Ident.canonical name }

/-- The first item of a name. -/
def item? (e : Enumeration) (name : String) : Option EnumItem :=
  e.items.find? fun i => Ident.same i.name name

/-- Some item has the value. -/
def hasValue (e : Enumeration) (value : Int64) : Bool :=
  e.items.any fun i => i.value == some value

/-- The enumeration with one more item, whose name has to be new. -/
def addItem (e : Enumeration) (item : EnumItem) : Except Error Enumeration := do
  Scope.enumItem.checkNew item.name (e.items.map EnumItem.name)
  return { e with items := e.items ++ [item] }

end Enumeration

end DataModel
